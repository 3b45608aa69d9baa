import QuotaWatch.Proofs.Blob.Base64
import QuotaWatch.Proofs.Json.Spelling
import QuotaWatch.Proofs.Store.Opening
import QuotaWatch.Proofs.Text.Blank
import QuotaWatch.Store.Extraction

/-!
# What is read from a store

`Holds d p r` says what the store at a path holds, in terms of its file, its table, the grammar of
JSON and base64 and not of how they are read. The store is read exactly as it holds
(`extract_exact`), so it holds one thing only and the first stage that fails tells the fault.
-/

namespace QuotaWatch

open Json

variable {d : Disk} {p : Path} {env bytes : Bytes} {s : String}

/-! ## The blob in a text -/

/-- A text that is a byte string in base64, with any blanks around it. -/
def Encodes (s : String) (bytes : Bytes) : Prop :=
  ∃ front core back : List Char, (∀ c ∈ front, Text.isBlank c = true)
    ∧ (∀ c ∈ back, Text.isBlank c = true)
    ∧ Bytes.ofText (String.ofList core) = Base64.encode bytes ∧ s.toList = front ++ core ++ back

/-- Nothing in base64 is taken for a blank, so trimming takes away just what stands around it. -/
theorem not_isBlank_of_encode {core : List Char}
    (h : Bytes.ofText (String.ofList core) = Base64.encode bytes) :
    ∀ c ∈ core, Text.isBlank c = false := by
  intro c hc
  -- so the character is one byte above the blanks of ASCII
  have hplain : ∀ b ∈ Bytes.ofChar c, 0x20 < b.toNat ∧ b.toNat < 0x80 := by
    intro b hb
    have hmem : b ∈ Base64.encode bytes := by
      rw [← h, Bytes.ofText_ofList]
      exact List.mem_flatMap.mpr ⟨c, hc, hb⟩
    have hb := Base64.plain_of_mem_encode hmem
    exact ⟨hb.1, hb.2.1⟩
  obtain ⟨hone, hascii⟩ := Bytes.ofChar_of_ascii fun b hb => (hplain b hb).2
  have hlow := (hplain (UInt8.ofNat c.toNat) (by rw [hone]; exact List.mem_singleton_self _)).1
  rw [UInt8.toNat_ofNat'] at hlow
  simp only [Text.isBlank, Bool.or_eq_false_iff, Bool.and_eq_false_iff, decide_eq_false_iff_not]
  omega

/-- The blob of a text is decoded exactly if the text is that byte string in base64, with any blanks
around it. -/
theorem decodedBlob_ok_iff : decodedBlob s = .ok bytes ↔ Encodes s bytes := by
  unfold decodedBlob
  simp only [except_mapError_ok_iff, Base64.decode_ok_iff]
  constructor
  · intro h
    obtain ⟨front, back, hfront, hback, hs⟩ := Text.eq_trim_between s.toList
    exact ⟨front, _, back, hfront, hback, h, hs⟩
  · rintro ⟨front, core, back, hfront, hback, hcore, hs⟩
    -- what is left between the blanks is the core
    rw [hs, Text.trim_between hfront (not_isBlank_of_encode hcore) hback]
    exact hcore

/-! ## The text in an envelope -/

/-- A member of an object with no other one of its key behind it. Of members with one key it is the
last that counts. -/
def LastMember (v : Value) (key : String) (w : Value) : Prop :=
  ∃ front back, v = .object (front ++ (key, w) :: back) ∧ ∀ m ∈ back, m.1 ≠ key

/-- Looking a key up finds the last member of that key. A value that is no object has none. -/
theorem get?_eq_some_iff {v w : Value} {key : String} :
    v.get? key = some w ↔ LastMember v key w := by
  cases v with
  | object members =>
    simp only [Value.get?, Option.map_eq_some_iff, List.find?_eq_some_iff_append]
    constructor
    · rintro ⟨⟨k, w'⟩, ⟨hkey, back, front, hmembers, hback⟩, rfl⟩
      obtain rfl : k = key := by simpa using hkey
      refine ⟨front.reverse, back.reverse, ?_, ?_⟩
      · rw [← List.reverse_reverse members, hmembers]
        simp
      · intro m hm
        simpa using hback m (List.mem_reverse.mp hm)
    · rintro ⟨front, back, hv, hback⟩
      cases hv
      refine ⟨(key, w), ⟨by simp, back.reverse, front.reverse, by simp, ?_⟩, rfl⟩
      intro m hm
      simpa using hback m (List.mem_reverse.mp hm)
  | _ => simp [Value.get?, LastMember]

/-- Only a member that is a text has a text; a number or an object under that key is the same as no
member. -/
theorem textOf_eq_some_iff {v : Value} :
    (v.get? binaryField).bind Value.text? = some s ↔ LastMember v binaryField (.string s) := by
  rw [← get?_eq_some_iff]
  cases v.get? binaryField with
  | none => simp
  | some w => cases w <;> simp [Value.text?]

/-- The encoded blob is found in an envelope exactly if this is the text of some JSON value with
such a member. How the value is spelled does not matter. -/
theorem encodedBlob_ok_iff :
    encodedBlob env = .ok s ↔ ∃ v, Writes env v ∧ LastMember v binaryField (.string s) := by
  unfold encodedBlob
  simp only [except_bind_ok_iff, except_mapError_ok_iff, parse_ok_iff, ← textOf_eq_some_iff]
  refine exists_congr fun v => and_congr_right fun _ => ?_
  cases (v.get? binaryField).bind Value.text? <;> simp

/-! ## The envelope in a database -/

/-- A row with no other one of its key in front of it. Unlike the members of an object it is the
first row that counts. -/
def FirstRow (rows : List (String × Cell)) (key : String) (cell : Cell) : Prop :=
  ∃ front back, rows = front ++ (key, cell) :: back ∧ ∀ r ∈ front, r.1 ≠ key

/-- A table holds an envelope: a text or blob that is not empty. -/
def Envelope (rows : List (String × Cell)) (env : Bytes) : Prop :=
  env ≠ [] ∧ (FirstRow rows authStatusKey (.text env) ∨ FirstRow rows authStatusKey (.blob env))

/-- Looking a key up in a table finds its first row. -/
theorem find?_row_eq_some_iff {rows : List (String × Cell)} {key : String} {cell : Cell} :
    (rows.find? fun row => row.1 = key).map (·.2) = some cell ↔ FirstRow rows key cell := by
  simp only [Option.map_eq_some_iff, List.find?_eq_some_iff_append]
  constructor
  · rintro ⟨⟨k, other⟩, ⟨hkey, front, back, hrows, hfront⟩, rfl⟩
    obtain rfl : k = key := by simpa using hkey
    exact ⟨front, back, hrows, fun r hr => by simpa using hfront r hr⟩
  · rintro ⟨front, back, hrows, hfront⟩
    exact ⟨(key, cell), ⟨by simp, front, back, hrows, fun r hr => by simpa using hfront r hr⟩, rfl⟩

theorem bytes?_eq_some_iff {cell : Cell} :
    cell.bytes? = some env ↔ cell = .text env ∨ cell = .blob env := by
  cases cell <;> simp [Cell.bytes?]

/-- The bytes under the key are those of its first row, if that is a text or a blob. No row behind
it is tried. -/
theorem bytes_eq_some_iff {rows : List (String × Cell)} :
    ((rows.find? fun row => row.1 = authStatusKey).map (·.2)).bind Cell.bytes? = some env ↔
      FirstRow rows authStatusKey (.text env) ∨ FirstRow rows authStatusKey (.blob env) := by
  simp only [Option.bind_eq_some_iff, find?_row_eq_some_iff, bytes?_eq_some_iff]
  constructor
  · rintro ⟨cell, hcell, rfl | rfl⟩
    · exact .inl hcell
    · exact .inr hcell
  · rintro (h | h)
    · exact ⟨_, h, .inl rfl⟩
    · exact ⟨_, h, .inr rfl⟩

/-- A table holds one envelope at most. -/
theorem Envelope.unique {rows : List (String × Cell)} {other : Bytes} (h : Envelope rows env)
    (h' : Envelope rows other) : env = other :=
  Option.some.inj ((bytes_eq_some_iff.mpr h.2).symm.trans (bytes_eq_some_iff.mpr h'.2))

/-- A table of items holds the envelope that is found in it, or none. An empty text counts as none.
-/
theorem envelope_of_items {rows : List (String × Cell)} (h : d.database p = .ok (.items rows)) :
    (∃ env, d.envelope p = .ok env ∧ Envelope rows env)
    ∨ (d.envelope p = .error .noAuthStatus ∧ ∀ env, ¬Envelope rows env) := by
  unfold Disk.envelope
  rw [h]
  simp only [Except.bind, Database.lookup, except_mapError_ok, bind]
  split
  next first rest hbytes =>
    exact .inl ⟨_, rfl, List.cons_ne_nil first rest, bytes_eq_some_iff.mp hbytes⟩
  next hother =>
    refine .inr ⟨rfl, fun env ⟨hne, henv⟩ => ?_⟩
    obtain ⟨first, rest, rfl⟩ := List.exists_cons_of_ne_nil hne
    exact hother first rest (bytes_eq_some_iff.mpr henv)

/-- Where there is no table of items to be read, the database is at fault, whether it cannot be
opened, is no database or lacks the table or a column. -/
theorem envelope_of_not_items (h : ∀ rows, d.database p ≠ .ok (.items rows)) :
    ∃ fault, d.envelope p = .error (.database fault) := by
  unfold Disk.envelope
  cases hd : d.database p with
  | error fault => exact ⟨fault, rfl⟩
  | ok database =>
    cases database with
    | withoutTable => exact ⟨.noTable, rfl⟩
    | withoutValues => exact ⟨.noColumn, rfl⟩
    | items rows => exact absurd hd (h rows)

/-! ## Faults -/

/-- The kinds of faults, one for each stage that may fail. -/
inductive FaultKind where
  | storeNotFound
  | database
  | noAuthStatus
  | envelope
  | missingBinaryField
  | base64
  deriving DecidableEq, Repr

/-- The stage that a fault comes from, without what the fault says of it. -/
def ExtractionFault.kind : ExtractionFault → FaultKind
  | .storeNotFound _ => .storeNotFound
  | .database _ => .database
  | .noAuthStatus => .noAuthStatus
  | .envelope _ _ => .envelope
  | .missingBinaryField => .missingBinaryField
  | .base64 _ => .base64

variable {fault : ExtractionFault}

/-- No encoded blob is found if the envelope is no JSON, or if it is JSON without the member. The
kind of the fault tells which. -/
theorem kind_of_encodedBlob_error (h : encodedBlob env = .error fault) :
    (fault.kind = .envelope ∧ ∀ v, ¬Writes env v)
    ∨ (fault.kind = .missingBinaryField
      ∧ ∃ v, Writes env v ∧ ∀ s, ¬LastMember v binaryField (.string s)) := by
  unfold encodedBlob at h
  cases hparse : Value.parse env with
  | error e =>
    rw [hparse] at h
    cases h
    refine .inl ⟨rfl, fun v hv => ?_⟩
    cases hparse.symm.trans (parse_ok_iff.mpr hv)
  | ok v =>
    rw [hparse] at h
    simp only [except_mapError_ok, bind, Except.bind] at h
    split at h
    next => cases h
    next hnone =>
      cases h
      refine .inr ⟨rfl, v, parse_ok_iff.mp hparse, fun s hs => ?_⟩
      cases hnone.symm.trans (textOf_eq_some_iff.mpr hs)

/-- A text that is found and cannot be decoded is no base64; there is nothing else to fail by then.
-/
theorem kind_of_decodedBlob_error (h : decodedBlob s = .error fault) : fault.kind = .base64 := by
  unfold decodedBlob at h
  simp only at h
  cases hdecode : Base64.decode (Bytes.ofText (String.ofList (Text.trim s.toList))) with
  | error e =>
    rw [hdecode] at h
    cases h
    rfl
  | ok bytes =>
    rw [hdecode] at h
    cases h

/-! ## What a store holds -/

/-- A store has an envelope: there is a file, it is a database, and its table holds it. -/
def HasEnvelope (d : Disk) (p : Path) (env : Bytes) : Prop :=
  (∃ content, d.file? p = some content)
    ∧ ∃ rows, d.database p = .ok (.items rows) ∧ Envelope rows env

/-- An envelope carries a byte string, whatever its other members and its blanks are. -/
def Carries (env bytes : Bytes) : Prop :=
  ∃ v s, Writes env v ∧ LastMember v binaryField (.string s) ∧ Encodes s bytes

/-- What a store holds: a byte string, or else what the first stage misses. Each case has what the
stages before it give, so only one of them can be so. -/
inductive Holds (d : Disk) (p : Path) : Except FaultKind Bytes → Prop where
  | noFile (h : d.file? p = none) : Holds d p (.error .storeNotFound)
  | noDatabase {content : Content} (hfile : d.file? p = some content)
      (h : ∀ rows, d.database p ≠ .ok (.items rows)) : Holds d p (.error .database)
  | noEnvelope {content : Content} {rows : List (String × Cell)} (hfile : d.file? p = some content)
      (hrows : d.database p = .ok (.items rows)) (h : ∀ env, ¬Envelope rows env) :
      Holds d p (.error .noAuthStatus)
  | noJson {env : Bytes} (henv : HasEnvelope d p env) (h : ∀ v, ¬Writes env v) :
      Holds d p (.error .envelope)
  | noField {env : Bytes} {v : Value} (henv : HasEnvelope d p env) (hv : Writes env v)
      (h : ∀ s, ¬LastMember v binaryField (.string s)) : Holds d p (.error .missingBinaryField)
  | noBase64 {env : Bytes} {v : Value} {s : String} (henv : HasEnvelope d p env)
      (hv : Writes env v) (hs : LastMember v binaryField (.string s))
      (h : ∀ bytes, ¬Encodes s bytes) : Holds d p (.error .base64)
  | blob {env bytes : Bytes} (henv : HasEnvelope d p env) (h : Carries env bytes) :
      Holds d p (.ok bytes)

/-- With a file the store is read in three stages, each of which may end it. -/
theorem extract_of_file {content : Content} (h : d.file? p = some content) :
    d.extract p = (do
      let env ← d.envelope p
      let encoded ← encodedBlob env
      decodedBlob encoded) := by
  unfold Disk.extract
  rw [h]

/-- With an envelope the first stage is done, and it remains what the envelope carries. -/
theorem extract_of_envelope (h : HasEnvelope d p env) :
    d.extract p = (encodedBlob env).bind decodedBlob := by
  obtain ⟨⟨content, hfile⟩, rows, hrows, henv⟩ := h
  rw [extract_of_file hfile]
  obtain ⟨other, henvelope, hother⟩ | ⟨_, hnone⟩ := envelope_of_items hrows
  · obtain rfl := henv.unique hother
    rw [henvelope]
    rfl
  · exact absurd henv (hnone env)

/-- A table without an envelope means that no status is stored. -/
theorem extract_of_no_envelope {content : Content} {rows : List (String × Cell)}
    (hfile : d.file? p = some content) (hrows : d.database p = .ok (.items rows))
    (h : ∀ env, ¬Envelope rows env) : d.extract p = .error .noAuthStatus := by
  rw [extract_of_file hfile]
  obtain ⟨env, _, henv⟩ | ⟨henvelope, _⟩ := envelope_of_items hrows
  · exact absurd henv (h env)
  · rw [henvelope]
    rfl

/-- A file that is no database with such a table is a fault of the database. -/
theorem extract_of_no_database {content : Content} (hfile : d.file? p = some content)
    (h : ∀ rows, d.database p ≠ .ok (.items rows)) :
    ∃ fault, d.extract p = .error (.database fault) := by
  obtain ⟨fault, henvelope⟩ := envelope_of_not_items h
  refine ⟨fault, ?_⟩
  rw [extract_of_file hfile, henvelope]
  rfl

/-- Without a file the fault names the path that was tried. -/
theorem extract_of_no_file (h : d.file? p = none) : d.extract p = .error (.storeNotFound p) := by
  unfold Disk.extract
  rw [h]

/-- A store holds what is read from it. The stages are gone through one after another, and each that
fails shows what the store misses. -/
theorem holds_extract (d : Disk) (p : Path) :
    Holds d p ((d.extract p).mapError ExtractionFault.kind) := by
  -- one stage after another, each with what it misses
  cases hfile : d.file? p with
  | none =>
    rw [extract_of_no_file hfile]
    exact .noFile hfile
  | some content =>
  by_cases hitems : ∃ rows, d.database p = .ok (.items rows)
  case neg =>
    have hnone : ∀ rows, d.database p ≠ .ok (.items rows) := fun rows h => hitems ⟨rows, h⟩
    obtain ⟨fault, hextract⟩ := extract_of_no_database hfile hnone
    rw [hextract]
    exact .noDatabase hfile hnone
  obtain ⟨rows, hrows⟩ := hitems
  obtain ⟨env, _, henv⟩ | ⟨_, hnone⟩ := envelope_of_items hrows
  case inr =>
    rw [extract_of_no_envelope hfile hrows hnone]
    exact .noEnvelope hfile hrows hnone
  have hhas : HasEnvelope d p env := ⟨⟨content, hfile⟩, rows, hrows, henv⟩
  rw [extract_of_envelope hhas]
  cases hencoded : encodedBlob env with
  | error fault =>
    show Holds d p (.error fault.kind)
    obtain ⟨hkind, hjson⟩ | ⟨hkind, v, hv, hfield⟩ := kind_of_encodedBlob_error hencoded
    · rw [hkind]
      exact .noJson hhas hjson
    · rw [hkind]
      exact .noField hhas hv hfield
  | ok s =>
    obtain ⟨v, hv, hs⟩ := encodedBlob_ok_iff.mp hencoded
    show Holds d p ((decodedBlob s).mapError ExtractionFault.kind)
    cases hdecoded : decodedBlob s with
    | error fault =>
      show Holds d p (.error fault.kind)
      rw [kind_of_decodedBlob_error hdecoded]
      refine .noBase64 hhas hv hs fun bytes hbytes => ?_
      cases hdecoded.symm.trans (decodedBlob_ok_iff.mpr hbytes)
    | ok bytes => exact .blob hhas ⟨v, s, hv, hs, decodedBlob_ok_iff.mp hdecoded⟩

/-- What is read from a store is what it holds, so it holds no more than one thing. One case for
each way to hold something. -/
theorem Holds.extract {r : Except FaultKind Bytes} (h : Holds d p r) :
    (d.extract p).mapError ExtractionFault.kind = r := by
  cases h with
  | noFile h => rw [extract_of_no_file h]; rfl
  | noDatabase hfile h =>
    obtain ⟨fault, hextract⟩ := extract_of_no_database hfile h
    rw [hextract]
    rfl
  | noEnvelope hfile hrows h => rw [extract_of_no_envelope hfile hrows h]; rfl
  | noJson henv h =>
    rw [extract_of_envelope henv]
    cases hencoded : encodedBlob _ with
    | error fault =>
      obtain ⟨hkind, _⟩ | ⟨_, v, hv, _⟩ := kind_of_encodedBlob_error hencoded
      · exact congrArg Except.error hkind
      · exact absurd hv (h v)
    | ok s =>
      obtain ⟨v, hv, _⟩ := encodedBlob_ok_iff.mp hencoded
      exact absurd hv (h v)
  | noField henv hv h =>
    rw [extract_of_envelope henv]
    cases hencoded : encodedBlob _ with
    | error fault =>
      obtain ⟨_, hjson⟩ | ⟨hkind, _⟩ := kind_of_encodedBlob_error hencoded
      · exact absurd hv (hjson _)
      · exact congrArg Except.error hkind
    | ok s =>
      obtain ⟨w, hw, hs⟩ := encodedBlob_ok_iff.mp hencoded
      -- an envelope is the text of one value only
      rw [hw.unique hv] at hs
      exact absurd hs (h s)
  | noBase64 henv hv hs h =>
    rw [extract_of_envelope henv, encodedBlob_ok_iff.mpr ⟨_, hv, hs⟩]
    show (decodedBlob _).mapError ExtractionFault.kind = _
    cases hdecoded : decodedBlob _ with
    | error fault => exact congrArg Except.error (kind_of_decodedBlob_error hdecoded)
    | ok bytes => exact absurd (decodedBlob_ok_iff.mp hdecoded) (h bytes)
  | blob henv h =>
    obtain ⟨v, s, hv, hs, hbytes⟩ := h
    rw [extract_of_envelope henv, encodedBlob_ok_iff.mpr ⟨_, hv, hs⟩]
    show (decodedBlob s).mapError ExtractionFault.kind = _
    rw [decodedBlob_ok_iff.mpr hbytes]
    rfl

/-! ## Envelopes -/

/-- The least envelope of a byte string. -/
def envelopeOf (bytes : Bytes) : Bytes :=
  0x7B :: 0x22 :: Bytes.ofText binaryField ++ [0x22, 0x3A, 0x22] ++ Base64.encode bytes
    ++ [0x22, 0x7D]

/-- Bytes that need no escape stand for themselves between quotes. -/
theorem quoted_plain {body : Bytes} (h : ∀ b ∈ body, b ≠ 0x22 ∧ b ≠ 0x5C ∧ ¬b < 0x20) :
    Quoted body body := by
  induction body with
  | nil => exact .nil
  | cons b rest ih =>
    obtain ⟨hquote, hslash, hcontrol⟩ := h b List.mem_cons_self
    exact .plain hquote hslash hcontrol (ih fun c hc => h c (List.mem_cons_of_mem b hc))

/-- Every byte string has a text that is it in base64. -/
theorem exists_text_encode (bytes : Bytes) : ∃ s, Bytes.ofText s = Base64.encode bytes :=
  ⟨_, Bytes.ofText_ascii fun _ hb => (Base64.plain_of_mem_encode hb).2.1⟩

/-- The least envelope of a byte string carries it. No byte of base64 needs an escape in JSON or is
a blank. -/
theorem carries_envelopeOf (bytes : Bytes) : Carries (envelopeOf bytes) bytes := by
  obtain ⟨s, hs⟩ := exists_text_encode bytes
  have hkey : WritesString (0x22 :: Bytes.ofText binaryField ++ [0x22]) binaryField :=
    ⟨_, quoted_plain (by decide +kernel), rfl⟩
  have hblob : WritesString (0x22 :: Base64.encode bytes ++ [0x22]) s := by
    refine ⟨Base64.encode bytes, ?_, rfl⟩
    rw [hs]
    refine quoted_plain fun b hb => ?_
    obtain ⟨hlow, _, hquote, hslash⟩ := Base64.plain_of_mem_encode hb
    refine ⟨hquote, hslash, ?_⟩
    rw [UInt8.lt_iff_toNat_lt]
    exact Nat.not_lt.mpr (Nat.le_of_lt hlow)
  have hnone : Blank [] := fun b hb => absurd hb List.not_mem_nil
  have hspells : Spells depthLimit _ (.value (.object [(binaryField, .string s)])) :=
    .object hnone (.lastMember hkey hnone hnone (.string hblob) hnone)
  refine ⟨.object [(binaryField, .string s)], s, ⟨[], _, [], hnone, hnone, hspells, ?_⟩,
    ⟨[], [], rfl, fun m hm => absurd hm List.not_mem_nil⟩, [], s.toList, [],
    fun c hc => absurd hc List.not_mem_nil, fun c hc => absurd hc List.not_mem_nil, ?_, ?_⟩
  · simp [envelopeOf]
  · rw [String.ofList_toList, hs]
  · simp

/-! ## The store -/

/-- Data are missing if there is no status in the table, or no blob in the status. Everything else
is more than that. -/
theorem isMissingData_iff :
    fault.isMissingData = true ↔ fault.kind = .noAuthStatus ∨ fault.kind = .missingBinaryField := by
  cases fault <;> simp [ExtractionFault.isMissingData, ExtractionFault.kind]

/-- What is read and what is held are the same, up to what a fault says of itself. -/
theorem holds_iff {r : Except FaultKind Bytes} :
    (d.extract p).mapError ExtractionFault.kind = r ↔ Holds d p r := by
  constructor
  · intro h
    rw [← h]
    exact holds_extract d p
  · exact Holds.extract

/-- A store holds a byte string exactly if it has an envelope that carries it. -/
theorem holds_ok_iff :
    Holds d p (.ok bytes) ↔ ∃ env, HasEnvelope d p env ∧ Carries env bytes := by
  constructor
  · intro h
    cases h with
    | blob henv h => exact ⟨_, henv, h⟩
  · rintro ⟨env, henv, h⟩
    exact .blob henv h

/-- **Reading a store is exact.** What is read is what the store holds, and the first stage that
misses something tells the kind of the fault. A byte string is read exactly from an envelope that
carries it, and every byte string has one; no data are missing but an envelope or its member. A file
at a plain path is itself the database that is read, if it can be opened at all. -/
theorem extract_exact (d : Disk) (p : Path) :
    (∀ r, (d.extract p).mapError ExtractionFault.kind = r ↔ Holds d p r)
      ∧ (∀ bytes, d.extract p = .ok bytes ↔ ∃ env, HasEnvelope d p env ∧ Carries env bytes)
      ∧ (∀ bytes, Carries (envelopeOf bytes) bytes)
      ∧ (∀ fault, d.extract p = .error fault →
        (fault.isMissingData = true ↔
          Holds d p (.error .noAuthStatus) ∨ Holds d p (.error .missingBinaryField)))
      ∧ (∀ content, Disk.IsPlain p → d.file? p = some content →
        d.database p = content.database? ∨ d.database p = .error (.cannotOpen p)) := by
  refine ⟨fun r => holds_iff, fun bytes => ?_, carries_envelopeOf, fun fault hfault => ?_,
    fun content hp hfile => Disk.database_of_file hp hfile⟩
  · rw [← holds_ok_iff, ← holds_iff, except_mapError_ok_iff]
  · rw [isMissingData_iff, ← holds_iff, ← holds_iff, hfault]
    simp

/-- A store with a table of these rows. -/
def storeOf (rows : List (String × Cell)) : Disk :=
  Disk.put ⟨[], .root⟩ (.ofNames ["state.vscdb"]) (.file (.database (.items rows)))

theorem file?_storeOf (rows : List (String × Cell)) :
    (storeOf rows).file? ⟨"state.vscdb"⟩ = some (.database (.items rows)) := by rfl

theorem database_storeOf (rows : List (String × Cell)) :
    (storeOf rows).database ⟨"state.vscdb"⟩ = .ok (.items rows) := by rfl

/-- Two bytes are read from a store that holds their envelope, and from a store with an empty table
nothing is, for want of data. -/
theorem extract_exact_sample :
    let p : Path := ⟨"state.vscdb"⟩
    let full := storeOf [(authStatusKey, .blob (envelopeOf [0x61, 0x62]))]
    let bare := storeOf []
    full.extract p = .ok [0x61, 0x62]
      ∧ bare.extract p = .error .noAuthStatus
      ∧ (ExtractionFault.noAuthStatus.isMissingData = true ↔
        Holds bare p (.error .noAuthStatus) ∨ Holds bare p (.error .missingBinaryField))
      ∧ (bare.database p = .ok (.items []) ∨ bare.database p = .error (.cannotOpen p)) := by
  intro p full bare
  have henv : HasEnvelope full p (envelopeOf [0x61, 0x62]) :=
    ⟨⟨_, file?_storeOf _⟩, _, database_storeOf _, List.cons_ne_nil _ _, .inr ⟨[], [], rfl, by simp⟩⟩
  have hnone : ∀ env, ¬Envelope [] env := by
    rintro env ⟨_, ⟨front, back, hrow, _⟩ | ⟨front, back, hrow, _⟩⟩
    · cases front <;> cases hrow
    · cases front <;> cases hrow
  have hbare : bare.extract p = .error .noAuthStatus :=
    extract_of_no_envelope (file?_storeOf []) (database_storeOf []) hnone
  have hplain : Disk.IsPlain p := ⟨by decide +kernel, by decide⟩
  obtain ⟨_, hread, hcarries, _, _⟩ := extract_exact full p
  obtain ⟨_, _, _, hmissing, hdatabase⟩ := extract_exact bare p
  exact ⟨(hread _).mpr ⟨_, henv, hcarries _⟩, hbare, hmissing _ hbare,
    hdatabase _ hplain (file?_storeOf [])⟩

end QuotaWatch
