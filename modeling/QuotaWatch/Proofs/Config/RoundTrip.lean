import QuotaWatch.Config.Setup
import QuotaWatch.Proofs.Except
import QuotaWatch.Proofs.Toml.Document
import QuotaWatch.Proofs.Toml.Table

/-!
# A configuration file read back

A file has no word for an absent value: `Config.members` leaves it out, and what is left out keeps
its standard value when the file is read. For the paths that value is absence; for the assumed limit
it is 1000.

* **`ofFile_roundTrip`**: a valid configuration is read back from its file as it was, but for an
  absent limit, which is read as the standard one.
-/

namespace QuotaWatch

open Toml

/-! ## The table of a configuration -/

def memberIfPresent {α : Type} (key : String) (value : α → Value) : Option α → Members
  | some a => [(key, value a)]
  | none => []

def countValue (n : UInt64) : Value := .integer n.toNat

def Thresholds.members (t : Thresholds) : Members :=
  [("green_floor", countValue t.greenFloor), ("yellow_floor", countValue t.yellowFloor)]

def ScanSettings.members (s : ScanSettings) : Members :=
  [("window", countValue s.window),
   ("marker", .array false (s.marker.map fun b => countValue b.toUInt64)),
   ("max_varint_bytes", countValue s.maxVarintBytes)]
    ++ memberIfPresent "assumed_limit" countValue s.assumedLimit
    ++ [("units", .string s.units), ("prefer_length_prefixed", .boolean s.preferLengthPrefixed)]

def Config.rootMembers (c : Config) : Members :=
  [("refresh_interval_ms", countValue c.refreshIntervalMs),
   ("log_interval_ms", countValue c.logIntervalMs)]
    ++ memberIfPresent "store_path" (fun p : Path => .string p.text) c.storePath
    ++ memberIfPresent "ledger_path" (fun p : Path => .string p.text) c.ledgerPath
    ++ [("high_tier_model", .string c.highTierModel), ("system_label", .string c.systemLabel),
        ("catalog", .array false (c.catalog.map Value.string))]

def Config.sections (c : Config) : List Section :=
  [("thresholds", c.thresholds.members), ("scan", c.scan.members)]

/-- The table that a file of a configuration writes. Absent values are left out. -/
def Config.members (c : Config) : Members := c.rootMembers ++ c.sections.map sectionMember

/-- A configuration whose numbers a file can hold. -/
structure Config.Fits (c : Config) : Prop where
  refreshIntervalMs : c.refreshIntervalMs.toNat ≤ greatest
  logIntervalMs : c.logIntervalMs.toNat ≤ greatest
  greenFloor : c.thresholds.greenFloor.toNat ≤ greatest
  yellowFloor : c.thresholds.yellowFloor.toNat ≤ greatest
  window : c.scan.window.toNat ≤ greatest
  maxVarintBytes : c.scan.maxVarintBytes.toNat ≤ greatest
  assumedLimit : ∀ limit ∈ c.scan.assumedLimit, limit.toNat ≤ greatest

/-! ## The file is a document of that table -/

variable {rest : List Char} {statements : List Statement}

/-- A line that is left out gives no member, and one that is written gives its own. -/
theorem document_optionalLine {α : Type} {key : String} {write : α → List Char}
    {value : α → Value} {o : Option α} (h : Document rest statements) (hkey : IsBareKey key)
    (hwrites : ∀ a ∈ o, Writes (write a) (value a)) :
    Document (optionalLine key write o ++ rest)
      (pairStatements (memberIfPresent key value o) ++ statements) := by
  cases o with
  | none => exact h
  | some a => exact h.pairLine hkey (hwrites a rfl)

theorem writes_count {n : UInt64} (hn : n.toNat ≤ greatest) : Writes (countText n) (countValue n) :=
  (writesScalar_count hn).writes

/-- The bytes of a marker are written as numbers. Every byte is one that a file can hold. -/
theorem writes_marker (marker : Bytes) :
    Writes (arrayText (marker.map fun b => countText b.toUInt64))
      (.array false (marker.map fun b => countValue b.toUInt64)) := by
  refine writes_array_map fun b _ => writesScalar_count ?_
  have hlt := b.toNat_lt
  rw [UInt8.toNat_toUInt64, greatest]
  omega

/-- The names of a catalog are written as strings, whatever characters they have. -/
theorem writes_catalog (catalog : List String) :
    Writes (arrayText (catalog.map stringText)) (.array false (catalog.map Value.string)) :=
  writes_array_map fun name _ => writesScalar_string name

/-- The table of the thresholds, in front of what the document goes on with. -/
theorem document_thresholds {t : Thresholds} (h : Document rest statements)
    (hgreen : t.greenFloor.toNat ≤ greatest) (hyellow : t.yellowFloor.toNat ≤ greatest) :
    Document (t.fileText ++ rest) (sectionStatements ("thresholds", t.members) ++ statements) := by
  have hyellowLine := h.pairLine (show IsBareKey "yellow_floor" by decide) (writes_count hyellow)
  have hgreenLine :=
    hyellowLine.pairLine (show IsBareKey "green_floor" by decide) (writes_count hgreen)
  simp only [Thresholds.fileText, List.append_assoc]
  exact hgreenLine.headerLines (by decide)

/-- The table of the scan, with the limit only if there is one. -/
theorem document_scan {s : ScanSettings} (h : Document rest statements)
    (hwindow : s.window.toNat ≤ greatest) (hmax : s.maxVarintBytes.toNat ≤ greatest)
    (hlimit : ∀ limit ∈ s.assumedLimit, limit.toNat ≤ greatest) :
    Document (s.fileText ++ rest) (sectionStatements ("scan", s.members) ++ statements) := by
  -- from the last line up to the header
  have hprefer := h.pairLine (show IsBareKey "prefer_length_prefixed" by decide)
    (writesScalar_flag s.preferLengthPrefixed).writes
  have hunits := hprefer.pairLine (show IsBareKey "units" by decide)
    (writesScalar_string s.units).writes
  have hassumed := document_optionalLine hunits (show IsBareKey "assumed_limit" by decide)
    fun limit hmem => writes_count (hlimit limit hmem)
  have hbytes := hassumed.pairLine (show IsBareKey "max_varint_bytes" by decide)
    (writes_count hmax)
  have hmarker := hbytes.pairLine (show IsBareKey "marker" by decide) (writes_marker s.marker)
  have hfirst := hmarker.pairLine (show IsBareKey "window" by decide) (writes_count hwindow)
  simp only [ScanSettings.fileText, List.append_assoc]
  have hall := hfirst.headerLines (show IsBareKey "scan" by decide)
  simpa [sectionStatements, ScanSettings.members, pairStatements] using hall

/-- The file of a configuration is a document: the lines at the top, and the two tables behind them.
A document is built from its end, so that each line is put in front of one that is known already. -/
theorem document_fileText {c : Config} (hfits : c.Fits) :
    Document c.fileText.toList
      (pairStatements c.rootMembers ++ c.sections.flatMap sectionStatements) := by
  -- a document grows at its front, so its last line comes first
  have hscan := document_scan document_nil hfits.window hfits.maxVarintBytes hfits.assumedLimit
  have hthresholds := document_thresholds hscan hfits.greenFloor hfits.yellowFloor
  have hcatalog := hthresholds.pairLine (show IsBareKey "catalog" by decide)
    (writes_catalog c.catalog)
  have hlabel := hcatalog.pairLine (show IsBareKey "system_label" by decide)
    (writesScalar_string c.systemLabel).writes
  have hmodel := hlabel.pairLine (show IsBareKey "high_tier_model" by decide)
    (writesScalar_string c.highTierModel).writes
  have hledger := document_optionalLine hmodel (show IsBareKey "ledger_path" by decide)
    fun (p : Path) (_ : p ∈ c.ledgerPath) => (writesScalar_string p.text).writes
  have hstore := document_optionalLine hledger (show IsBareKey "store_path" by decide)
    fun (p : Path) (_ : p ∈ c.storePath) => (writesScalar_string p.text).writes
  have hlog := hstore.pairLine (show IsBareKey "log_interval_ms" by decide)
    (writes_count hfits.logIntervalMs)
  have hall := hlog.pairLine (show IsBareKey "refresh_interval_ms" by decide)
    (writes_count hfits.refreshIntervalMs)
  rw [Config.fileText, String.toList_ofList]
  simpa [Config.sections, Config.rootMembers, pairStatements] using hall

/-- No key stands twice at the top of a file, the names of the two tables included. -/
theorem nodup_members (c : Config) :
    (keysOf (c.rootMembers ++ c.sections.map sectionMember)).Nodup := by
  cases hstore : c.storePath <;> cases hledger : c.ledgerPath <;>
    simp [keysOf, Config.rootMembers, Config.sections, sectionMember, memberIfPresent, hstore,
      hledger]

/-- No key stands twice in a table of a file. -/
theorem nodup_sections (c : Config) : ∀ s ∈ c.sections, (keysOf s.2).Nodup := by
  intro s hs
  simp only [Config.sections, List.mem_cons, List.not_mem_nil, or_false] at hs
  rcases hs with rfl | rfl
  · simp [keysOf, Thresholds.members]
  · cases hlimit : c.scan.assumedLimit <;>
      simp [keysOf, ScanSettings.members, memberIfPresent, hlimit]

/-- **The file of a configuration writes its table.** It does not begin with a byte order mark,
which the reader would take away, and no key stands in it twice. -/
theorem parse_fileText {c : Config} (hfits : c.Fits) : Toml.parse c.fileText = some c.members := by
  have hmark : c.fileText.toList.head? ≠ some '\uFEFF' := by
    have hfirst : c.fileText.toList.head? = some 'r' := by
      rw [Config.fileText, String.toList_ofList]
      rfl
    rw [hfirst]
    decide
  have hread := (document_fileText hfits).parse hmark
  rw [String.ofList_toList, ofStatements_sections (nodup_members c) (nodup_sections c)] at hread
  exact hread

/-! ## The table is read as the configuration -/

theorem map_ok {ε α β : Type} (f : α → β) (a : α) :
    (Except.ok a : Except ε α).map f = .ok (f a) := by
  -- not by `rfl`: a step by definition would leave the kernel to run the readers of a whole table
  simp only [Except.map]

theorem ok_bind {ε α β : Type} (a : α) (f : α → Except ε β) : (Except.ok a >>= f) = f a := by
  simp only [bind, Except.bind]

/-- An integer within bounds is read as itself. -/
theorem natural_integer {expected : String} {n size : Nat} (h : n < size) :
    (Value.integer n).natural expected size = .ok n := by
  have hrange : (0 ≤ (n : Int) && (n : Int) < (size : Int)) = true := by
    rw [Bool.and_eq_true, decide_eq_true_iff, decide_eq_true_iff]
    omega
  rw [Value.natural, if_pos hrange]
  rfl

@[simp] theorem count_countValue (n : UInt64) : (countValue n).count = .ok n := by
  rw [Value.count, countValue, natural_integer n.toNat_lt_size, Except.map, UInt64.ofNat_toNat]

@[simp] theorem extent_countValue (n : UInt64) : (countValue n).extent = .ok n := by
  rw [Value.extent, countValue, natural_integer n.toNat_lt_size, Except.map, UInt64.ofNat_toNat]

@[simp] theorem byte_countValue (b : UInt8) : (countValue b.toUInt64).byte = .ok b := by
  rw [Value.byte, countValue, UInt8.toNat_toUInt64, natural_integer b.toNat_lt_size, Except.map,
    UInt8.ofNat_toNat]

/-- An array of values that are read one by one is read as the list that they were written from. -/
theorem list_map {α : Type} {read : Reader α} {value : α → Value}
    (hread : ∀ a, read (value a) = .ok a) (items : List α) :
    Value.list read (.array false (items.map value)) = .ok items := by
  have hitems : (fun a => read (value a)) = (fun a => pure a : α → Except Mismatch α) :=
    funext hread
  rw [Value.list, List.mapM_map]
  show List.mapM (fun a => read (value a)) items = _
  rw [hitems, List.mapM_pure, List.map_id']
  rfl

/-- The table of thresholds is read as these thresholds. The order of the floors, which reading asks
for, is a part of them. -/
theorem thresholds_ofToml (t : Thresholds) (style : Style) :
    Thresholds.ofToml (.table style t.members) = .ok t := by
  have hfloors : Thresholds.make t.greenFloor t.yellowFloor = .ok t := by
    rw [Thresholds.make, dif_pos t.yellow_lt_green]
  simp only [Thresholds.ofToml, Value.settings, ok_bind, Thresholds.members, List.foldlM_cons,
    List.foldlM_nil, Floors.set, count_countValue, map_ok, pure_bind, hfloors]
  rfl

/-- The settings of a scan as a file gives them: an absent limit is the standard one. -/
def ScanSettings.withLimit (s : ScanSettings) : ScanSettings :=
  { s with assumedLimit := s.assumedLimit.or ScanSettings.standard.assumedLimit }

/-- The table of a scan is read as its settings, with the standard limit where there was none. -/
theorem scan_ofToml (s : ScanSettings) (style : Style) :
    ScanSettings.ofToml (.table style s.members) = .ok s.withLimit := by
  have hmarker : Value.list Value.byte (.array false (s.marker.map fun b => countValue b.toUInt64))
      = .ok s.marker := list_map byte_countValue s.marker
  have hunits : (Value.string s.units).text = .ok s.units := rfl
  have hprefer : (Value.boolean s.preferLengthPrefixed).flag = .ok s.preferLengthPrefixed := rfl
  -- with a limit the table has one member more
  cases hlimit : s.assumedLimit <;>
    simp only [ScanSettings.ofToml, Value.settings, ScanSettings.members, memberIfPresent, hlimit,
      List.append_nil, List.cons_append, List.nil_append, List.foldlM_cons, List.foldlM_nil,
      ScanSettings.set, extent_countValue, count_countValue, hmarker, hunits, hprefer, map_ok,
      ok_bind]
  all_goals
    simp [ScanSettings.withLimit, hlimit]
    rfl

def Config.withLimit (c : Config) : Config := { c with scan := c.scan.withLimit }

/-- **The table of a configuration is read as that configuration**, with a limit. -/
theorem ofMembers_members (c : Config) : Config.ofMembers c.members = .ok c.withLimit := by
  have htext : ∀ t, (Value.string t).text = .ok t := fun t => rfl
  have hcatalog : Value.list Value.text (.array false (c.catalog.map Value.string))
      = .ok c.catalog := list_map htext c.catalog
  have hpath : ∀ p : Path, Path.ofToml (.string p.text) = .ok p := fun p => rfl
  -- the two paths may be left out, each for itself
  cases hstore : c.storePath <;> cases hledger : c.ledgerPath <;>
    simp only [Config.ofMembers, Config.members, Config.rootMembers, Config.sections,
      memberIfPresent, hstore, hledger, sectionMember, List.map_cons, List.map_nil, List.append_nil,
      List.cons_append, List.nil_append, List.foldlM_cons, List.foldlM_nil, Config.set,
      count_countValue, hcatalog, htext, hpath, thresholds_ofToml, scan_ofToml, map_ok, ok_bind]
  all_goals
    simp [Config.withLimit, hstore, hledger, Config.standard]
    rfl

/-- A text is accepted as a configuration if it is a document whose members give a valid one. The
path only names the file in a fault. -/
theorem Config.ofFile_ok_iff {path : Path} {text : String} {c : Config} :
    Config.ofFile path text = .ok c ↔
      ∃ members, Toml.parse text = some members ∧ Config.ofMembers members = .ok c
        ∧ c.validate = .ok () := by
  simp only [Config.ofFile, except_bind_ok_iff, except_mapError_ok_iff, Config.parse]
  constructor
  · rintro ⟨read, hread, _, hvalid, ⟨⟩⟩
    split at hread
    · cases hread
    next members hparse =>
      exact ⟨members, hparse, except_mapError_ok_iff.mp hread, hvalid⟩
  · rintro ⟨members, hparse, hread, hvalid⟩
    refine ⟨c, ?_, (), hvalid, rfl⟩
    simp only [hparse, hread, except_mapError_ok]

/-- Whatever text writes the table of a valid configuration is read as that configuration. -/
theorem ofFile_of_members {c : Config} {path : Path} {text : String}
    (hvalid : c.validate = .ok ()) (htext : Toml.parse text = some c.members) :
    Config.ofFile path text = .ok c.withLimit :=
  Config.ofFile_ok_iff.mpr ⟨c.members, htext, ofMembers_members c, hvalid⟩

/-- Only a configuration without a limit is changed by putting the standard one in. -/
theorem withLimit_eq_iff (c : Config) : c.withLimit = c ↔ c.scan.assumedLimit ≠ none := by
  constructor
  · intro heq hnone
    have hlimit := congrArg (fun c : Config => c.scan.assumedLimit) heq
    simp [Config.withLimit, ScanSettings.withLimit, hnone, ScanSettings.standard] at hlimit
  · intro hsome
    obtain ⟨limit, hlimit⟩ := Option.ne_none_iff_exists'.mp hsome
    -- a limit that is given is kept
    have hsame :
        c.scan.assumedLimit.or ScanSettings.standard.assumedLimit = c.scan.assumedLimit := by
      rw [hlimit]
      rfl
    rw [Config.withLimit, ScanSettings.withLimit, hsame]

/-- **A configuration survives its file**, but for an absent limit: the file leaves it out, and what
is left out is read as the standard limit. -/
theorem ofFile_roundTrip (c : Config) (path : Path) (hvalid : c.validate = .ok ())
    (hfits : c.Fits) :
    Toml.parse c.fileText = some c.members
      ∧ (∀ text, Toml.parse text = some c.members → Config.ofFile path text = .ok
          { c with scan := { c.scan with
              assumedLimit := c.scan.assumedLimit.or ScanSettings.standard.assumedLimit } })
      ∧ (Config.ofFile path c.fileText = .ok c ↔ c.scan.assumedLimit ≠ none) := by
  have hread : Config.ofFile path c.fileText = .ok c.withLimit :=
    ofFile_of_members hvalid (parse_fileText hfits)
  refine ⟨parse_fileText hfits, fun text htext => ofFile_of_members hvalid htext, ?_⟩
  -- a configuration with its limit put in is the same just if it had one
  rw [hread, Except.ok.injEq]
  exact withLimit_eq_iff c

theorem fits_standard : Config.standard.Fits := by
  constructor
  case assumedLimit =>
    rintro _ ⟨⟩
    decide
  all_goals decide

/-- The standard configuration is read back from its own file. -/
theorem ofFile_roundTrip_standard :
    Config.standard.validate = .ok () ∧ Config.standard.Fits
      ∧ Config.ofFile ⟨"config.toml"⟩ Config.standard.fileText = .ok Config.standard := by
  have hvalid : Config.standard.validate = .ok () := by decide
  have hfile := ofFile_roundTrip Config.standard ⟨"config.toml"⟩ hvalid fits_standard
  exact ⟨hvalid, fits_standard, hfile.2.2.mpr (by decide)⟩

/-- A configuration without a limit. -/
def Config.unlimited : Config :=
  { Config.standard with scan := { ScanSettings.standard with assumedLimit := none } }

/-- **An absent limit does not survive**: no text with the table of such a configuration is read as
it, because the table is the same as one with the standard limit left out. -/
theorem not_ofFile_roundTrip_unlimited :
    ¬∀ (c : Config) (path : Path), c.validate = .ok () → c.Fits →
      ∀ text, Toml.parse text = some c.members → Config.ofFile path text = .ok c := by
  intro hall
  have hvalid : Config.unlimited.validate = .ok () := by decide
  have hfits : Config.unlimited.Fits := by
    constructor
    case assumedLimit => rintro _ ⟨⟩
    all_goals decide
  have hfile := parse_fileText hfits
  have hsame := hall Config.unlimited ⟨"config.toml"⟩ hvalid hfits _ hfile
  rw [ofFile_of_members hvalid hfile, Except.ok.injEq] at hsame
  exact (withLimit_eq_iff _).mp hsame rfl

end QuotaWatch
