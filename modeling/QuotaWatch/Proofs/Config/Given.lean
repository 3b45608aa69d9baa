import Mathlib.Data.List.Induction
import QuotaWatch.Proofs.Config.RoundTrip

/-!
# What a configuration file gives

A configuration is read key by key, on top of the standard one. So each setting is what the file
gives under its key, or the standard one if the file does not have the key (`Gives`), and nothing
else in the file has a say in it.

* **`givenBy_of_ofMembers`**: a configuration that is read is given by the members of its document,
  setting by setting, with the floors of its thresholds and the settings of its scan.
-/

namespace QuotaWatch

open Toml

variable {α σ : Type} {members : Members} {key k : String} {v : Value}

/-! ## Values that are read -/

/-- What is read as a number is an integer of the document within bounds, and nothing else. TOML has
no other numbers that would do: a float is refused, and so is a text. -/
theorem natural_ok_iff {expected : String} {n size : Nat} :
    v.natural expected size = .ok n ↔ n < size ∧ v = .integer n := by
  constructor
  · intro h
    unfold Value.natural at h
    split at h
    next i =>
      split at h
      -- a number below zero or above the size is refused
      next hrange =>
        cases h
        rw [Bool.and_eq_true, decide_eq_true_iff, decide_eq_true_iff] at hrange
        exact ⟨by omega, by rw [Int.toNat_of_nonneg hrange.1]⟩
      next => cases h
    next => cases h
  · rintro ⟨hlt, rfl⟩
    exact natural_integer hlt

/-- Counts and extents are read alike. They only differ in what a refusal says. -/
theorem natural_map_ok_iff {expected : String} {n : UInt64} :
    (v.natural expected UInt64.size).map UInt64.ofNat = .ok n ↔ v = countValue n := by
  rw [except_map_ok_iff]
  constructor
  · rintro ⟨m, hread, rfl⟩
    obtain ⟨hlt, rfl⟩ := natural_ok_iff.mp hread
    rw [countValue, UInt64.toNat_ofNat_of_lt' hlt]
  · rintro rfl
    exact ⟨n.toNat, natural_integer n.toNat_lt_size, UInt64.ofNat_toNat⟩

theorem count_ok_iff {n : UInt64} : v.count = .ok n ↔ v = countValue n := natural_map_ok_iff

theorem extent_ok_iff {n : UInt64} : v.extent = .ok n ↔ v = countValue n := natural_map_ok_iff

/-- A byte is read from a number below 256. -/
theorem byte_ok_iff {b : UInt8} : v.byte = .ok b ↔ v = countValue b.toUInt64 := by
  refine ⟨fun h => ?_, by rintro rfl; exact byte_countValue b⟩
  obtain ⟨m, hread, rfl⟩ := except_map_ok_iff.mp h
  obtain ⟨hlt, rfl⟩ := natural_ok_iff.mp hread
  rw [countValue, UInt8.toNat_toUInt64, UInt8.toNat_ofNat_of_lt' hlt]

theorem textAs_ok_iff {expected t : String} : v.textAs expected = .ok t ↔ v = .string t := by
  cases v <;> simp [Value.textAs, Value.unlike]

theorem flag_ok_iff {b : Bool} : v.flag = .ok b ↔ v = .boolean b := by
  cases v <;> simp [Value.flag, Value.unlike]

/-- A path is its text. -/
theorem path_ok_iff {p : Path} : Path.ofToml v = .ok p ↔ v = .string p.text := by
  rw [Path.ofToml, except_map_ok_iff]
  constructor
  · rintro ⟨t, hread, rfl⟩
    exact textAs_ok_iff.mp hread
  · rintro rfl
    exact ⟨p.text, rfl, rfl⟩

/-- An array of values of one kind. -/
def IsArray (value : α → Value) (items : List α) (v : Value) : Prop :=
  ∃ grows, v = .array grows (items.map value)

/-- Values are read one by one, so a list is read from the values of its items. Any reader will do
that is known exactly. -/
theorem mapM_ok_iff {read : Reader α} {value : α → Value}
    (hread : ∀ {v a}, read v = .ok a ↔ v = value a) {vs : List Value} {items : List α} :
    vs.mapM read = .ok items ↔ vs = items.map value := by
  induction vs generalizing items with
  | nil => cases items <;> simp [pure, Except.pure]
  | cons v vs ih =>
    rw [List.mapM_cons, except_bind_ok_iff]
    simp only [except_bind_ok_iff, hread, ih]
    cases items with
    | nil => simp [pure, Except.pure]
    | cons item items => simp [pure, Except.pure]

/-- A list is read from an array, whether the document allows that array to grow or not. -/
theorem list_ok_iff {read : Reader α} {value : α → Value}
    (hread : ∀ {v a}, read v = .ok a ↔ v = value a) {items : List α} :
    v.list read = .ok items ↔ IsArray value items v := by
  unfold IsArray
  cases v with
  | array grows vs => simp [Value.list, mapM_ok_iff hread]
  | _ => simp [Value.list, Value.unlike]

/-! ## Settings given by members -/

/-- The value that members give under a key: the last one, should there be more. -/
def Toml.Members.last? (members : Members) (key : String) : Option Value :=
  Members.get? members.reverse key

/-- The last member counts if it has the key. -/
theorem last?_concat_self : Members.last? (members ++ [(key, v)]) key = some v := by
  simp [Members.last?, Members.get?]

/-- A member of another key makes no difference. -/
theorem last?_concat_of_ne (h : k ≠ key) :
    Members.last? (members ++ [(k, v)]) key = Members.last? members key := by
  simp [Members.last?, Members.get?, h]

/-- A setting is what members give under its key, or else the standard one. `Is` says what a value
has to be for a setting. -/
inductive Gives (members : Members) (key : String) (Is : α → Value → Prop) (standard a : α) : Prop
  | absent (h : members.last? key = none) (hsame : a = standard)
  | present {v : Value} (h : members.last? key = some v) (his : Is a v)

/-- Values that are taken one by one decide a field by one key alone. -/
structure DecidedBy (set : σ → String → Value → Except Mismatch σ) (key : String)
    (Is : α → Value → Prop) (field : σ → α) : Prop where
  own : ∀ {s s' v}, set s key v = .ok s' → Is (field s') v
  other : ∀ {s s' k v}, k ≠ key → set s k v = .ok s' → field s' = field s

/-- **A field is what its key gives**, or what it was before. Induction from the end: the last
member counts if it has the key, and otherwise the field is what the members before it made of it.
-/
theorem DecidedBy.gives {set : σ → String → Value → Except Mismatch σ} {Is : α → Value → Prop}
    {field : σ → α} (h : DecidedBy set key Is field) {start s : σ}
    (hread : members.foldlM (fun s (key, v) => set s key v) start = .ok s) :
    Gives members key Is (field start) (field s) := by
  induction members using List.reverseRecOn generalizing s with
  | nil =>
    cases hread
    exact .absent rfl rfl
  | append_singleton init last ih =>
    obtain ⟨k, v⟩ := last
    rw [List.foldlM_append] at hread
    obtain ⟨before, hinit, hlast⟩ := except_bind_ok_iff.mp hread
    have hset : set before k v = .ok s := by simpa using hlast
    -- what a member of the key sets is final, for it is the last one read
    by_cases hk : k = key
    · subst hk
      exact .present last?_concat_self (h.own hset)
    · rw [h.other hk hset]
      cases ih hinit with
      | absent hnone hsame => exact .absent (by rwa [last?_concat_of_ne hk]) hsame
      | present hsome his => exact .present (by rwa [last?_concat_of_ne hk]) his

def IsCount (n : UInt64) (v : Value) : Prop := v = countValue n

def IsText (t : String) (v : Value) : Prop := v = .string t

def IsFlag (b : Bool) (v : Value) : Prop := v = .boolean b

/-- A value for what may be absent is one for something that is there. -/
def IsSome (Is : α → Value → Prop) (o : Option α) (v : Value) : Prop := ∃ a, o = some a ∧ Is a v

/-- A field that begins absent and is there in the end was given. -/
theorem Gives.some_of_none {Is : α → Value → Prop} {a : α}
    (h : Gives members key (IsSome Is) none (some a)) :
    ∃ v, members.last? key = some v ∧ Is a v := by
  cases h with
  | absent _ hsame => cases hsame
  | present hsome his =>
    obtain ⟨_, heq, his⟩ := his
    cases heq
    exact ⟨_, hsome, his⟩

/-! ## Thresholds -/

/-- Both floors of thresholds are in their settings. -/
def Thresholds.IsGiven (t : Thresholds) (v : Value) : Prop :=
  ∃ settings, v.settings "struct RawThresholds" Thresholds.keys = .ok settings
    ∧ settings.last? "green_floor" = some (countValue t.greenFloor)
    ∧ settings.last? "yellow_floor" = some (countValue t.yellowFloor)

/-- What a setting does to floors. -/
inductive Floors.Setting (f : Floors) (key : String) (v : Value) : Floors → Prop
  | green {n} (hkey : key = "green_floor") (h : IsCount n v) :
      Setting f key v { f with green := some n }
  | yellow {n} (hkey : key = "yellow_floor") (h : IsCount n v) :
      Setting f key v { f with yellow := some n }
  | unknown (hkey : key ∉ Thresholds.keys) : Setting f key v f

/-- What a setting does to floors, read off the code once. All that follows goes by these cases. -/
theorem Floors.set_ok {f f' : Floors} (h : f.set key v = .ok f') : f.Setting key v f' := by
  unfold Floors.set at h
  split at h
  · obtain ⟨n, hread, rfl⟩ := except_map_ok_iff.mp h
    exact .green rfl (count_ok_iff.mp hread)
  · obtain ⟨n, hread, rfl⟩ := except_map_ok_iff.mp h
    exact .yellow rfl (count_ok_iff.mp hread)
  next hgreen hyellow =>
    cases h
    exact .unknown (by simpa [Thresholds.keys] using ⟨hgreen, hyellow⟩)

/-- The floors of a table are those that it gives. -/
structure Floors.GivenBy (settings : Members) (f : Floors) : Prop where
  green : Gives settings "green_floor" (IsSome IsCount) ({} : Floors).green f.green
  yellow : Gives settings "yellow_floor" (IsSome IsCount) ({} : Floors).yellow f.yellow

/-- Floors are what a table gives under their two keys. -/
theorem Floors.givenBy_of_foldlM {settings : Members} {f : Floors}
    (h : settings.foldlM (fun f (key, v) => f.set key v) ({} : Floors) = .ok f) :
    f.GivenBy settings := by
  constructor
  all_goals
    refine DecidedBy.gives ⟨fun hset => ?_, fun hne hset => ?_⟩ h
    · cases set_ok hset <;> simp_all [IsSome, Thresholds.keys]
    · cases set_ok hset <;> simp_all

/-- Thresholds that are read have both of their floors in the table: there is no standard floor to
stand in for a missing one. -/
theorem Thresholds.isGiven_of_ofToml {t : Thresholds} (h : Thresholds.ofToml v = .ok t) :
    t.IsGiven v := by
  rw [Thresholds.ofToml, except_bind_ok_iff] at h
  obtain ⟨settings, hsettings, h⟩ := h
  rw [except_bind_ok_iff] at h
  obtain ⟨floors, hread, h⟩ := h
  obtain ⟨hgreen, hyellow⟩ := Floors.givenBy_of_foldlM hread
  split at h
  -- both floors have been read, and in the right order
  next green yellow hgreen' hyellow' =>
    rw [except_mapError_ok_iff, Thresholds.make] at h
    split at h
    next =>
      cases h
      rw [hgreen'] at hgreen
      rw [hyellow'] at hyellow
      -- a floor that was none at first can only come from a member
      obtain ⟨_, hsome, rfl⟩ := hgreen.some_of_none
      obtain ⟨_, hsome', rfl⟩ := hyellow.some_of_none
      exact ⟨settings, hsettings, hsome, hsome'⟩
    next => cases h
  all_goals cases h

/-! ## Scan settings -/

/-- The settings of a scan are those of a table, or the standard ones. -/
structure ScanSettings.GivenBy (settings : Members) (s : ScanSettings) : Prop where
  window : Gives settings "window" IsCount ScanSettings.standard.window s.window
  marker : Gives settings "marker" (IsArray fun b : UInt8 => countValue b.toUInt64)
    ScanSettings.standard.marker s.marker
  maxVarintBytes : Gives settings "max_varint_bytes" IsCount ScanSettings.standard.maxVarintBytes
    s.maxVarintBytes
  assumedLimit : Gives settings "assumed_limit" (IsSome IsCount)
    ScanSettings.standard.assumedLimit s.assumedLimit
  units : Gives settings "units" IsText ScanSettings.standard.units s.units
  preferLengthPrefixed : Gives settings "prefer_length_prefixed" IsFlag
    ScanSettings.standard.preferLengthPrefixed s.preferLengthPrefixed

def ScanSettings.IsGiven (s : ScanSettings) (v : Value) : Prop :=
  ∃ settings, v.settings "struct ScanConfig" ScanSettings.keys = .ok settings ∧ s.GivenBy settings

/-- What a setting does to the settings of a scan. -/
inductive ScanSettings.Setting (s : ScanSettings) (key : String) (v : Value) : ScanSettings → Prop
  | window {n} (hkey : key = "window") (h : IsCount n v) : Setting s key v { s with window := n }
  | marker {bytes} (hkey : key = "marker")
      (h : IsArray (fun b : UInt8 => countValue b.toUInt64) bytes v) :
      Setting s key v { s with marker := bytes }
  | maxVarintBytes {n} (hkey : key = "max_varint_bytes") (h : IsCount n v) :
      Setting s key v { s with maxVarintBytes := n }
  | assumedLimit {n} (hkey : key = "assumed_limit") (h : IsCount n v) :
      Setting s key v { s with assumedLimit := some n }
  | units {t} (hkey : key = "units") (h : IsText t v) : Setting s key v { s with units := t }
  | preferLengthPrefixed {b} (hkey : key = "prefer_length_prefixed") (h : IsFlag b v) :
      Setting s key v { s with preferLengthPrefixed := b }
  | unknown (hkey : key ∉ ScanSettings.keys) : Setting s key v s

/-- What a setting does to the settings of a scan, one case for each key. -/
theorem ScanSettings.set_ok {s s' : ScanSettings} (h : s.set key v = .ok s') :
    s.Setting key v s' := by
  unfold ScanSettings.set at h
  split at h
  · obtain ⟨n, hread, rfl⟩ := except_map_ok_iff.mp h
    exact .window rfl (extent_ok_iff.mp hread)
  · obtain ⟨bytes, hread, rfl⟩ := except_map_ok_iff.mp h
    exact .marker rfl ((list_ok_iff byte_ok_iff).mp hread)
  · obtain ⟨n, hread, rfl⟩ := except_map_ok_iff.mp h
    exact .maxVarintBytes rfl (extent_ok_iff.mp hread)
  · obtain ⟨n, hread, rfl⟩ := except_map_ok_iff.mp h
    exact .assumedLimit rfl (count_ok_iff.mp hread)
  · obtain ⟨t, hread, rfl⟩ := except_map_ok_iff.mp h
    exact .units rfl (textAs_ok_iff.mp hread)
  · obtain ⟨b, hread, rfl⟩ := except_map_ok_iff.mp h
    exact .preferLengthPrefixed rfl (flag_ok_iff.mp hread)
  · cases h
    exact .unknown (by simp_all [ScanSettings.keys])

/-- The settings of a scan that are read are those of its table, and standard where the table has
none. -/
theorem ScanSettings.isGiven_of_ofToml {s : ScanSettings} (h : ScanSettings.ofToml v = .ok s) :
    s.IsGiven v := by
  rw [ScanSettings.ofToml, except_bind_ok_iff] at h
  obtain ⟨settings, hsettings, hread⟩ := h
  refine ⟨settings, hsettings, ?_⟩
  constructor
  all_goals
    refine DecidedBy.gives ⟨fun hset => ?_, fun hne hset => ?_⟩ hread
    · cases set_ok hset <;> simp_all [IsSome, ScanSettings.keys]
    · cases set_ok hset <;> simp_all

/-! ## Configurations -/

/-- The keys of a configuration file. -/
def Config.keys : List String :=
  ["refresh_interval_ms", "log_interval_ms", "store_path", "ledger_path", "high_tier_model",
    "system_label", "catalog", "thresholds", "scan"]

def IsPath (p : Path) (v : Value) : Prop := v = .string p.text

/-- The settings of a configuration are those of a document, or the standard ones. -/
structure Config.GivenBy (members : Members) (c : Config) : Prop where
  refreshIntervalMs : Gives members "refresh_interval_ms" IsCount Config.standard.refreshIntervalMs
    c.refreshIntervalMs
  logIntervalMs : Gives members "log_interval_ms" IsCount Config.standard.logIntervalMs
    c.logIntervalMs
  storePath : Gives members "store_path" (IsSome IsPath) Config.standard.storePath c.storePath
  ledgerPath : Gives members "ledger_path" (IsSome IsPath) Config.standard.ledgerPath c.ledgerPath
  highTierModel : Gives members "high_tier_model" IsText Config.standard.highTierModel
    c.highTierModel
  systemLabel : Gives members "system_label" IsText Config.standard.systemLabel c.systemLabel
  catalog : Gives members "catalog" (IsArray Value.string) Config.standard.catalog c.catalog
  thresholds : Gives members "thresholds" Thresholds.IsGiven Config.standard.thresholds c.thresholds
  scan : Gives members "scan" ScanSettings.IsGiven Config.standard.scan c.scan

/-- What a member of a document does to a configuration. -/
inductive Config.Setting (c : Config) (key : String) (v : Value) : Config → Prop
  | refreshIntervalMs {n} (hkey : key = "refresh_interval_ms") (h : IsCount n v) :
      Setting c key v { c with refreshIntervalMs := n }
  | logIntervalMs {n} (hkey : key = "log_interval_ms") (h : IsCount n v) :
      Setting c key v { c with logIntervalMs := n }
  | storePath {p} (hkey : key = "store_path") (h : IsPath p v) :
      Setting c key v { c with storePath := some p }
  | ledgerPath {p} (hkey : key = "ledger_path") (h : IsPath p v) :
      Setting c key v { c with ledgerPath := some p }
  | highTierModel {t} (hkey : key = "high_tier_model") (h : IsText t v) :
      Setting c key v { c with highTierModel := t }
  | systemLabel {t} (hkey : key = "system_label") (h : IsText t v) :
      Setting c key v { c with systemLabel := t }
  | catalog {names} (hkey : key = "catalog") (h : IsArray Value.string names v) :
      Setting c key v { c with catalog := names }
  | thresholds {t : Thresholds} (hkey : key = "thresholds") (h : t.IsGiven v) :
      Setting c key v { c with thresholds := t }
  | scan {s : ScanSettings} (hkey : key = "scan") (h : s.IsGiven v) :
      Setting c key v { c with scan := s }
  | unknown (hkey : key ∉ Config.keys) : Setting c key v c

/-- What a member of a document does to a configuration, one case for each key. A key that is not
known changes nothing here. -/
theorem Config.set_ok {c c' : Config} (h : c.set key v = .ok c') : c.Setting key v c' := by
  unfold Config.set at h
  split at h
  · obtain ⟨n, hread, rfl⟩ := except_map_ok_iff.mp h
    exact .refreshIntervalMs rfl (count_ok_iff.mp hread)
  · obtain ⟨n, hread, rfl⟩ := except_map_ok_iff.mp h
    exact .logIntervalMs rfl (count_ok_iff.mp hread)
  · obtain ⟨p, hread, rfl⟩ := except_map_ok_iff.mp h
    exact .storePath rfl (path_ok_iff.mp hread)
  · obtain ⟨p, hread, rfl⟩ := except_map_ok_iff.mp h
    exact .ledgerPath rfl (path_ok_iff.mp hread)
  · obtain ⟨t, hread, rfl⟩ := except_map_ok_iff.mp h
    exact .highTierModel rfl (textAs_ok_iff.mp hread)
  · obtain ⟨t, hread, rfl⟩ := except_map_ok_iff.mp h
    exact .systemLabel rfl (textAs_ok_iff.mp hread)
  · obtain ⟨names, hread, rfl⟩ := except_map_ok_iff.mp h
    exact .catalog rfl ((list_ok_iff textAs_ok_iff).mp hread)
  · obtain ⟨t, hread, rfl⟩ := except_map_ok_iff.mp h
    exact .thresholds rfl (Thresholds.isGiven_of_ofToml hread)
  · obtain ⟨s, hread, rfl⟩ := except_map_ok_iff.mp h
    exact .scan rfl (ScanSettings.isGiven_of_ofToml hread)
  · cases h
    exact .unknown (by simp_all [Config.keys])

/-- **A configuration is what its document gives**, and standard where that gives nothing. -/
theorem Config.givenBy_of_ofMembers {c : Config} (h : Config.ofMembers members = .ok c) :
    c.GivenBy members := by
  constructor
  -- each field is decided by its key, and no other key reaches it
  all_goals
    refine DecidedBy.gives ⟨fun hset => ?_, fun hne hset => ?_⟩ h
    · cases set_ok hset <;> simp_all [IsSome, Config.keys]
    · cases set_ok hset <;> simp_all

end QuotaWatch
