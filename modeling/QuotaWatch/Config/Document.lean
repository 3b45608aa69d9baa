import QuotaWatch.Config.Basic
import QuotaWatch.Toml.Decode
import QuotaWatch.Toml.Reader
import QuotaWatch.Toml.Writer

/-!
# The configuration file

A configuration is kept as a TOML document. `Config.parse` goes through its keys in order and
changes the standard configuration accordingly, so that missing keys keep their standard values and
unknown keys do nothing. Thresholds need both floors. `Config.fileText` writes a configuration.
-/

namespace QuotaWatch

open Toml

/-! ## Reading -/

def Path.ofToml : Reader Path := fun v => (v.textAs "path string").map Path.mk

def Thresholds.keys : List String := ["green_floor", "yellow_floor"]

/-- The floors that a table gives. -/
structure Floors where
  green : Option UInt64 := none
  yellow : Option UInt64 := none

/-- Takes a floor from a table. -/
def Floors.set (f : Floors) (key : String) (v : Value) : Except Mismatch Floors :=
  match key with
  | "green_floor" => v.count.map fun n => { f with green := some n }
  | "yellow_floor" => v.count.map fun n => { f with yellow := some n }
  | _ => .ok f

def Thresholds.ofToml : Reader Thresholds := fun v => do
  let settings ← v.settings "struct RawThresholds" Thresholds.keys
  let floors ← settings.foldlM (fun f (key, v) => f.set key v) ({} : Floors)
  match floors.green, floors.yellow, v with
  | some green, some yellow, _ =>
    (Thresholds.make green yellow).mapError fun e => .refused e.message
  | _, _, .array _ items => .error (.length items.length "struct RawThresholds with 2 elements")
  | none, _, _ => .error (.missing "green_floor")
  | _, none, _ => .error (.missing "yellow_floor")

def ScanSettings.keys : List String :=
  ["window", "marker", "max_varint_bytes", "assumed_limit", "units", "prefer_length_prefixed"]

def ScanSettings.set (s : ScanSettings) (key : String) (v : Value) :
    Except Mismatch ScanSettings :=
  match key with
  | "window" => v.extent.map fun n => { s with window := n }
  | "marker" => (v.list Value.byte).map fun bytes => { s with marker := bytes }
  | "max_varint_bytes" => v.extent.map fun n => { s with maxVarintBytes := n }
  | "assumed_limit" => v.count.map fun n => { s with assumedLimit := some n }
  | "units" => v.text.map fun t => { s with units := t }
  | "prefer_length_prefixed" => v.flag.map fun b => { s with preferLengthPrefixed := b }
  | _ => .ok s

def ScanSettings.ofToml : Reader ScanSettings := fun v => do
  let settings ← v.settings "struct ScanConfig" ScanSettings.keys
  settings.foldlM (fun s (key, v) => s.set key v) ScanSettings.standard

def Config.set (c : Config) (key : String) (v : Value) : Except Mismatch Config :=
  match key with
  | "refresh_interval_ms" => v.count.map fun n => { c with refreshIntervalMs := n }
  | "log_interval_ms" => v.count.map fun n => { c with logIntervalMs := n }
  | "store_path" => (Path.ofToml v).map fun p => { c with storePath := some p }
  | "ledger_path" => (Path.ofToml v).map fun p => { c with ledgerPath := some p }
  | "high_tier_model" => v.text.map fun t => { c with highTierModel := t }
  | "system_label" => v.text.map fun t => { c with systemLabel := t }
  | "catalog" => (v.list Value.text).map fun names => { c with catalog := names }
  | "thresholds" => (Thresholds.ofToml v).map fun t => { c with thresholds := t }
  | "scan" => (ScanSettings.ofToml v).map fun s => { c with scan := s }
  | _ => .ok c

/-- The configuration that the members of a document describe. -/
def Config.ofMembers (members : Members) : Except Mismatch Config :=
  members.foldlM (fun c (key, v) => c.set key v) Config.standard

/-- Why a document describes no configuration. -/
inductive DocumentFault where
  /-- The text is no document. -/
  | malformed
  | unsuitable (mismatch : Mismatch)
  deriving DecidableEq, Repr

/-- A fault of a document in words. -/
def DocumentFault.message : DocumentFault → String
  | .malformed => "TOML parse error"
  | .unsuitable mismatch => s!"TOML parse error: {mismatch.message}"

/-- The configuration that a text describes. It need not be valid. -/
def Config.parse (text : String) : Except DocumentFault Config :=
  match Toml.parse text with
  | none => .error .malformed
  | some members => (Config.ofMembers members).mapError .unsuitable

/-! ## Writing -/

/-- The section of thresholds. -/
def Thresholds.fileText (t : Thresholds) : List Char :=
  headerLines "thresholds"
    ++ pairLine "green_floor" (countText t.greenFloor)
    ++ pairLine "yellow_floor" (countText t.yellowFloor)

/-- The section of scan settings. -/
def ScanSettings.fileText (s : ScanSettings) : List Char :=
  headerLines "scan"
    ++ pairLine "window" (countText s.window)
    ++ pairLine "marker" (arrayText (s.marker.map fun b => countText b.toUInt64))
    ++ pairLine "max_varint_bytes" (countText s.maxVarintBytes)
    ++ optionalLine "assumed_limit" countText s.assumedLimit
    ++ pairLine "units" (stringText s.units)
    ++ pairLine "prefer_length_prefixed" (flagText s.preferLengthPrefixed)

def Config.fileText (c : Config) : String :=
  String.ofList
    (pairLine "refresh_interval_ms" (countText c.refreshIntervalMs)
      ++ pairLine "log_interval_ms" (countText c.logIntervalMs)
      ++ optionalLine "store_path" (fun p => stringText p.text) c.storePath
      ++ optionalLine "ledger_path" (fun p => stringText p.text) c.ledgerPath
      ++ pairLine "high_tier_model" (stringText c.highTierModel)
      ++ pairLine "system_label" (stringText c.systemLabel)
      ++ pairLine "catalog" (arrayText (c.catalog.map stringText))
      ++ c.thresholds.fileText ++ c.scan.fileText)

end QuotaWatch
