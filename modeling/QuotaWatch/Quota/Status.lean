import QuotaWatch.Quota.Record
import QuotaWatch.Time.Instant

/-!
# Snapshots and the status they lead to

A `Snapshot` holds the records read at one time. The remaining quota of the designated model puts
it into a `Tier`: above the green floor, above the yellow floor, or neither.
-/

namespace QuotaWatch

open Time

/-- The records read at one time, and the name of the store they came from. -/
structure Snapshot where
  timestamp : Instant
  records : List QuotaRecord
  source : String
  deriving DecidableEq, Inhabited

/-- The first record of a model. -/
def Snapshot.record? (s : Snapshot) (identity : String) : Option QuotaRecord :=
  s.records.find? fun r => r.identity = identity

/-- How freely the designated model may be used. -/
inductive Tier where
  | green
  | yellow
  | red
  /-- The store gave no quota. -/
  | unknown
  deriving DecidableEq, Repr, Inhabited

/-- A tier in capitals. -/
def Tier.label : Tier → String
  | .green => "GREEN"
  | .yellow => "YELLOW"
  | .red => "RED"
  | .unknown => "UNKNOWN"

def Tier.ofLabel? (s : String) : Option Tier :=
  [Tier.green, .yellow, .red, .unknown].find? fun t => t.label = s

/-! ## Thresholds -/

/-- Two floors that cut the quota into three bands. -/
structure Thresholds where
  greenFloor : UInt64
  yellowFloor : UInt64
  yellow_lt_green : yellowFloor < greenFloor := by decide
  deriving DecidableEq, Repr

instance : Inhabited Thresholds := ⟨700, 300, by decide⟩

/-- Two floors in the wrong order. -/
structure InvertedFloors where
  greenFloor : UInt64
  yellowFloor : UInt64
  deriving DecidableEq, Repr

/-- What to tell about floors in the wrong order. -/
def InvertedFloors.message (e : InvertedFloors) : String :=
  s!"green_floor ({e.greenFloor}) must be greater than yellow_floor ({e.yellowFloor})"

/-- Thresholds from two floors, which have to be in order. -/
def Thresholds.make (greenFloor yellowFloor : UInt64) : Except InvertedFloors Thresholds :=
  if h : yellowFloor < greenFloor then .ok ⟨greenFloor, yellowFloor, h⟩
  else .error ⟨greenFloor, yellowFloor⟩

/-- The thresholds of a configuration that sets none. -/
def Thresholds.standard : Thresholds := { greenFloor := 700, yellowFloor := 300 }

/-! ## Classification -/

/-- Where the designated model stands, and what to do about it. -/
structure Status where
  timestamp : Instant
  highQuota : UInt64
  tier : Tier
  recommendation : String
  reasoning : String
  deriving DecidableEq, Inhabited

/-- The status when no quota could be read. -/
def Status.unknown (reason : String) (now : Instant) : Status :=
  { timestamp := now, highQuota := 0, tier := .unknown, recommendation := "Unknown",
    reasoning := reason }

/-- The band that a quota falls into. A quota on a floor falls into the band below. -/
def Thresholds.tier (t : Thresholds) (quota : UInt64) : Tier :=
  if t.greenFloor < quota then .green else if t.yellowFloor < quota then .yellow else .red

def Tier.recommendation : Tier → String
  | .green => "use high-tier model freely"
  | .yellow => "plan with high tier, execute with a cheaper tier"
  | .red => "use cheapest/fallback tier only"
  | .unknown => "Unknown"

/-- Why a tier recommends it. -/
def Tier.reasoning : Tier → String
  | .green => "quota abundant"
  | .yellow => "quota moderate, conserve for reasoning tasks"
  | .red => "quota critically low"
  | .unknown => ""

/-- The status of a quota; an absent quota counts as 0. -/
def Thresholds.classify (t : Thresholds) (quota : Option UInt64) (now : Instant) : Status :=
  let quota := quota.getD 0
  let tier := t.tier quota
  { timestamp := now, highQuota := quota, tier, recommendation := tier.recommendation,
    reasoning := tier.reasoning }

/-- The status of a snapshot, by the remaining quota of one model. -/
def Snapshot.status (s : Snapshot) (model : String) (t : Thresholds) : Status :=
  t.classify ((s.record? model).bind (·.remaining)) s.timestamp

end QuotaWatch
