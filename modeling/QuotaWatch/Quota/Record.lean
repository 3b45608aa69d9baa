/-!
# Quota records

A record says what is known of the quota of one model: how much it may use and how much is left.
Both may be unknown.
-/

namespace QuotaWatch

/-- What is known of the quota of one model. -/
structure QuotaRecord where
  /-- Display name of the model. -/
  identity : String
  limit : Option UInt64
  remaining : Option UInt64
  /-- What the quota is counted in. -/
  units : String
  deriving DecidableEq, Repr, Inhabited

/-- Units consumed so far, when limit and rest are both known. More left than allowed counts as
nothing consumed. -/
def QuotaRecord.used (r : QuotaRecord) : Option UInt64 :=
  match r.limit, r.remaining with
  | some limit, some remaining => some (if remaining ≤ limit then limit - remaining else 0)
  | _, _ => none

/-- A number moved into the range from 0 to 100. -/
def clampPercent (x : Float) : Float :=
  if x < 0.0 then 0.0 else if 100.0 < x then 100.0 else x

/-- Percent of the limit that is consumed; unknown for a limit of zero. -/
def QuotaRecord.percentUsed (r : QuotaRecord) : Option Float :=
  match r.limit, r.used with
  | some limit, some used =>
    if limit = 0 then none else some (clampPercent (used.toFloat / limit.toFloat * 100.0))
  | _, _ => none

/-- The model whose quota decides the status unless the configuration names another. -/
def defaultHighTierModel : String := "Gemini 3 Pro (High)"

/-- The models that are looked for unless the configuration lists others. -/
def defaultCatalog : List String :=
  ["Gemini 3 Pro (High)", "Gemini 3 Pro (Low)", "Gemini 3 Flash", "Claude Sonnet 4.5",
   "Claude Sonnet 4.5 (Thinking)", "Claude Opus 4.5 (Thinking)", "Claude Opus 4.6 (Thinking)",
   "GPT-OSS 120B (Medium)"]

end QuotaWatch
