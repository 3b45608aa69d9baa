/-!
# Computations that may fail

When a chain of computations succeeds or fails, and what a change of the fault does to that.
-/

namespace QuotaWatch

variable {ε ε' σ α β : Type}

/-- To succeed is to have a result. -/
theorem except_isOk_iff {x : Except ε α} : x.isOk = true ↔ ∃ a, x = .ok a := by
  cases x <;> simp [Except.isOk, Except.toBool]

theorem except_isOk_eq_false_iff {x : Except ε α} : x.isOk = false ↔ ∃ fault, x = .error fault := by
  cases x <;> simp [Except.isOk, Except.toBool]

/-- A computation that goes on after another one succeeds if both do. A chain of them is peeled
apart by this, one step after the other, with no unfolding. -/
theorem except_bind_ok_iff {x : Except ε α} {f : α → Except ε β} {b : β} :
    (x >>= f) = .ok b ↔ ∃ a, x = .ok a ∧ f a = .ok b := by
  cases x <;> simp [bind, Except.bind]

theorem except_map_ok_iff {x : Except ε α} {f : α → β} {b : β} :
    x.map f = .ok b ↔ ∃ a, x = .ok a ∧ f a = b := by
  cases x <;> simp [Except.map]

@[simp] theorem except_mapError_ok (a : α) (g : ε → ε') :
    (Except.ok a : Except ε α).mapError g = .ok a := rfl

@[simp] theorem except_mapError_error (e : ε) (g : ε → ε') :
    (Except.error e : Except ε α).mapError g = .error (g e) := rfl

/-- What a fault is called does not matter to success. -/
theorem except_mapError_ok_iff {x : Except ε α} {g : ε → ε'} {a : α} :
    x.mapError g = .ok a ↔ x = .ok a := by
  cases x <;> simp

/-- A change of a state that goes on after another one goes on from the state that it left. If the
first one fails, the state stays what it made of it: nothing is taken back. -/
theorem exceptT_run_bind (x : ExceptT ε (StateM σ) α) (f : α → ExceptT ε (StateM σ) β) (s : σ) :
    ExceptT.run (x >>= f) s =
      match ExceptT.run x s with
      | (.ok a, s') => ExceptT.run (f a) s'
      | (.error fault, s') => (.error fault, s') := by
  simp only [ExceptT.run_bind]
  show (x.run >>= _) s = _
  simp only [bind, StateT.bind]
  cases x.run s with
  | mk r s' => cases r <;> rfl

end QuotaWatch
