/-!
# Places on a disk

A `Location` is the names from the root to a place. Their number is kept beside them, so that two
places of different depth are told apart without a look at their names; two places with the same
names are the same (`Location.ext_names`).
-/

namespace QuotaWatch

/-- The names from the root to a place. -/
structure Location where
  depth : Nat
  names : List String
  depth_eq : depth = names.length
  deriving DecidableEq

namespace Location

theorem ext_names {a b : Location} (h : a.names = b.names) : a = b := by
  obtain ⟨da, na, ha⟩ := a
  obtain ⟨db, nb, hb⟩ := b
  cases h
  cases ha
  cases hb
  rfl

/-- The place with given names. -/
def ofNames (names : List String) : Location := ⟨names.length, names, rfl⟩

def root : Location := ofNames []

instance : Inhabited Location := ⟨root⟩

/-- The place with a name in the directory at a place. -/
def child (l : Location) (name : String) : Location :=
  ⟨l.depth + 1, l.names ++ [name], by simp [l.depth_eq]⟩

/-- The directory in which a place is. The root is in itself. -/
def parent (l : Location) : Location :=
  ⟨l.depth - 1, l.names.dropLast, by simp [l.depth_eq]⟩

/-- Whether a place is another one or on the way to it. -/
def leadsTo (l other : Location) : Bool := l.names.isPrefixOf other.names

/-- The names from a place to one that it leads to. -/
def namesTo (l other : Location) : List String := other.names.drop l.depth

/-- The place that is as far from `target` as this one is from `source`. -/
def moved (l source target : Location) : Location :=
  ofNames (target.names ++ source.namesTo l)

theorem parent_child (l : Location) (name : String) : (l.child name).parent = l :=
  ext_names (by simp [child, parent])

theorem leadsTo_self (l : Location) : l.leadsTo l = true := by
  simp [leadsTo]

theorem child_ne_root (l : Location) (name : String) : l.child name ≠ root := by
  intro h
  have := congrArg names h
  simp [child, root, ofNames] at this

end Location

end QuotaWatch
