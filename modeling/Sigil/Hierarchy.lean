import Std.Data.ExtTreeMap
import Sigil.Ty

/-! # The class hierarchy

Each class has at most one parent. The map is taken as it is: parents may be missing from it and
chains may close into a circle, so the walk along the parents stops when it meets a class again. It
ends because a step from a class to its parent uses up one entry of the map.
-/

namespace Sigil

/-- The known classes, each with its parent if it has one. -/
structure Hierarchy where
  parents : Std.ExtTreeMap String (Option String) := ∅

namespace Hierarchy

/-- The hierarchy without classes. -/
def empty : Hierarchy := {}

instance : EmptyCollection Hierarchy := ⟨empty⟩

instance : Inhabited Hierarchy := ⟨empty⟩

/-- Records a class and its parent, in place of what was recorded for it before. -/
def insert (hierarchy : Hierarchy) (className : String) (parent : Option String) : Hierarchy :=
  ⟨hierarchy.parents.insert className parent⟩

/-- Whether a class is recorded. -/
def contains (hierarchy : Hierarchy) (className : String) : Bool :=
  hierarchy.parents.contains className

/-- The parent of a class; none for a root and for an unknown class. -/
def parent? (hierarchy : Hierarchy) (className : String) : Option String :=
  hierarchy.parents[className]?.join

/-- The recorded classes that a walk has not met yet. -/
def unmet (hierarchy : Hierarchy) (met : List String) : List String :=
  hierarchy.parents.keys.filter fun className => className ∉ met

theorem mem_keys_of_parent? {hierarchy : Hierarchy} {className parent : String}
    (child : hierarchy.parent? className = some parent) :
    className ∈ hierarchy.parents.keys := by
  rw [Std.ExtTreeMap.mem_keys, Std.ExtTreeMap.mem_iff_isSome_getElem?]
  cases entry : hierarchy.parents[className]? with
  | none => simp [parent?, entry] at child
  | some _ => rfl

/-- Leaving a class for its parent leaves fewer classes unmet. -/
theorem unmet_lt_of_parent? {hierarchy : Hierarchy} {className parent : String}
    {met : List String} (child : hierarchy.parent? className = some parent)
    (new : className ∉ met) :
    (hierarchy.unmet (className :: met)).length < (hierarchy.unmet met).length := by
  have narrower : hierarchy.unmet (className :: met) =
      (hierarchy.unmet met).filter fun other => other ≠ className := by
    simp [unmet, List.filter_filter]
  have member : className ∈ hierarchy.unmet met := by
    simpa [unmet, mem_keys_of_parent? child] using new
  rw [narrower, ← List.countP_eq_length_filter]
  refine Nat.lt_of_le_of_ne List.countP_le_length ?_
  intro all
  have kept := List.countP_eq_length.mp all className member
  simp at kept

/-- The chain of parents from a class on, up to a root or to the first class in `met`. -/
def walk (hierarchy : Hierarchy) (className : String) (met : List String) : List String :=
  if _ : className ∈ met then []
  else
    className ::
      match _ : hierarchy.parent? className with
      | none => []
      | some parent => walk hierarchy parent (className :: met)
termination_by (hierarchy.unmet met).length
decreasing_by exact unmet_lt_of_parent? ‹_› ‹_›

/-- A class followed by its parent, grandparent and so on, each once. -/
def ancestors (hierarchy : Hierarchy) (className : String) : List String :=
  hierarchy.walk className []

/-- Whether a value of type `found` may stand where `declared` is asked for: the types are equal,
or both are classes and the declared one is recorded and among the ancestors of the other. -/
def accepts (hierarchy : Hierarchy) (declared found : Ty) : Bool :=
  declared = found ||
    match declared, found with
    | .object target, .object start =>
        hierarchy.contains target && (hierarchy.ancestors start).contains target
    | _, _ => false

@[simp] theorem parent?_insert (hierarchy : Hierarchy) (className other : String)
    (parent : Option String) :
    (hierarchy.insert className parent).parent? other =
      if className = other then parent else hierarchy.parent? other := by
  simp only [parent?, insert, Std.ExtTreeMap.getElem?_insert]
  by_cases same : className = other <;> simp [same]

@[simp] theorem contains_insert (hierarchy : Hierarchy) (className other : String)
    (parent : Option String) :
    (hierarchy.insert className parent).contains other =
      (className == other || hierarchy.contains other) := by
  grind [contains, insert]

/-- A walk starts at its class, unless it has already met it. -/
theorem walk_eq (hierarchy : Hierarchy) (className : String) (met : List String) :
    hierarchy.walk className met =
      if className ∈ met then []
      else className ::
        match hierarchy.parent? className with
        | none => []
        | some parent => hierarchy.walk parent (className :: met) := by
  rw [walk]
  split
  · rfl
  · congr 1
    split <;> rename_i child <;> rw [child]

end Hierarchy

end Sigil
