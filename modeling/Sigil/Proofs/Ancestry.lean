import Mathlib.Logic.Relation
import Sigil.Hierarchy

/-! # What a walk along the parents meets

A walk stops at a root or at the first class it has met before, and still loses nothing: its classes
are exactly those that iterated parents reach. This holds of every hierarchy, also where parents are
missing from it or run in a circle.
-/

namespace Sigil.Hierarchy

open Relation (ReflTransGen TransGen)

/-- `parent` is what the hierarchy records as the parent of `child`. -/
def ParentOf (hierarchy : Hierarchy) (child parent : String) : Prop :=
  hierarchy.parent? child = some parent

variable {hierarchy : Hierarchy}

@[simp] theorem contains_empty (className : String) :
    (∅ : Hierarchy).contains className = false := by
  change (∅ : Std.ExtTreeMap String (Option String)).contains className = false
  simp

@[simp] theorem parent?_empty (className : String) : (∅ : Hierarchy).parent? className = none := by
  change (∅ : Std.ExtTreeMap String (Option String))[className]?.join = none
  simp

/-- A walk has nothing but classes that iterated parents reach from its start. -/
theorem reachable_of_mem_walk {start target : String} {met : List String}
    (member : target ∈ hierarchy.walk start met) :
    ReflTransGen hierarchy.ParentOf start target := by
  fun_induction hierarchy.walk start met with
  | case1 => simp at member
  | case2 start met _ ih =>
    rcases List.mem_cons.mp member with rfl | later
    · exact .refl
    · split at later
      · simp at later
      · next parent child => exact .head child (ih parent child later)

/-- Where a walk does not go on to a parent, it has met that parent before. -/
theorem mem_walk_of_parentOf {start className parent : String} {met : List String}
    (member : className ∈ hierarchy.walk start met) (child : hierarchy.ParentOf className parent) :
    parent ∈ hierarchy.walk start met ∨ parent ∈ met := by
  fun_induction hierarchy.walk start met with
  | case1 => simp at member
  | case2 start met _ ih =>
    split at member
    · next root =>
      obtain rfl := List.mem_singleton.mp member
      rw [ParentOf, root] at child
      cases child
    · next next link =>
      have onward : next ∈ hierarchy.walk next (start :: met) ∨ next ∈ start :: met := by
        by_cases again : next ∈ start :: met
        · exact .inr again
        · rw [walk_eq, if_neg again]
          exact .inl (List.mem_cons_self ..)
      rcases List.mem_cons.mp member with rfl | later
      · obtain rfl : next = parent := Option.some.inj (link.symm.trans child)
        grind
      · have := ih next link later
        grind

theorem self_mem_ancestors (hierarchy : Hierarchy) (className : String) :
    className ∈ hierarchy.ancestors className := by
  rw [ancestors, walk_eq]
  simp

/-- The ancestors of a class are the classes that iterated parents reach from it. -/
theorem mem_ancestors_iff {className ancestor : String} :
    ancestor ∈ hierarchy.ancestors className ↔
      ReflTransGen hierarchy.ParentOf className ancestor := by
  constructor
  · exact reachable_of_mem_walk
  · intro path
    induction path with
    | refl => exact hierarchy.self_mem_ancestors className
    | tail _ child ih =>
      rcases mem_walk_of_parentOf ih child with member | member
      · exact member
      · cases member

/-- A value fits where its type is declared, or where a recorded class is declared that its class
descends from. -/
theorem accepts_iff {declared found : Ty} :
    hierarchy.accepts declared found = true ↔
      declared = found ∨
        ∃ target start, declared = .object target ∧ found = .object start ∧
          hierarchy.contains target = true ∧ ReflTransGen hierarchy.ParentOf start target := by
  cases declared <;> cases found <;>
    simp only [accepts, Bool.or_eq_true, decide_eq_true_eq, Bool.and_eq_true, List.contains_iff_mem,
      mem_ancestors_iff, Bool.false_eq_true, reduceCtorEq, false_and, and_false, exists_const,
      or_false, Ty.object.injEq]
  case object.object target start =>
    constructor
    · rintro (same | ⟨known, path⟩)
      · exact .inl same
      · exact .inr ⟨target, start, rfl, rfl, known, path⟩
    · rintro (same | ⟨_, _, rfl, rfl, known, path⟩)
      · exact .inl same
      · exact .inr ⟨known, path⟩

end Sigil.Hierarchy
