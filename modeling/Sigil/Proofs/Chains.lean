import Mathlib.Data.List.Chain
import Sigil.Proofs.Ancestry

/-! # Chains of parents

What a walk along the parents meets is known as a set: it is all that iterated parents reach. As a
list it is the chain itself, from its start on, without repetition, up to a root or to the class
before the first repeat, and it has at most one class more than the hierarchy records. All of this
holds of every hierarchy, whatever was recorded in it and in whatever order, also where parents are
missing from it or run in a circle. Fitting in the place of a class, which asks for a recorded class
among the ancestors of another, is then reflexive and transitive on all of them.
-/

namespace Sigil.Hierarchy

open Relation (ReflTransGen)

variable {hierarchy : Hierarchy}

/-- A walk leaves out what was met before it. -/
theorem not_mem_of_mem_walk {start className : String} {met : List String}
    (member : className ∈ hierarchy.walk start met) : className ∉ met := by
  fun_induction hierarchy.walk start met with
  | case1 => simp at member
  | case2 start met new ih =>
    rcases List.mem_cons.mp member with rfl | later
    · exact new
    · split at later
      · simp at later
      · next parent child =>
        exact fun earlier => ih parent child later (List.mem_cons_of_mem start earlier)

/-- A walk meets no class twice. -/
theorem nodup_walk (start : String) (met : List String) : (hierarchy.walk start met).Nodup := by
  fun_induction hierarchy.walk start met with
  | case1 => exact .nil
  | case2 start met _ ih =>
    split
    · exact List.pairwise_singleton _ start
    · next parent child =>
      refine List.nodup_cons.mpr ⟨fun again => ?_, ih parent child⟩
      exact not_mem_of_mem_walk again List.mem_cons_self

/-- A walk that meets anything begins with its start. -/
theorem eq_start_of_head?_walk {start className : String} {met : List String}
    (first : (hierarchy.walk start met).head? = some className) : className = start := by
  rw [walk_eq] at first
  split at first
  · cases first
  · exact (Option.some.inj first).symm

/-- In a walk each class is followed by its parent. -/
theorem isChain_walk (start : String) (met : List String) :
    (hierarchy.walk start met).IsChain hierarchy.ParentOf := by
  fun_induction hierarchy.walk start met with
  | case1 => exact .nil
  | case2 start met _ ih =>
    split
    · exact .singleton start
    · next parent child =>
      refine (ih parent child).cons fun next first => ?_
      rw [eq_start_of_head?_walk first]
      exact child

/-- A walk is at most one longer than the recorded classes that were not met before it: every class
but the last has a parent and so is recorded. -/
theorem length_walk_le (start : String) (met : List String) :
    (hierarchy.walk start met).length ≤ (hierarchy.unmet met).length + 1 := by
  fun_induction hierarchy.walk start met with
  | case1 => exact Nat.zero_le _
  | case2 start met new ih =>
    split
    · simp
    · next parent child =>
      have shorter := ih parent child
      have fewer := unmet_lt_of_parent? child new
      rw [List.length_cons]
      omega

theorem length_unmet_nil (hierarchy : Hierarchy) :
    (hierarchy.unmet []).length = hierarchy.parents.size := by
  simp only [unmet, List.not_mem_nil, not_false_eq_true, decide_true, List.filter_true,
    Std.ExtTreeMap.length_keys]

/-- `met` is what a walk from a class along its parents should meet. -/
structure Exhausts (hierarchy : Hierarchy) (start : String) (met : List String) : Prop where
  head : met.head? = some start
  nodup : met.Nodup
  /-- Each class is followed by its parent. -/
  chain : met.IsChain hierarchy.ParentOf
  /-- The last class has no parent, or one that was met. -/
  last : ∀ className, met.getLast? = some className →
    hierarchy.parent? className = none ∨ ∃ parent ∈ met, hierarchy.ParentOf className parent
  mem_iff : ∀ className, className ∈ met ↔ ReflTransGen hierarchy.ParentOf start className
  length_le : met.length ≤ hierarchy.parents.size + 1

theorem exhausts_ancestors (hierarchy : Hierarchy) (start : String) :
    hierarchy.Exhausts start (hierarchy.ancestors start) where
  head := by
    rw [ancestors, walk_eq]
    simp
  nodup := nodup_walk start []
  chain := isChain_walk start []
  last className ends := by
    cases child : hierarchy.parent? className with
    | none => exact .inl rfl
    | some parent =>
      rcases mem_walk_of_parentOf (List.mem_of_getLast? ends) child with member | member
      · exact .inr ⟨parent, member, child⟩
      · cases member
  mem_iff _ := mem_ancestors_iff
  length_le := by
    rw [← length_unmet_nil]
    exact length_walk_le start []

theorem accepts_refl (hierarchy : Hierarchy) (type : Ty) : hierarchy.accepts type type = true :=
  accepts_iff.mpr (.inl rfl)

/-- What fits in the place of a value that fits elsewhere fits there itself. -/
theorem accepts_trans {first second third : Ty} (upper : hierarchy.accepts first second = true)
    (lower : hierarchy.accepts second third = true) : hierarchy.accepts first third = true := by
  rcases accepts_iff.mp upper with rfl | ⟨top, middle, rfl, rfl, recorded, up⟩
  · exact lower
  · rcases accepts_iff.mp lower with rfl | ⟨_, bottom, same, rfl, _, down⟩
    · exact upper
    · cases same
      exact accepts_iff.mpr (.inr ⟨top, bottom, rfl, rfl, recorded, down.trans up⟩)

/-! ## Hierarchies from records -/

/-- The hierarchy after classes are recorded in turn, each with its parent if it has one. -/
def ofRecords (records : List (String × Option String)) : Hierarchy :=
  records.foldl (fun hierarchy record => hierarchy.insert record.1 record.2) ∅

/-- A later record of a class takes the place of an earlier one. -/
theorem parents_ofRecords (records : List (String × Option String)) (className : String) :
    (ofRecords records).parents[className]? = records.reverse.lookup className := by
  induction records using List.reverseRecOn with
  | nil =>
    change (∅ : Std.ExtTreeMap String (Option String))[className]? = none
    simp
  | append_singleton earlier record ih =>
    obtain ⟨recorded, parent⟩ := record
    have last : (ofRecords (earlier ++ [(recorded, parent)])).parents =
        (ofRecords earlier).parents.insert recorded parent := by
      simp only [ofRecords, List.foldl_append, List.foldl_cons, List.foldl_nil, insert]
    rw [last, Std.ExtTreeMap.getElem?_insert, ih, List.reverse_append]
    by_cases same : recorded = className
    · simp [same]
    · simp [List.lookup_cons, same, beq_eq_false_iff_ne.mpr (Ne.symm same)]

/-- The classes of a hierarchy are those that were recorded. -/
theorem contains_ofRecords (records : List (String × Option String)) (className : String) :
    (ofRecords records).contains className = true ↔ className ∈ records.map Prod.fst := by
  rw [contains, Std.ExtTreeMap.contains_eq_isSome_getElem?, parents_ofRecords,
    List.lookup_isSome_iff, List.mem_map]
  simp only [List.mem_reverse, beq_iff_eq, @eq_comm _ className]

theorem parent?_ofRecords (records : List (String × Option String)) (className : String) :
    (ofRecords records).parent? className = (records.reverse.lookup className).join := by
  rw [parent?, parents_ofRecords]

/-- Whatever was recorded, the classes of a hierarchy are those of the records, the last record of a
class gives its parent, the ancestors of a class are all that its parents lead to, and a value fits
where a type is declared by equality or by that relation, which is reflexive and transitive. -/
theorem ancestors_exact (records : List (String × Option String)) :
    (∀ className, (ofRecords records).parents[className]? = records.reverse.lookup className) ∧
      (∀ className, (ofRecords records).contains className = true ↔
        className ∈ records.map Prod.fst) ∧
      (∀ className, (ofRecords records).parent? className =
        (records.reverse.lookup className).join) ∧
      (∀ start, (ofRecords records).Exhausts start ((ofRecords records).ancestors start)) ∧
      (∀ declared found, (ofRecords records).accepts declared found = true ↔
        declared = found ∨
          ∃ target start, declared = .object target ∧ found = .object start ∧
            (ofRecords records).contains target = true ∧
            ReflTransGen (ofRecords records).ParentOf start target) ∧
      (∀ type, (ofRecords records).accepts type type = true) ∧
      ∀ first second third, (ofRecords records).accepts first second = true →
        (ofRecords records).accepts second third = true →
        (ofRecords records).accepts first third = true :=
  ⟨parents_ofRecords records, contains_ofRecords records, parent?_ofRecords records,
    exhausts_ancestors _, fun _ _ => accepts_iff, accepts_refl _, fun _ _ _ => accepts_trans⟩

end Sigil.Hierarchy
