import Sigil.Proofs.Forest

/-! # Members resolve to one declaration

A field is searched along the ancestors of a class and the nearest one wins; a method is found on
the same way, but its signature is then fetched from a table by its bare name. Neither leaves a
choice: names are declared once, so the class found on the way is the one that the symbol or the
signature names. What an object of a class has, an object of every class below it has too.
-/

namespace Sigil

namespace Declarations

variable {decls : Declarations}

/-- The name `field` is declared as a field of the class `owner`, of type `type`. -/
def OwnField (decls : Declarations) (owner field : String) (type : Ty) : Prop :=
  ∃ symbol, decls.symbols.lookup? field = some symbol ∧ symbol.role = .field owner ∧
    symbol.type = type

/-- A field has one class and one type. -/
theorem OwnField.unique {owner other field : String} {type also : Ty}
    (one : decls.OwnField owner field type) (two : decls.OwnField other field also) :
    owner = other ∧ type = also := by
  obtain ⟨symbol, found, role, rfl⟩ := one
  obtain ⟨again, same, alsoRole, rfl⟩ := two
  obtain rfl := Option.some.inj (found.symm.trans same)
  rw [role] at alsoRole
  cases alsoRole
  exact ⟨rfl, rfl⟩

namespace Built

variable {className field method declared found : String} {type : Ty} {entry : MethodEntry}

/-- A class has the fields that it or one of its ancestors declares. -/
theorem field?_iff_ownField (built : decls.Built) :
    decls.field? className field = some type ↔
      ∃ owner ∈ decls.hierarchy.ancestors className, decls.OwnField owner field type := by
  simp only [built.field?_eq_some_iff, Hierarchy.mem_ancestors_iff, OwnField,
    built.indexed.lookup?_eq_some_iff_mem]
  constructor
  · rintro ⟨owner, path, symbol, member, named, declares⟩
    exact ⟨owner, path, symbol, ⟨member, named⟩, declares⟩
  · rintro ⟨owner, path, symbol, ⟨member, named⟩, declares⟩
    exact ⟨owner, path, symbol, member, named, declares⟩

/-- A class has the methods whose signature names it or one of its ancestors. -/
theorem method?_iff_owner (built : decls.Built) :
    decls.method? className method = some entry ↔
      decls.methods[method]? = some entry ∧
        ∃ owner ∈ decls.hierarchy.ancestors className, entry.owner = some owner := by
  simp only [built.method?_eq_some_iff, Hierarchy.mem_ancestors_iff, and_comm]

/-- The ancestors of a class are among those of every class that fits in its place. -/
theorem ancestors_subset (built : decls.Built)
    (fits : decls.hierarchy.accepts (.object declared) (.object found) = true) :
    decls.hierarchy.ancestors declared ⊆ decls.hierarchy.ancestors found := by
  have descends := built.accepts_object_iff.mp fits
  intro ancestor above
  rw [Hierarchy.mem_ancestors_iff] at above ⊢
  exact descends.trans above

theorem field?_of_accepts (built : decls.Built)
    (fits : decls.hierarchy.accepts (.object declared) (.object found) = true)
    (has : decls.field? declared field = some type) : decls.field? found field = some type := by
  rw [built.field?_iff_ownField] at has ⊢
  obtain ⟨owner, above, own⟩ := has
  exact ⟨owner, built.ancestors_subset fits above, own⟩

theorem method?_of_accepts (built : decls.Built)
    (fits : decls.hierarchy.accepts (.object declared) (.object found) = true)
    (has : decls.method? declared method = some entry) :
    decls.method? found method = some entry := by
  rw [built.method?_iff_owner] at has ⊢
  obtain ⟨present, owner, above, owned⟩ := has
  exact ⟨present, owner, built.ancestors_subset fits above, owned⟩

/-- A method that no class declares is not found on any class. -/
theorem method?_of_free (built : decls.Built) (free : decls.freeMethod? method = some entry) :
    decls.method? className method = none := by
  obtain ⟨present, unowned⟩ := freeMethod?_eq_some_iff.mp free
  rw [Option.eq_none_iff_forall_ne_some]
  intro other has
  obtain ⟨also, owner, _, owned⟩ := built.method?_iff_owner.mp has
  obtain rfl := Option.some.inj (present.symm.trans also)
  rw [unowned] at owned
  cases owned

end Built

end Declarations

namespace Context

variable {context : Context}

/-- Members are found without a choice, and are kept by every class below. -/
structure MembersResolve (context : Context) : Prop where
  fields : ∀ className field type, context.field? className field = some type ↔
    ∃ owner ∈ context.hierarchy.ancestors className, context.OwnField owner field type
  fieldOwner : ∀ owner other field type also, context.OwnField owner field type →
    context.OwnField other field also → owner = other ∧ type = also
  methods : ∀ className method entry, context.method? className method = some entry ↔
    context.methods[method]? = some entry ∧
      ∃ owner ∈ context.hierarchy.ancestors className, entry.owner = some owner
  /-- A call without a receiver reaches the methods that no class declares. -/
  bareCalls : ∀ method entry, verdict (context.callee none method) = .ok entry ↔
    context.methods[method.name]? = some entry ∧ entry.owner = none
  /-- A call on a receiver does not reach them, whatever the receiver is. -/
  bareOnly : ∀ method entry, verdict (context.callee none method) = .ok entry →
    (∀ className, context.method? className method.name = none) ∧
      ∀ object, ∃ error, verdict (context.callee (some object) method) = .error error
  inheritedFields : ∀ declared found,
    context.hierarchy.accepts (.object declared) (.object found) = true →
      ∀ field type, context.field? declared field = some type →
        context.field? found field = some type
  inheritedMethods : ∀ declared found,
    context.hierarchy.accepts (.object declared) (.object found) = true →
      ∀ method entry, context.method? declared method = some entry →
        context.method? found method = some entry

/-- In every reachable context members resolve to one declaration. -/
theorem Reachable.membersResolve (reachable : context.Reachable) : context.MembersResolve := by
  have built := reachable.built
  refine
    { fields := fun className field type => built.field?_iff_ownField
      fieldOwner := fun owner other field type also => Declarations.OwnField.unique
      methods := fun className method entry => built.method?_iff_owner
      bareCalls := fun method entry => ?_
      bareOnly := fun method entry reaches => ⟨fun className => ?_, fun object => ?_⟩
      inheritedFields := fun declared found fits field type => built.field?_of_accepts fits
      inheritedMethods := fun declared found fits method entry => built.method?_of_accepts fits }
  · rw [Declarations.verdict_callee_eq_ok_iff]
    exact Declarations.freeMethod?_eq_some_iff
  · exact built.method?_of_free (Declarations.verdict_callee_eq_ok_iff.mp reaches)
  · cases called : verdict (context.callee (some object) method) with
    | error error => exact ⟨error, rfl⟩
    | ok other =>
      obtain ⟨className, _, found⟩ := Declarations.verdict_callee_eq_ok_iff.mp called
      have free := Declarations.verdict_callee_eq_ok_iff.mp reaches
      rw [built.method?_of_free free] at found
      cases found

/-- Two classes in line with a field and a method each, a method beside them, and an unfinished
class that takes a name of the first one. -/
def pack : Program :=
  [.classDecl
    { name := ⟨"Animal", .zero⟩
      parent := none
      fields := [⟨⟨"$legs", .zero⟩, ⟨"chunk", .zero⟩⟩]
      methods :=
        [{ name := ⟨"speak", .zero⟩
           params := []
           returnType := ⟨"string", .zero⟩
           body := []
           result := none
           span := .zero }]
      span := .zero },
   .classDecl
    { name := ⟨"Dog", .zero⟩
      parent := some ⟨"Animal", .zero⟩
      fields := [⟨⟨"$tail", .zero⟩, ⟨"fraction", .zero⟩⟩]
      methods := []
      span := .zero },
   .method
    { name := ⟨"feed", .zero⟩
      params := []
      returnType := ⟨"none", .zero⟩
      body := []
      result := none
      span := .zero },
   .classDecl
    { name := ⟨"Cat", .zero⟩
      parent := some ⟨"Animal", .zero⟩
      fields := [⟨⟨"$legs", .zero⟩, ⟨"string", .zero⟩⟩]
      methods := []
      span := .zero }]

theorem membersResolve_pack :
    let left := ((∅ : Context).check true pack).context
    let speak : MethodEntry := ⟨"speak", [], .string, some "Animal"⟩
    let feed : MethodEntry := ⟨"feed", [], .none, none⟩
    ((∅ : Context).check true pack).verdict =
        .error ⟨.redeclared (.symbol .field) "$legs", .zero⟩ ∧
      left.field? "Dog" "$legs" = some .chunk ∧ "Animal" ∈ left.hierarchy.ancestors "Dog" ∧
      left.method? "Cat" "speak" = some speak ∧
      left.methods["feed"]? = some feed ∧ left.method? "Dog" "feed" = none := by
  intro left speak feed
  have resolve : left.MembersResolve := Reachable.membersResolve (.check .empty true pack)
  have legs : left.field? "Animal" "$legs" = some .chunk := by decide +kernel
  have voice : left.method? "Animal" "speak" = some speak := by decide +kernel
  have dog := resolve.inheritedFields "Animal" "Dog" (by decide +kernel) _ _ legs
  have cat := resolve.inheritedMethods "Animal" "Cat" (by decide +kernel) _ _ voice
  have called : verdict (left.callee none ⟨"feed", .zero⟩) = .ok feed := rfl
  have declared : left.OwnField "Animal" "$legs" .chunk :=
    ⟨⟨"$legs", .field "Animal", .chunk, 0, .zero⟩, by decide +kernel, rfl, rfl⟩
  obtain ⟨owner, above, own⟩ := (resolve.fields _ _ _).mp dog
  obtain ⟨rfl, _⟩ := resolve.fieldOwner _ _ _ _ _ own declared
  exact ⟨rfl, dog, above, cat, ((resolve.bareCalls _ _).mp called).1,
    (resolve.bareOnly _ _ called).1 "Dog"⟩

end Context

end Sigil
