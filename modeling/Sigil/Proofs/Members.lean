import Sigil.Proofs.Tables

/-! # Finding names and members

A field or method of an object is searched along the parents of its class, in the entries of the
classes. Since the entries list what the symbols declare, the search finds exactly the members that
are declared in the class or in one that it descends from, and a name leaves no choice.
-/

namespace Sigil.Declarations

open Relation (ReflTransGen)

variable {decls : Declarations}

/-- The entries that a search meets are those of the classes that a class descends from. -/
theorem mem_lineage_iff {className : String} {entry : ClassEntry} :
    entry ∈ decls.lineage className ↔
      ∃ ancestor, ReflTransGen decls.hierarchy.ParentOf className ancestor ∧
        decls.classes[ancestor]? = some entry := by
  simp only [lineage, List.mem_filterMap, Hierarchy.mem_ancestors_iff]

/-- The entry of a known class. -/
theorem exists_class {className : String} (known : decls.knowsClass className = true) :
    ∃ entry, decls.classes[className]? = some entry := by
  rw [knowsClass, Std.ExtTreeMap.contains_eq_isSome_getElem?] at known
  exact Option.isSome_iff_exists.mp known

theorem mem_ownFields_iff {className field : String} {type : Ty} :
    (field, type) ∈ decls.ownFields className ↔
      ∃ symbol ∈ decls.symbols.toList,
        symbol.name = field ∧ symbol.role = .field className ∧ symbol.type = type := by
  simp only [ownFields, List.mem_map, List.mem_filter, decide_eq_true_eq, Prod.mk.injEq]
  grind

theorem freeMethod?_eq_some_iff {method : String} {entry : MethodEntry} :
    decls.freeMethod? method = some entry ↔
      decls.methods[method]? = some entry ∧ entry.owner = none := by
  simp [freeMethod?, Option.filter_eq_some_iff]

namespace Built

/-- A field that a search finds is declared in the class or in one that it descends from. -/
theorem field_of_field? (built : decls.Built) {className field : String} {type : Ty}
    (found : decls.field? className field = some type) :
    ∃ ancestor, ReflTransGen decls.hierarchy.ParentOf className ancestor ∧
      ∃ symbol ∈ decls.symbols.toList,
        symbol.name = field ∧ symbol.role = .field ancestor ∧ symbol.type = type := by
  obtain ⟨entry, member, lists⟩ := List.exists_of_findSome?_eq_some found
  obtain ⟨ancestor, descends, present⟩ := mem_lineage_iff.mp member
  rw [ClassEntry.fieldType?, built.fields_eq present] at lists
  refine ⟨ancestor, descends, mem_ownFields_iff.mp ?_⟩
  obtain ⟨before, after, split, _⟩ := List.lookup_eq_some_iff.mp lists
  rw [split]
  simp

/-- A class has a field by a name exactly when the field is declared in it or in a class that it
descends from. -/
theorem field?_eq_some_iff (built : decls.Built) {className field : String} {type : Ty} :
    decls.field? className field = some type ↔
      ∃ ancestor, ReflTransGen decls.hierarchy.ParentOf className ancestor ∧
        ∃ symbol ∈ decls.symbols.toList,
          symbol.name = field ∧ symbol.role = .field ancestor ∧ symbol.type = type := by
  constructor
  · exact built.field_of_field?
  · rintro ⟨ancestor, descends, symbol, member, named, role, typed⟩
    obtain ⟨entry, present⟩ := exists_class (built.knowsClass_of_field symbol member role)
    have listed : (field, type) ∈ entry.fields := by
      rw [built.fields_eq present]
      exact mem_ownFields_iff.mpr ⟨symbol, member, named, role, typed⟩
    -- The search finds some field by the name, and the name has only one symbol.
    cases found : decls.field? className field with
    | none =>
      have missing := List.findSome?_eq_none_iff.mp found entry
        (mem_lineage_iff.mpr ⟨ancestor, descends, present⟩)
      rw [ClassEntry.fieldType?, List.lookup_eq_none_iff] at missing
      simpa using missing _ listed
    | some other =>
      obtain ⟨_, _, again, also, sameName, _, otherType⟩ := built.field_of_field? found
      obtain rfl := built.indexed.eq_of_name_eq member also (named.trans sameName.symm)
      rw [← otherType, typed]

theorem mem_ownMethods_iff (built : decls.Built) {className method : String} :
    method ∈ decls.ownMethods className ↔
      ∃ entry, decls.methods[method]? = some entry ∧ entry.owner = some className := by
  simp only [ownMethods, owns, List.mem_map, List.mem_filter, Bool.and_eq_true, decide_eq_true_eq,
    Option.bind_eq_some_iff]
  constructor
  · rintro ⟨symbol, ⟨_, _, entry, present, owned⟩, rfl⟩
    exact ⟨entry, present, owned⟩
  · rintro ⟨entry, present, owned⟩
    obtain ⟨symbol, member, role, rfl⟩ :=
      (built.isSome_method?_iff method).mp (by rw [present]; rfl)
    exact ⟨symbol, ⟨member, role, entry, present, owned⟩, rfl⟩

/-- A class has a method by a name exactly when the method is declared in it or in a class that it
descends from. -/
theorem method?_eq_some_iff (built : decls.Built) {className method : String}
    {entry : MethodEntry} :
    decls.method? className method = some entry ↔
      decls.methods[method]? = some entry ∧ ∃ ancestor, entry.owner = some ancestor ∧
        ReflTransGen decls.hierarchy.ParentOf className ancestor := by
  have search : ((decls.lineage className).any fun entry => entry.hasMethod method) = true ↔
      ∃ ancestor, ReflTransGen decls.hierarchy.ParentOf className ancestor ∧
        ∃ entry, decls.methods[method]? = some entry ∧ entry.owner = some ancestor := by
    simp only [List.any_eq_true, mem_lineage_iff, ClassEntry.hasMethod, List.contains_iff_mem]
    constructor
    · rintro ⟨found, ⟨ancestor, descends, present⟩, lists⟩
      rw [built.methods_eq present, built.mem_ownMethods_iff] at lists
      exact ⟨ancestor, descends, lists⟩
    · rintro ⟨ancestor, descends, entry, present, owned⟩
      obtain ⟨found, known⟩ := exists_class (built.knowsClass_of_method present owned)
      refine ⟨found, ⟨ancestor, descends, known⟩, ?_⟩
      rw [built.methods_eq known, built.mem_ownMethods_iff]
      exact ⟨entry, present, owned⟩
  rw [method?]
  split
  · next some =>
    obtain ⟨ancestor, descends, found, present, owned⟩ := search.mp some
    constructor
    · intro same
      obtain rfl := Option.some.inj (present.symm.trans same)
      exact ⟨same, ancestor, owned, descends⟩
    · exact And.left
  · next none =>
    constructor
    · exact fun absurd => nomatch absurd
    · rintro ⟨present, ancestor, owned, descends⟩
      exact absurd (search.mpr ⟨ancestor, descends, entry, present, owned⟩) none

/-- A readable name is a declared value. -/
theorem value_of_readable (built : decls.Built) {name : String} (readable : decls.Readable name) :
    ∃ symbol ∈ decls.symbols.toList, symbol.name = name ∧ symbol.role.isValue = true := by
  rcases readable with ⟨symbol, found, holds⟩ | ⟨className, type, found⟩
  · obtain ⟨member, named⟩ := built.indexed.lookup?_eq_some_iff_mem.mp found
    exact ⟨symbol, member, named, holds⟩
  · obtain ⟨ancestor, _, symbol, member, named, role, _⟩ := built.field_of_field? found
    exact ⟨symbol, member, named, by rw [role]; rfl⟩

end Built

/-- A name that a variable may have is taken by values only. -/
theorem Built.isValue_of_variable {decls : Declarations} (built : decls.Built) {name : String}
    {symbol : Symbol} (named : variableNameFault? name = none)
    (found : decls.symbols.lookup? name = some symbol) : symbol.role.isValue = true := by
  obtain ⟨member, rfl⟩ := built.indexed.lookup?_eq_some_iff_mem.mp found
  cases holds : symbol.role.isValue with
  | true => rfl
  | false =>
    have identifier := built.plainName symbol member holds
    rw [not_isIdentifier_of_variable named] at identifier
    cases identifier

/-- A name that a method or class may have is taken by methods and classes only. -/
theorem Built.isValue_of_identifier {decls : Declarations} (built : decls.Built) {name : String}
    {symbol : Symbol} (named : isIdentifier name = true)
    (found : decls.symbols.lookup? name = some symbol) : symbol.role.isValue = false := by
  obtain ⟨member, rfl⟩ := built.indexed.lookup?_eq_some_iff_mem.mp found
  cases holds : symbol.role.isValue with
  | true =>
    rw [not_isIdentifier_of_variable (built.valueName symbol member holds)] at named
    cases named
  | false => rfl

/-! ## What names and calls reach -/

variable {decls : Declarations}

/-- A name holds a value of a type. -/
def Holds (decls : Declarations) (name : String) (type : Ty) : Prop :=
  ∃ symbol, decls.symbols.lookup? name = some symbol ∧ symbol.role.isValue = true ∧
    symbol.type = type

/-- A call, on a receiver or bare, reaches a method. -/
def Reaches (decls : Declarations) (receiver : Option Ident) (method : Ident)
    (entry : MethodEntry) : Prop :=
  match receiver with
  | none => decls.freeMethod? method.name = some entry
  | some object =>
      ∃ className, decls.Holds object.name (.object className) ∧
        decls.method? className method.name = some entry

theorem verdict_readValue_eq_ok_iff {target : Ident} {type : Ty} :
    verdict (decls.readValue target) = .ok type ↔ decls.Holds target.name type := by
  rw [verdict_readValue, Holds]
  cases decls.symbols.lookup? target.name with
  | none => simp
  | some symbol => cases holds : symbol.role.isValue <;> simp [holds]

theorem verdict_readObject_eq_ok_iff {target : Ident} {className : String} :
    verdict (decls.readObject target) = .ok className ↔
      decls.Holds target.name (.object className) := by
  rw [verdict_readObject, except_bind_eq_ok_iff, ← verdict_readValue_eq_ok_iff]
  constructor
  · rintro ⟨type, read, object⟩
    cases type with
    | object name => cases object; exact read
    | _ => cases object
  · exact fun read => ⟨_, read, rfl⟩

theorem verdict_inferField_eq_ok_iff {object field : Ident} {type : Ty} :
    verdict (decls.inferField object field) = .ok type ↔
      ∃ className, decls.Holds object.name (.object className) ∧
        decls.field? className field.name = some type := by
  simp only [verdict_inferField, except_bind_eq_ok_iff, verdict_readObject_eq_ok_iff]
  refine exists_congr fun className => and_congr_right fun _ => ?_
  cases decls.field? className field.name <;> simp

theorem verdict_callee_eq_ok_iff {receiver : Option Ident} {method : Ident} {entry : MethodEntry} :
    verdict (decls.callee receiver method) = .ok entry ↔ decls.Reaches receiver method entry := by
  cases receiver with
  | none =>
    rw [verdict_callee_bare, Reaches]
    cases decls.freeMethod? method.name <;> simp
  | some object =>
    simp only [verdict_callee_on, except_bind_eq_ok_iff, verdict_readObject_eq_ok_iff, Reaches]
    refine exists_congr fun className => and_congr_right fun _ => ?_
    cases decls.method? className method.name <;> simp

/-- A call reaches the entry by its own name. -/
theorem Built.method?_of_reaches (built : decls.Built) {receiver : Option Ident} {method : Ident}
    {entry : MethodEntry} (reaches : decls.Reaches receiver method entry) :
    decls.methods[method.name]? = some entry := by
  cases receiver with
  | none => exact (freeMethod?_eq_some_iff.mp reaches).1
  | some object =>
    obtain ⟨className, _, found⟩ := reaches
    exact (built.method?_eq_some_iff.mp found).1

end Sigil.Declarations
