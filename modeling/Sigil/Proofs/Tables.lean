import Sigil.Proofs.Ancestry
import Sigil.Proofs.Lookup
import Sigil.Proofs.Steps

/-! # The tables agree

The symbols, the hierarchy, the class table and the method table are separate values, updated at
different moments of a walk that may stop between any two of them. In every reachable context they
still tell the same story: each class and each method has one symbol and one entry, a class lists
exactly the members that are declared as its own, in the order of their declaration, and a method
lists the parameters that stand right before it. Each clause is kept by every step.
-/

namespace Sigil

open Relation (ReflTransGen)
open SymbolTable (forall_push exists_push)

/-- Among the symbols there is that of a method, right after those of its parameters. -/
def MethodEntry.ListedIn (entry : MethodEntry) (symbols : List Symbol) : Prop :=
  ∃ prior params symbol later, symbols = prior ++ params ++ symbol :: later ∧
    symbol.role = .method ∧ symbol.name = entry.name ∧ symbol.type = entry.returnType ∧
    (∀ param ∈ params, param.role = .param entry.name) ∧
    entry.params = params.map fun param => (param.name, param.type)

theorem MethodEntry.ListedIn.append {entry : MethodEntry} {symbols : List Symbol}
    (listed : entry.ListedIn symbols) (more : List Symbol) : entry.ListedIn (symbols ++ more) := by
  obtain ⟨prior, params, symbol, later, rfl, rest⟩ := listed
  exact ⟨prior, params, symbol, later ++ more, by simp, rest⟩

namespace Declarations

section Views

variable {decls : Declarations} {role : Role} {name : String} {type : Ty} {span : Span}
  {entry : MethodEntry} {parent : Option String} (key : String)

theorem class?_addValue : (decls.addValue role name type span).classes[key]? =
    if role = .field key then decls.classes[key]?.map (·.addField name type)
    else decls.classes[key]? := by
  cases role with
  | field className =>
    by_cases same : className = key
    · subst same
      simp [addValue]
    · simp [addValue, Std.ExtTreeMap.getElem?_modify, same]
  | _ => rfl

theorem class?_addMethod : (decls.addMethod entry span).classes[key]? =
    if entry.owner = some key then decls.classes[key]?.map (·.addMethod entry.name)
    else decls.classes[key]? := by
  obtain ⟨method, params, returnType, owner⟩ := entry
  cases owner with
  | none => rfl
  | some className =>
    by_cases same : className = key
    · subst same
      simp [addMethod]
    · simp [addMethod, Std.ExtTreeMap.getElem?_modify, same]

theorem class?_addClass : (decls.addClass name parent span).classes[key]? =
    if name = key then some { name, parent, span } else decls.classes[key]? := by
  by_cases same : name = key <;> simp [addClass, Std.ExtTreeMap.getElem?_insert, same]

theorem parents_addClass : (decls.addClass name parent span).hierarchy.parents[key]? =
    if name = key then some parent else decls.hierarchy.parents[key]? := by
  change (decls.hierarchy.parents.insert name parent)[key]? = _
  by_cases same : name = key <;> simp [Std.ExtTreeMap.getElem?_insert, same]

theorem methods_addValue : (decls.addValue role name type span).methods = decls.methods := rfl

theorem methods_addClass : (decls.addClass name parent span).methods = decls.methods := rfl

theorem method?_addMethod : (decls.addMethod entry span).methods[key]? =
    if entry.name = key then some entry else decls.methods[key]? := by
  by_cases same : entry.name = key <;> simp [addMethod, Std.ExtTreeMap.getElem?_insert, same]

/-- A new value leaves all of a class entry but its fields. -/
theorem class?_of_addValue {later : ClassEntry}
    (found : (decls.addValue role name type span).classes[key]? = some later) :
    ∃ earlier : ClassEntry, decls.classes[key]? = some earlier ∧ later.name = earlier.name ∧
      later.parent = earlier.parent ∧ later.span = earlier.span ∧
      later.methods = earlier.methods := by
  rw [class?_addValue] at found
  split at found
  · obtain ⟨earlier, present, rfl⟩ := Option.map_eq_some_iff.mp found
    exact ⟨earlier, present, rfl, rfl, rfl, rfl⟩
  · exact ⟨later, found, rfl, rfl, rfl, rfl⟩

/-- A new method leaves all of a class entry but its methods. -/
theorem class?_of_addMethod {later : ClassEntry}
    (found : (decls.addMethod entry span).classes[key]? = some later) :
    ∃ earlier : ClassEntry, decls.classes[key]? = some earlier ∧ later.name = earlier.name ∧
      later.parent = earlier.parent ∧ later.span = earlier.span ∧
      later.fields = earlier.fields := by
  rw [class?_addMethod] at found
  split at found
  · obtain ⟨earlier, present, rfl⟩ := Option.map_eq_some_iff.mp found
    exact ⟨earlier, present, rfl, rfl, rfl, rfl⟩
  · exact ⟨later, found, rfl, rfl, rfl, rfl⟩

end Views

/-- The fields of a class, as the symbols list them. -/
def ownFields (decls : Declarations) (className : String) : List (String × Ty) :=
  (decls.symbols.toList.filter fun symbol => symbol.role = .field className).map
    fun symbol => (symbol.name, symbol.type)

/-- Whether a symbol is a method that a class declares, by the method table. -/
def owns (decls : Declarations) (className : String) (symbol : Symbol) : Bool :=
  symbol.role = .method && (decls.methods[symbol.name]?.bind MethodEntry.owner) = some className

/-- The methods of a class, as the symbols list them. -/
def ownMethods (decls : Declarations) (className : String) : List String :=
  (decls.symbols.toList.filter (decls.owns className)).map Symbol.name

section Members

variable {decls : Declarations} {role : Role} {name : String} {type : Ty} {span : Span}
  {entry : MethodEntry} {parent : Option String} (key : String)

theorem ownFields_addValue : (decls.addValue role name type span).ownFields key =
    if role = .field key then decls.ownFields key ++ [(name, type)] else decls.ownFields key := by
  by_cases own : role = .field key <;>
    simp [ownFields, Symbol.declaredAt, List.filter_append, own]

theorem ownFields_addMethod :
    (decls.addMethod entry span).ownFields key = decls.ownFields key := by
  simp [ownFields, Symbol.declaredAt, List.filter_append]

theorem ownFields_addClass :
    (decls.addClass name parent span).ownFields key = decls.ownFields key := by
  simp [ownFields, Symbol.declaredAt, List.filter_append]

theorem ownMethods_addValue (holds : role.isValue = true) :
    (decls.addValue role name type span).ownMethods key = decls.ownMethods key := by
  have other : role ≠ .method := by
    rintro rfl
    cases holds
  have same : (decls.addValue role name type span).owns key = decls.owns key := rfl
  simp [ownMethods, owns, Symbol.declaredAt, List.filter_append, other, same]

theorem ownMethods_addClass :
    (decls.addClass name parent span).ownMethods key = decls.ownMethods key := by
  have same : (decls.addClass name parent span).owns key = decls.owns key := rfl
  simp [ownMethods, owns, Symbol.declaredAt, List.filter_append, same]

end Members

namespace Built

variable {decls : Declarations}

theorem indexed (built : decls.Built) : decls.symbols.Indexed := by
  induction built with
  | refl => exact SymbolTable.indexed_empty
  | tail _ step ih =>
    cases step with
    | value _ _ _ fresh _ _ => exact ih.push fresh
    | method _ _ fresh _ _ _ _ _ => exact ih.push fresh
    | classDecl _ _ _ fresh _ => exact ih.push fresh

/-- What every new symbol has, every symbol has. -/
theorem forall_symbols {P : Symbol → Prop} (built : decls.Built)
    (value : ∀ {role name type span}, role.isValue = true → variableNameFault? name = none →
      P (.declaredAt name role type span))
    (method : ∀ {name type span}, isIdentifier name = true → P (.declaredAt name .method type span))
    (classDecl : ∀ {name span}, isIdentifier name = true → name ∉ builtinTypeNames →
      P (.declaredAt name .classType (.object name) span)) :
    ∀ symbol ∈ decls.symbols.toList, P symbol := by
  induction built with
  | refl => simp
  | tail _ step ih =>
    cases step with
    | value _ holds named _ _ _ => exact forall_push.mpr ⟨ih, value holds named⟩
    | method _ named _ _ _ _ _ _ => exact forall_push.mpr ⟨ih, method named⟩
    | classDecl _ named notBuiltin _ _ => exact forall_push.mpr ⟨ih, classDecl named notBuiltin⟩

theorem valueName (built : decls.Built) : ∀ symbol ∈ decls.symbols.toList,
    symbol.role.isValue = true → variableNameFault? symbol.name = none :=
  built.forall_symbols (fun _ named _ => named) (fun _ value => nomatch value)
    (fun _ _ value => nomatch value)

theorem plainName (built : decls.Built) : ∀ symbol ∈ decls.symbols.toList,
    symbol.role.isValue = false → isIdentifier symbol.name = true :=
  built.forall_symbols (fun holds _ plain => nomatch holds.symm.trans plain)
    (fun named _ => named) (fun named _ _ => named)

theorem className (built : decls.Built) : ∀ symbol ∈ decls.symbols.toList,
    symbol.role = .classType →
      symbol.name ∉ builtinTypeNames ∧ symbol.type = .object symbol.name :=
  built.forall_symbols
    (fun holds _ same => by cases same; cases holds)
    (fun _ same => nomatch same) (fun _ notBuiltin _ => ⟨notBuiltin, rfl⟩)

/-- The known classes are the names of the class symbols. -/
theorem knowsClass_iff (built : decls.Built) (key : String) :
    decls.knowsClass key = true ↔
      ∃ symbol ∈ decls.symbols.toList, symbol.role = .classType ∧ symbol.name = key := by
  induction built with
  | refl => simp [knowsClass]
  | tail _ step ih =>
    cases step with
    | value _ holds _ _ _ _ =>
      rw [symbols_addValue, exists_push, knowsClass_addValue, ih, or_iff_left]
      rintro ⟨same, _⟩
      cases same
      cases holds
    | method _ _ _ _ _ _ _ _ =>
      rw [symbols_addMethod, exists_push, knowsClass_addMethod, ih, or_iff_left]
      rintro ⟨same, _⟩
      cases same
    | classDecl _ _ _ _ _ =>
      rw [symbols_addClass, exists_push, knowsClass_addClass, Bool.or_eq_true, ih, or_comm]
      simp [Symbol.declaredAt]

theorem contains_hierarchy (built : decls.Built) (key : String) :
    decls.hierarchy.contains key = decls.knowsClass key := by
  induction built with
  | refl => simp [knowsClass]
  | tail _ step ih =>
    cases step with
    | value _ _ _ _ _ _ => rw [knowsClass_addValue]; exact ih
    | method _ _ _ _ _ _ _ _ => rw [knowsClass_addMethod]; exact ih
    | classDecl _ _ _ _ _ =>
      rw [knowsClass_addClass, ← ih]
      exact Hierarchy.contains_insert _ _ _ _

/-- A parent was known before its child. -/
theorem knowsClass_parent (built : decls.Built) {child parent : String}
    (inherits : decls.hierarchy.parent? child = some parent) :
    decls.knowsClass parent = true := by
  induction built with
  | refl => simp at inherits
  | tail _ step ih =>
    cases step with
    | value _ _ _ _ _ _ => rw [knowsClass_addValue]; exact ih inherits
    | method _ _ _ _ _ _ _ _ => rw [knowsClass_addMethod]; exact ih inherits
    | classDecl _ _ _ _ known =>
      rw [knowsClass_addClass, Bool.or_eq_true]
      right
      rw [addClass, Hierarchy.parent?_insert] at inherits
      split at inherits
      · exact known parent inherits
      · exact ih inherits

/-- A fresh name is not that of a class. -/
theorem not_knowsClass_of_fresh (built : decls.Built) {name : String}
    (fresh : decls.symbols.contains name = false) : decls.knowsClass name = false := by
  rw [← Bool.not_eq_true, built.knowsClass_iff]
  rintro ⟨symbol, member, _, named⟩
  exact built.indexed.name_ne_of_fresh fresh member named

/-- A class has the entry that was made with its symbol, but for its members. -/
theorem class_entry (built : decls.Built) {key : String} {entry : ClassEntry}
    (found : decls.classes[key]? = some entry) :
    entry.name = key ∧ entry.parent = decls.hierarchy.parent? key ∧
      ∃ symbol ∈ decls.symbols.toList,
        symbol.role = .classType ∧ symbol.name = key ∧ symbol.span = entry.span := by
  induction built generalizing entry with
  | refl => simp at found
  | tail _ step ih =>
    cases step with
    | value _ _ _ _ _ _ =>
      obtain ⟨earlier, present, name, parent, span, _⟩ := class?_of_addValue key found
      obtain ⟨named, inherits, symbol⟩ := ih present
      rw [name, parent, span, symbols_addValue, exists_push]
      exact ⟨named, inherits, .inl symbol⟩
    | method _ _ _ _ _ _ _ _ =>
      obtain ⟨earlier, present, name, parent, span, _⟩ := class?_of_addMethod key found
      obtain ⟨named, inherits, symbol⟩ := ih present
      rw [name, parent, span, symbols_addMethod, exists_push]
      exact ⟨named, inherits, .inl symbol⟩
    | classDecl _ _ _ _ _ =>
      rw [symbols_addClass, exists_push]
      rw [class?_addClass] at found
      split at found
      · next same =>
        cases found
        subst same
        refine ⟨rfl, ?_, .inr ⟨rfl, rfl, rfl⟩⟩
        rw [addClass, Hierarchy.parent?_insert, if_pos rfl]
      · next other =>
        obtain ⟨named, inherits, symbol⟩ := ih found
        refine ⟨named, ?_, .inl symbol⟩
        rw [addClass, Hierarchy.parent?_insert, if_neg other]
        exact inherits

/-- The class of a field is known. -/
theorem knowsClass_of_field (built : decls.Built) {className : String} :
    ∀ symbol ∈ decls.symbols.toList, symbol.role = .field className →
      decls.knowsClass className = true := by
  induction built with
  | refl => simp
  | tail _ step ih =>
    cases step with
    | value _ _ _ _ _ owned =>
      rw [knowsClass_addValue]
      exact forall_push.mpr ⟨ih, owned className⟩
    | method _ _ _ _ _ _ _ _ =>
      rw [knowsClass_addMethod]
      exact forall_push.mpr ⟨ih, fun field => nomatch field⟩
    | classDecl _ _ _ _ _ =>
      rw [knowsClass_addClass]
      refine forall_push.mpr ⟨fun symbol member field => ?_, fun field => nomatch field⟩
      rw [ih symbol member field, Bool.or_true]

/-- A class lists its own fields, in the order of their declaration. -/
theorem fields_eq (built : decls.Built) {key : String} {entry : ClassEntry}
    (found : decls.classes[key]? = some entry) : entry.fields = decls.ownFields key := by
  induction built generalizing entry with
  | refl => simp at found
  | tail earlier step ih =>
    cases step with
    | value _ _ _ _ _ _ =>
      rw [ownFields_addValue]
      rw [class?_addValue] at found
      split at found
      · next own =>
        obtain ⟨old, present, rfl⟩ := Option.map_eq_some_iff.mp found
        rw [if_pos own, ClassEntry.addField, ih present]
      · next other => rw [if_neg other, ih found]
    | method _ _ _ _ _ _ _ _ =>
      obtain ⟨old, present, _, _, _, fields⟩ := class?_of_addMethod key found
      rw [ownFields_addMethod, fields, ih present]
    | classDecl _ _ _ fresh _ =>
      rw [ownFields_addClass]
      rw [class?_addClass] at found
      split at found
      · next same =>
        -- Nothing was declared as a field of the class before the class itself.
        cases found
        subst same
        symm
        rw [ownFields, List.map_eq_nil_iff, List.filter_eq_nil_iff]
        intro symbol member field
        have known := knowsClass_of_field earlier symbol member (of_decide_eq_true field)
        rw [not_knowsClass_of_fresh earlier fresh] at known
        cases known
      · exact ih found

/-- The methods in the table are those with a symbol. -/
theorem isSome_method?_iff (built : decls.Built) (key : String) :
    decls.methods[key]?.isSome = true ↔
      ∃ symbol ∈ decls.symbols.toList, symbol.role = .method ∧ symbol.name = key := by
  induction built with
  | refl => simp
  | tail _ step ih =>
    cases step with
    | value _ holds _ _ _ _ =>
      rw [symbols_addValue, exists_push, methods_addValue, ih, or_iff_left]
      rintro ⟨same, _⟩
      cases same
      cases holds
    | method _ _ _ _ _ _ _ _ =>
      rw [symbols_addMethod, exists_push, method?_addMethod]
      split
      · next same => simp [Symbol.declaredAt, same]
      · next other =>
        rw [ih, or_iff_left]
        exact fun new => other new.2
    | classDecl _ _ _ _ _ =>
      rw [symbols_addClass, exists_push, methods_addClass, ih, or_iff_left]
      rintro ⟨same, _⟩
      cases same

/-- A fresh name is not that of a method. -/
theorem method?_of_fresh (built : decls.Built) {name : String}
    (fresh : decls.symbols.contains name = false) : decls.methods[name]? = none := by
  rw [← Option.not_isSome_iff_eq_none, built.isSome_method?_iff]
  rintro ⟨symbol, member, _, named⟩
  exact built.indexed.name_ne_of_fresh fresh member named

/-- The class of a method is known. -/
theorem knowsClass_of_method (built : decls.Built) {key className : String} {entry : MethodEntry}
    (found : decls.methods[key]? = some entry) (owned : entry.owner = some className) :
    decls.knowsClass className = true := by
  induction built with
  | refl => simp at found
  | tail _ step ih =>
    cases step with
    | value _ _ _ _ _ _ =>
      rw [knowsClass_addValue]
      exact ih found
    | method _ _ _ _ known _ _ _ =>
      rw [knowsClass_addMethod]
      rw [method?_addMethod] at found
      split at found
      · cases found
        exact known className owned
      · exact ih found
    | classDecl _ _ _ _ _ =>
      rw [knowsClass_addClass, ih found, Bool.or_true]

/-- A symbol with another name is owned as before a method was added. -/
theorem filter_owns_addMethod (built : decls.Built) {entry : MethodEntry} {span : Span}
    (fresh : decls.symbols.contains entry.name = false) (key : String) :
    decls.symbols.toList.filter ((decls.addMethod entry span).owns key) =
      decls.symbols.toList.filter (decls.owns key) := by
  refine List.filter_congr fun symbol member => ?_
  have other := built.indexed.name_ne_of_fresh fresh member
  rw [owns, owns, method?_addMethod, if_neg other.symm]

/-- A class lists its own methods, in the order of their declaration. -/
theorem methods_eq (built : decls.Built) {key : String} {entry : ClassEntry}
    (found : decls.classes[key]? = some entry) : entry.methods = decls.ownMethods key := by
  induction built generalizing entry with
  | refl => simp at found
  | tail earlier step ih =>
    cases step with
    | value _ holds _ _ _ _ =>
      obtain ⟨old, present, _, _, _, methods⟩ := class?_of_addValue key found
      rw [ownMethods_addValue key holds, methods, ih present]
    | method _ _ fresh _ _ _ _ _ =>
      rw [ownMethods, symbols_addMethod, SymbolTable.toList_push, List.filter_append,
        filter_owns_addMethod earlier fresh, List.map_append, ← ownMethods]
      rw [class?_addMethod] at found
      split at found
      · next own =>
        obtain ⟨old, present, rfl⟩ := Option.map_eq_some_iff.mp found
        rw [ClassEntry.addMethod, ih present]
        simp [owns, Symbol.declaredAt, method?_addMethod, own]
      · next other =>
        rw [ih found]
        simp [owns, Symbol.declaredAt, method?_addMethod, other]
    | classDecl _ _ _ fresh _ =>
      rw [ownMethods_addClass]
      rw [class?_addClass] at found
      split at found
      · next same =>
        -- No method was declared in the class before the class itself.
        cases found
        subst same
        symm
        rw [ownMethods, List.map_eq_nil_iff, List.filter_eq_nil_iff]
        intro symbol member owned
        obtain ⟨_, owner⟩ := Bool.and_eq_true_iff.mp owned
        obtain ⟨method, present, owner⟩ := Option.bind_eq_some_iff.mp (of_decide_eq_true owner)
        have known := knowsClass_of_method earlier present owner
        rw [not_knowsClass_of_fresh earlier fresh] at known
        cases known
      · exact ih found

/-- A method has the entry that was made with its symbol and its parameters. -/
theorem method_entry (built : decls.Built) {key : String} {entry : MethodEntry}
    (found : decls.methods[key]? = some entry) :
    entry.name = key ∧ entry.ListedIn decls.symbols.toList := by
  induction built with
  | refl => simp at found
  | tail _ step ih =>
    cases step with
    | value _ _ _ _ _ _ =>
      rw [symbols_addValue, SymbolTable.toList_push]
      exact (ih found).imp_right (·.append _)
    | method _ _ _ _ _ last listed roles =>
      rw [symbols_addMethod, SymbolTable.toList_push]
      rw [method?_addMethod] at found
      split at found
      · next same =>
        cases found
        exact ⟨same, _, _, _, [], congrArg (· ++ _) last, rfl, rfl, rfl, roles, listed.symm⟩
      · exact (ih found).imp_right (·.append _)
    | classDecl _ _ _ _ _ =>
      rw [symbols_addClass, SymbolTable.toList_push]
      exact (ih found).imp_right (·.append _)

end Built

end Declarations

end Sigil
