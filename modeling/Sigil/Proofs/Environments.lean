import Sigil.Proofs.Members
import Sigil.Proofs.TypedNodes

/-! # Tables and the flat list

A check spreads each declaration over its tables; the rules keep one list. `Matches` relates the
two: the list has exactly the values, methods and classes of the tables. Every declaration keeps the
relation, and under it each question that a check asks of its tables is the question that the rules
ask of the list.
-/

namespace Sigil

open Relation (ReflTransGen TransGen)

theorem Role.ofClass?_eq_some_iff {role : Role} {className : String} :
    role.ofClass? = some className ↔ role = .field className := by
  cases role <;> simp [ofClass?]

namespace Declarations

/-- The list has the declarations of the tables, and no others, in the order of the symbols. -/
structure Matches (decls : Declarations) (env : Env) : Prop where
  names : env.map Decl.name = decls.symbols.toList.map Symbol.name
  value : ∀ name type ofClass, .value name type ofClass ∈ env ↔
    ∃ symbol ∈ decls.symbols.toList, symbol.role.isValue = true ∧ symbol.name = name ∧
      symbol.type = type ∧ symbol.role.ofClass? = ofClass
  method : ∀ name params returns owner, .method name params returns owner ∈ env ↔
    decls.methods[name]? = some ⟨name, params, returns, owner⟩
  classDecl : ∀ name parent, .classDecl name parent ∈ env ↔
    decls.knowsClass name = true ∧ decls.hierarchy.parent? name = parent

namespace Matches

variable {decls : Declarations} {env : Env}

theorem empty : ({} : Declarations).Matches [] where
  names := rfl
  value := by simp
  method := by simp
  classDecl := by simp [knowsClass]

theorem addValue (agree : decls.Matches env) {role : Role} (holds : role.isValue = true)
    (name : String) (type : Ty) (span : Span) :
    (decls.addValue role name type span).Matches (env ++ [.value name type role.ofClass?]) where
  names := by simp [agree.names, Decl.name, Symbol.declaredAt]
  value := by
    intro other kind ofClass
    rw [symbols_addValue, SymbolTable.exists_push, List.mem_append, agree.value,
      List.mem_singleton]
    refine or_congr_right ?_
    simp only [Symbol.declaredAt, Decl.value.injEq, holds, true_and]
    constructor <;> rintro ⟨rfl, rfl, rfl⟩ <;> exact ⟨rfl, rfl, rfl⟩
  method := by
    intro other params returns owner
    rw [methods_addValue, ← agree.method]
    simp
  classDecl := by
    intro other parent
    rw [knowsClass_addValue, List.mem_append, agree.classDecl]
    simp only [List.mem_singleton, reduceCtorEq, or_false]
    rfl

theorem addMethod (agree : decls.Matches env) {entry : MethodEntry}
    (absent : decls.methods[entry.name]? = none) (span : Span) :
    (decls.addMethod entry span).Matches
      (env ++ [.method entry.name entry.params entry.returnType entry.owner]) where
  names := by simp [agree.names, Decl.name, Symbol.declaredAt]
  value := by
    intro other kind ofClass
    rw [symbols_addMethod, SymbolTable.exists_push, List.mem_append, agree.value]
    refine or_congr_right ?_
    simp [Symbol.declaredAt, Role.isValue, Role.category, Category.isValue]
  method := by
    intro other params returns owner
    rw [method?_addMethod, List.mem_append, agree.method, List.mem_singleton]
    obtain ⟨name, ownParams, ownReturns, ownOwner⟩ := entry
    by_cases same : name = other
    · subst same
      have earlier : decls.methods[name]? ≠ some ⟨name, params, returns, owner⟩ := by
        intro found
        rw [absent] at found
        cases found
      simp [earlier, eq_comm]
    · simp [same, Ne.symm same]
  classDecl := by
    intro other parent
    rw [knowsClass_addMethod, List.mem_append, agree.classDecl]
    simp only [List.mem_singleton, reduceCtorEq, or_false]
    rfl

theorem addClass (agree : decls.Matches env) {name : String}
    (unknown : decls.knowsClass name = false) (parent : Option String) (span : Span) :
    (decls.addClass name parent span).Matches (env ++ [.classDecl name parent]) where
  names := by simp [agree.names, Decl.name, Symbol.declaredAt]
  value := by
    intro other kind ofClass
    rw [symbols_addClass, SymbolTable.exists_push, List.mem_append, agree.value]
    refine or_congr_right ?_
    simp [Symbol.declaredAt, Role.isValue, Role.category, Category.isValue]
  method := by
    intro other params returns owner
    rw [methods_addClass, ← agree.method]
    simp
  classDecl := by
    intro other ancestor
    rw [knowsClass_addClass, List.mem_append, agree.classDecl, List.mem_singleton,
      Declarations.addClass, Hierarchy.parent?_insert]
    by_cases same : name = other
    · subst same
      simp [unknown, eq_comm]
    · simp [same, Ne.symm same]

/-! ## Questions to the tables are questions to the list -/

theorem holds_iff (agree : decls.Matches env) (built : decls.Built) {name : String} {type : Ty} :
    decls.Holds name type ↔ ∃ ofClass, .value name type ofClass ∈ env := by
  simp only [Holds, agree.value, built.indexed.lookup?_eq_some_iff_mem]
  constructor
  · rintro ⟨symbol, ⟨member, named⟩, holds, typed⟩
    exact ⟨symbol.role.ofClass?, symbol, member, holds, named, typed, rfl⟩
  · rintro ⟨ofClass, symbol, member, holds, named, typed, _⟩
    exact ⟨symbol, ⟨member, named⟩, holds, typed⟩

theorem hasClass_iff (agree : decls.Matches env) {className : String} :
    env.HasClass className ↔ decls.knowsClass className = true := by
  simp only [Env.HasClass, agree.classDecl]
  exact ⟨fun ⟨_, known, _⟩ => known, fun known => ⟨_, known, rfl⟩⟩

theorem known_iff (agree : decls.Matches env) {type : Ty} :
    env.Known type ↔ ∀ className, type = .object className → decls.knowsClass className = true := by
  simp only [Env.Known, agree.hasClass_iff]

/-- The parents that the list declares are those of the hierarchy. -/
theorem inherits_eq (agree : decls.Matches env) (built : decls.Built) :
    env.Inherits = decls.hierarchy.ParentOf := by
  funext child parent
  rw [Env.Inherits, agree.classDecl, Hierarchy.ParentOf, eq_iff_iff, and_iff_right_iff_imp]
  intro inherits
  rw [← built.contains_hierarchy, Hierarchy.contains, Std.ExtTreeMap.contains_iff_mem,
    ← Std.ExtTreeMap.mem_keys]
  exact Hierarchy.mem_keys_of_parent? inherits

/-- A class that inherits, in one or more steps, inherits from a known class. -/
theorem contains_of_inherits (agree : decls.Matches env) (built : decls.Built)
    {start target : String} (path : TransGen env.Inherits start target) :
    decls.hierarchy.contains target = true := by
  rw [built.contains_hierarchy]
  rw [agree.inherits_eq built] at path
  cases path with
  | single inherits => exact built.knowsClass_parent inherits
  | tail _ inherits => exact built.knowsClass_parent inherits

theorem fits_iff (agree : decls.Matches env) (built : decls.Built) {declared found : Ty} :
    decls.hierarchy.accepts declared found = true ↔ env.Fits declared found := by
  rw [Hierarchy.accepts_iff, Env.Fits]
  constructor
  · rintro (same | ⟨target, start, rfl, rfl, _, path⟩)
    · exact .inl same
    · rcases Relation.reflTransGen_iff_eq_or_transGen.mp path with rfl | path
      · exact .inl rfl
      · exact .inr ⟨target, start, rfl, rfl, agree.inherits_eq built ▸ path⟩
  · rintro (same | ⟨target, start, rfl, rfl, path⟩)
    · exact .inl same
    · have known := agree.contains_of_inherits built path
      rw [agree.inherits_eq built] at path
      exact .inr ⟨target, start, rfl, rfl, known, path.to_reflTransGen⟩

/-- A name is fresh in the table exactly when it is fresh in the list. -/
theorem fresh_iff (agree : decls.Matches env) (built : decls.Built) {name : String} :
    decls.symbols.contains name = false ↔ env.Fresh name := by
  have listed : (∃ decl ∈ env, decl.name = name) ↔
      ∃ symbol ∈ decls.symbols.toList, symbol.name = name := by
    simpa only [List.mem_map] using iff_of_eq (congrArg (name ∈ ·) agree.names)
  rw [← Bool.not_eq_true, built.indexed.contains_iff, ← listed, Env.Fresh]
  simp only [not_exists, not_and]

theorem field?_iff (agree : decls.Matches env) (built : decls.Built) {className field : String}
    {type : Ty} :
    decls.field? className field = some type ↔
      ∃ owner, ReflTransGen env.Inherits className owner ∧
        .value field type (some owner) ∈ env := by
  rw [built.field?_eq_some_iff, agree.inherits_eq built]
  refine exists_congr fun owner => and_congr_right fun _ => ?_
  simp only [agree.value, Role.ofClass?_eq_some_iff]
  refine exists_congr fun symbol => and_congr_right fun _ => ?_
  constructor
  · rintro ⟨named, role, typed⟩
    exact ⟨by rw [role]; rfl, named, typed, role⟩
  · rintro ⟨_, named, typed, role⟩
    exact ⟨named, role, typed⟩

/-- A bare call reaches the methods that no class declares. -/
theorem reaches_none_iff (agree : decls.Matches env) (built : decls.Built) {method : Ident}
    {entry : MethodEntry} :
    decls.Reaches none method entry ↔
      ∃ params returns, entry = ⟨method.name, params, returns, none⟩ ∧
        .method method.name params returns none ∈ env := by
  rw [Reaches, freeMethod?_eq_some_iff]
  simp only [agree.method]
  constructor
  · rintro ⟨found, free⟩
    obtain ⟨named, _⟩ := built.method_entry found
    obtain ⟨name, params, returns, owner⟩ := entry
    obtain rfl : name = method.name := named
    obtain rfl : owner = none := free
    exact ⟨params, returns, rfl, found⟩
  · rintro ⟨params, returns, rfl, found⟩
    exact ⟨found, rfl⟩

/-- A call on an object reaches the methods of its class and of those that it inherits from. -/
theorem reaches_some_iff (agree : decls.Matches env) (built : decls.Built)
    {object method : Ident} {entry : MethodEntry} :
    decls.Reaches (some object) method entry ↔
      ∃ className owner ofClass params returns,
        entry = ⟨method.name, params, returns, some owner⟩ ∧
          .value object.name (.object className) ofClass ∈ env ∧
          ReflTransGen env.Inherits className owner ∧
          .method method.name params returns (some owner) ∈ env := by
  simp only [Reaches, agree.holds_iff built, built.method?_eq_some_iff, agree.inherits_eq built,
    agree.method]
  constructor
  · rintro ⟨className, ⟨ofClass, holds⟩, found, owner, owned, path⟩
    obtain ⟨named, _⟩ := built.method_entry found
    obtain ⟨name, params, returns, ofOwner⟩ := entry
    obtain rfl : name = method.name := named
    obtain rfl : ofOwner = some owner := owned
    exact ⟨className, owner, ofClass, params, returns, rfl, holds, path, found⟩
  · rintro ⟨className, owner, ofClass, params, returns, rfl, holds, path, found⟩
    exact ⟨className, ⟨ofClass, holds⟩, found, owner, rfl, path⟩

end Matches

/-- Built declarations have a list that matches them. -/
theorem Built.exists_matches {decls : Declarations} (built : decls.Built) :
    ∃ env, decls.Matches env := by
  induction built with
  | refl => exact ⟨[], .empty⟩
  | tail earlier step ih =>
    obtain ⟨env, agree⟩ := ih
    cases step with
    | value span holds _ _ _ _ => exact ⟨_, agree.addValue holds _ _ span⟩
    | method span _ fresh _ _ _ _ _ =>
      exact ⟨_, agree.addMethod (Built.method?_of_fresh earlier fresh) span⟩
    | classDecl span _ _ fresh _ =>
      exact ⟨_, agree.addClass (Built.not_knowsClass_of_fresh earlier fresh) _ span⟩

end Declarations

end Sigil
