import Mathlib.Data.List.Basic
import Mathlib.Logic.Equiv.Basic
import Sigil.Proofs.Effects

/-! # Changing names

A renaming gives every name another one, no two of them the same, keeps the names of the built-in
types, and keeps what may name a variable, a method or a class. A program is renamed by renaming
each name and each written type in it; spans and texts stay. What a check stores is renamed along:
`Declarations.Renamed` relates the tables before to those after, look-up by look-up, and every
question about declarations has the renamed answer when it is asked in renamed words.
-/

namespace Sigil

/-- An injective change of names that keeps the built-in types and what is well formed. -/
structure Renaming where
  toFun : String → String
  injective : Function.Injective toFun
  builtin : ∀ name ∈ builtinTypeNames, toFun name = name
  identifier : ∀ name, isIdentifier (toFun name) = isIdentifier name
  variableName : ∀ name, variableNameFault? (toFun name) = none ↔ variableNameFault? name = none

namespace Renaming

instance : CoeFun Renaming fun _ => String → String := ⟨toFun⟩

variable (naming : Renaming)

@[simp] theorem eq_iff {first second : String} :
    naming first = naming second ↔ first = second :=
  naming.injective.eq_iff

@[simp] theorem beq_eq (first second : String) :
    (naming first == naming second) = (first == second) := by
  rw [Bool.eq_iff_iff, beq_iff_eq, beq_iff_eq, naming.eq_iff]

@[simp] theorem mem_map_iff {name : String} {names : List String} :
    naming name ∈ names.map naming ↔ name ∈ names :=
  List.mem_map_of_injective naming.injective

@[simp] theorem contains_map (names : List String) (name : String) :
    (names.map naming).contains (naming name) = names.contains name := by
  rw [Bool.eq_iff_iff, List.contains_iff_mem, List.contains_iff_mem, naming.mem_map_iff]

/-- No other name becomes the name of a built-in type. -/
theorem mem_builtinTypeNames_iff {name : String} :
    naming name ∈ builtinTypeNames ↔ name ∈ builtinTypeNames := by
  constructor
  · intro member
    have kept := naming.builtin _ member
    rwa [naming.injective kept] at member
  · intro member
    rwa [naming.builtin name member]

theorem methodName (name : String) :
    methodNameFault? (naming name) = none ↔ methodNameFault? name = none := by
  rw [methodNameFault?_eq_none_iff, methodNameFault?_eq_none_iff, naming.identifier]

theorem className (name : String) :
    classNameFault? (naming name) = none ↔ classNameFault? name = none := by
  rw [classNameFault?_eq_none_iff, classNameFault?_eq_none_iff, naming.identifier,
    naming.mem_builtinTypeNames_iff]

/-- Two names exchanged, if they are well formed in the same way. -/
def swap (first second : String)
    (builtin : first ∉ builtinTypeNames ∧ second ∉ builtinTypeNames)
    (identifier : isIdentifier first = isIdentifier second)
    (variableName : variableNameFault? first = none ↔ variableNameFault? second = none) :
    Renaming where
  toFun := Equiv.swap first second
  injective := (Equiv.swap first second).injective
  builtin name member :=
    Equiv.swap_apply_of_ne_of_ne (fun same => builtin.1 (same ▸ member))
      fun same => builtin.2 (same ▸ member)
  identifier name := by
    rw [Equiv.swap_apply_def]
    split_ifs <;> simp_all
  variableName name := by
    rw [Equiv.swap_apply_def]
    split_ifs <;> simp_all

/-- One renaming after another. -/
def trans (first second : Renaming) : Renaming where
  toFun name := second (first name)
  injective := second.injective.comp first.injective
  builtin name member := by rw [first.builtin name member, second.builtin name member]
  identifier name := (second.identifier _).trans (first.identifier name)
  variableName name := (second.variableName _).trans (first.variableName name)

end Renaming

/-! ## Types -/

/-- A type with another name for its class. -/
def Ty.rename (change : String → String) : Ty → Ty
  | .object className => .object (change className)
  | .chunk => .chunk
  | .fraction => .fraction
  | .string => .string
  | .none => .none

namespace Ty

variable (naming : Renaming)

@[simp] theorem rename_eq_iff {first second : Ty} :
    first.rename naming = second.rename naming ↔ first = second := by
  cases first <;> cases second <;> simp [rename]

@[simp] theorem rename_eq_none_iff {type : Ty} : type.rename naming = .none ↔ type = .none := by
  cases type <;> simp [rename]

/-- What a renamed type is written like. -/
theorem ofName_rename (name : String) : ofName (naming name) = (ofName name).rename naming := by
  by_cases builtin : name ∈ builtinTypeNames
  · rw [naming.builtin name builtin]
    simp only [builtinTypeNames, List.mem_cons, List.not_mem_nil, or_false] at builtin
    rcases builtin with rfl | rfl | rfl | rfl <;> rfl
  · rw [ofName_eq_object_iff.mpr ⟨rfl, builtin⟩]
    exact ofName_eq_object_iff.mpr ⟨rfl, mt naming.mem_builtinTypeNames_iff.mp builtin⟩

theorem rename_eq_ofName_iff {type : Ty} {name : String} :
    type.rename naming = ofName (naming name) ↔ type = ofName name := by
  rw [ofName_rename, rename_eq_iff]

theorem promote_rename (change : String → String) (left right : Ty) :
    promote (left.rename change) (right.rename change) =
      Prod.map (rename change) (rename change) (promote left right) := by
  cases left <;> cases right <;> rfl

end Ty

/-! ## Syntax -/

section Syntax

variable (change : String → String)

def Ident.rename (ident : Ident) : Ident := { ident with name := change ident.name }

def TypeRef.rename (written : TypeRef) : TypeRef := { written with name := change written.name }

mutual

/-- An expression with other names; its texts and spans stay. -/
def Expr.rename : Expr → Expr
  | .literal value span => .literal value span
  | .var name span => .var (change name) span
  | .paren inner span => .paren inner.rename span
  | .chain precedence first rest span =>
      .chain precedence first.rename (Expr.renameOperands rest) span
  | .field object member span => .field (object.rename change) (member.rename change) span
  | .call receiver method args span =>
      .call (receiver.map (Ident.rename change)) (method.rename change) (Expr.renameArgs args) span
  | .new ofClass span => .new (ofClass.rename change) span
  | .unsupported source span => .unsupported source span

def Expr.renameOperands : List (Sign × Expr) → List (Sign × Expr)
  | [] => []
  | (sign, operand) :: rest => (sign, operand.rename) :: Expr.renameOperands rest

def Expr.renameArgs : List Expr → List Expr
  | [] => []
  | arg :: args => arg.rename :: Expr.renameArgs args

end

def Signature.rename (signature : Signature) : Signature :=
  ⟨signature.name.rename change, signature.type.rename change⟩

def VarDecl.rename (decl : VarDecl) : VarDecl :=
  ⟨decl.signature.rename change, decl.init.map (Expr.rename change), decl.span⟩

def Return.rename (returned : Return) : Return :=
  { returned with value := returned.value.rename change }

mutual

/-- A statement with other names; its spans stay. -/
def Stmt.rename : Stmt → Stmt
  | .var decl => .var (decl.rename change)
  | .assign target value span => .assign (target.rename change) (value.rename change) span
  | .output value span => .output (value.rename change) span
  | .method decl => .method decl.rename
  | .classDecl decl => .classDecl decl.rename
  | .eval value => .eval (value.rename change)

def MethodDecl.rename : MethodDecl → MethodDecl
  | ⟨name, params, returns, body, result, span⟩ =>
      ⟨name.rename change, params.map (Signature.rename change), returns.rename change,
        Stmt.renameAll body, result.map (Return.rename change), span⟩

def ClassDecl.rename : ClassDecl → ClassDecl
  | ⟨name, parent, fields, methods, span⟩ =>
      ⟨name.rename change, parent.map (Ident.rename change),
        fields.map (Signature.rename change), MethodDecl.renameAll methods, span⟩

def Stmt.renameAll : List Stmt → List Stmt
  | [] => []
  | stmt :: rest => stmt.rename :: Stmt.renameAll rest

def MethodDecl.renameAll : List MethodDecl → List MethodDecl
  | [] => []
  | method :: rest => method.rename :: MethodDecl.renameAll rest

end

/-- A program in which every name and every written type is changed. -/
def Program.rename (program : Program) : Program := Stmt.renameAll change program

/-- A role with other names for what the symbol belongs to. -/
def Role.rename : Role → Role
  | .param owner => .param (change owner)
  | .field owner => .field (change owner)
  | .var => .var
  | .method => .method
  | .classType => .classType

/-- A node with other names. -/
def Node.rename : Node → Node
  | .value role signature span => .value (role.rename change) (signature.rename change) span
  | .init signature expr span => .init (signature.rename change) (expr.rename change) span
  | .methodName name => .methodName (name.rename change)
  | .method owner name params returns span =>
      .method (owner.map change) (name.rename change) (params.map (Signature.rename change))
        (returns.rename change) span
  | .result name returns returned =>
      .result (name.rename change) (returns.rename change) (returned.rename change)
  | .classDecl name parent span =>
      .classDecl (name.rename change) (parent.map (Ident.rename change)) span
  | .assign target expr span => .assign (target.rename change) (expr.rename change) span
  | .output expr span => .output (expr.rename change) span
  | .eval expr => .eval (expr.rename change)

@[simp] theorem Ident.name_rename (ident : Ident) :
    (ident.rename change).name = change ident.name := rfl

@[simp] theorem Expr.span_rename (expr : Expr) : (expr.rename change).span = expr.span := by
  cases expr <;> rfl

@[simp] theorem Expr.length_renameArgs (args : List Expr) :
    (Expr.renameArgs change args).length = args.length := by
  induction args with
  | nil => rfl
  | cons arg args ih => rw [Expr.renameArgs, List.length_cons, List.length_cons, ih]

@[simp] theorem Role.category_rename (role : Role) :
    (role.rename change).category = role.category := by
  cases role <;> rfl

@[simp] theorem Role.isValue_rename (role : Role) :
    (role.rename change).isValue = role.isValue := by
  rw [Role.isValue, Role.category_rename, Role.isValue]

variable {change} in
theorem Expr.operandRefs_rename {rest : List (Sign × Expr)}
    (each : ∀ operand ∈ rest, (operand.2.rename change).refs = operand.2.refs.map change) :
    Expr.operandRefs (Expr.renameOperands change rest) = (Expr.operandRefs rest).map change := by
  induction rest with
  | nil => rfl
  | cons operand rest ih =>
    obtain ⟨here, later⟩ := List.forall_mem_cons.mp each
    rw [renameOperands, operandRefs, operandRefs, here, ih later, List.map_append]

variable {change} in
theorem Expr.argRefs_rename {args : List Expr}
    (each : ∀ arg ∈ args, (arg.rename change).refs = arg.refs.map change) :
    Expr.argRefs (Expr.renameArgs change args) = (Expr.argRefs args).map change := by
  induction args with
  | nil => rfl
  | cons arg args ih =>
    obtain ⟨here, later⟩ := List.forall_mem_cons.mp each
    rw [renameArgs, argRefs, argRefs, here, ih later, List.map_append]

/-- The names that a renamed expression mentions. -/
theorem Expr.refs_rename (expr : Expr) : (expr.rename change).refs = expr.refs.map change := by
  induction expr with
  | paren inner span ih => exact ih
  | chain precedence first rest span ih ihs =>
    rw [rename, refs, refs, ih, operandRefs_rename ihs, List.map_append]
  | call receiver method args span ihs =>
    rw [rename, refs, refs, argRefs_rename ihs, List.map_append]
    cases receiver <;> rfl
  | _ => rfl

theorem VarDecl.nodes_rename (decl : VarDecl) :
    (decl.rename change).nodes = decl.nodes.map (Node.rename change) := by
  obtain ⟨signature, init, span⟩ := decl
  cases init <;> rfl

theorem Signature.nodesOf_rename (role : Role) (signatures : List Signature) :
    Signature.nodesOf (role.rename change) (signatures.map (Signature.rename change)) =
      (Signature.nodesOf role signatures).map (Node.rename change) := by
  simp only [Signature.nodesOf, List.map_map]
  rfl

mutual

theorem Stmt.nodes_rename (stmt : Stmt) :
    (stmt.rename change).nodes = stmt.nodes.map (Node.rename change) := by
  cases stmt with
  | var decl => rw [Stmt.rename, Stmt.nodes, Stmt.nodes, VarDecl.nodes_rename]
  | method decl => exact MethodDecl.nodes_rename none decl
  | classDecl decl => exact ClassDecl.nodes_rename decl
  | _ => rfl

theorem MethodDecl.nodes_rename (owner : Option String) (method : MethodDecl) :
    (method.rename change).nodes (owner.map change) =
      (method.nodes owner).map (Node.rename change) := by
  obtain ⟨name, params, returns, body, result, span⟩ := method
  have declared := Signature.nodesOf_rename change (.param name.name) params
  have inside := Stmt.nodesOf_renameAll body
  rw [MethodDecl.rename, MethodDecl.nodes, MethodDecl.nodes, inside]
  rw [Role.rename] at declared
  cases result <;> simp [declared, Node.rename]

theorem ClassDecl.nodes_rename (decl : ClassDecl) :
    (decl.rename change).nodes = decl.nodes.map (Node.rename change) := by
  obtain ⟨name, parent, fields, methods, span⟩ := decl
  have declared := Signature.nodesOf_rename change (.field name.name) fields
  have inside := MethodDecl.nodesOf_renameAll name.name methods
  rw [ClassDecl.rename, ClassDecl.nodes, ClassDecl.nodes, Ident.name_rename, inside]
  rw [Role.rename] at declared
  simp [declared, Node.rename]

theorem Stmt.nodesOf_renameAll (stmts : List Stmt) :
    Stmt.nodesOf (Stmt.renameAll change stmts) =
      (Stmt.nodesOf stmts).map (Node.rename change) := by
  cases stmts with
  | nil => rfl
  | cons stmt rest =>
    rw [Stmt.renameAll, Stmt.nodesOf, Stmt.nodesOf, Stmt.nodes_rename stmt,
      Stmt.nodesOf_renameAll rest, List.map_append]

theorem MethodDecl.nodesOf_renameAll (owner : String) (methods : List MethodDecl) :
    MethodDecl.nodesOf (change owner) (MethodDecl.renameAll change methods) =
      (MethodDecl.nodesOf owner methods).map (Node.rename change) := by
  cases methods with
  | nil => rfl
  | cons method rest =>
    rw [MethodDecl.renameAll, MethodDecl.nodesOf, MethodDecl.nodesOf, List.map_append,
      ← MethodDecl.nodes_rename (some owner) method, MethodDecl.nodesOf_renameAll owner rest]
    rfl

end

/-- The nodes of a renamed program are the renamed nodes of the program, in the same order. -/
theorem Program.nodes_rename (program : Program) :
    (program.rename change).nodes = program.nodes.map (Node.rename change) :=
  Stmt.nodesOf_renameAll change program

end Syntax

/-! ## What a check stores -/

section Stored

variable (change : String → String)

def Symbol.rename (symbol : Symbol) : Symbol :=
  { symbol with
    name := change symbol.name
    role := symbol.role.rename change
    type := symbol.type.rename change }

def ClassEntry.rename (entry : ClassEntry) : ClassEntry where
  name := change entry.name
  parent := entry.parent.map change
  fields := entry.fields.map (Prod.map change (Ty.rename change))
  methods := entry.methods.map change
  span := entry.span

def MethodEntry.rename (entry : MethodEntry) : MethodEntry where
  name := change entry.name
  params := entry.params.map (Prod.map change (Ty.rename change))
  returnType := entry.returnType.rename change
  owner := entry.owner.map change

def Output.rename (output : Output) : Output :=
  { output with type := output.type.rename change }

def Warning.rename (warning : Warning) : Warning :=
  { warning with name := change warning.name }

end Stored

/-- What is listed under a name is listed under the renamed one. -/
theorem lookup_rename (naming : Renaming) (entries : List (String × Ty)) (name : String) :
    (entries.map (Prod.map naming (Ty.rename naming))).lookup (naming name) =
      (entries.lookup name).map (Ty.rename naming) := by
  induction entries with
  | nil => rfl
  | cons entry rest ih =>
    obtain ⟨key, type⟩ := entry
    rw [List.map_cons, Prod.map_apply, List.lookup_cons, List.lookup_cons, naming.beq_eq, ih]
    cases name == key <;> rfl

/-- `other` holds under each renamed name what `table` holds under the name, with the change that
goes with it. It may hold more, under names that no name becomes: nobody asks for these. -/
def Rekeyed {α : Type} (naming : Renaming) (change : α → α)
    (table other : Std.ExtTreeMap String α) : Prop :=
  ∀ name, other[naming name]? = table[name]?.map change

namespace Rekeyed

variable {α : Type} {naming : Renaming} {change : α → α} {table other : Std.ExtTreeMap String α}

theorem empty : Rekeyed naming change (∅ : Std.ExtTreeMap String α) ∅ := by
  intro name
  simp

theorem contains_eq (rekeyed : Rekeyed naming change table other) (name : String) :
    other.contains (naming name) = table.contains name := by
  rw [Std.ExtTreeMap.contains_eq_isSome_getElem?, Std.ExtTreeMap.contains_eq_isSome_getElem?,
    rekeyed name, Option.isSome_map]

theorem insert (rekeyed : Rekeyed naming change table other) (name : String) (entry : α) :
    Rekeyed naming change (table.insert name entry)
      (other.insert (naming name) (change entry)) := by
  intro key
  simp only [Std.ExtTreeMap.getElem?_insert, Std.LawfulEqCmp.compare_eq_iff_eq, naming.eq_iff,
    rekeyed key]
  split <;> rfl

/-- An entry may be changed before or after it is renamed. -/
theorem modify (rekeyed : Rekeyed naming change table other) {update updated : α → α}
    (commutes : ∀ entry, change (update entry) = updated (change entry)) (name : String) :
    Rekeyed naming change (table.modify name update) (other.modify (naming name) updated) := by
  intro key
  simp only [Std.ExtTreeMap.getElem?_modify, Std.LawfulEqCmp.compare_eq_iff_eq, naming.eq_iff]
  split
  · rw [rekeyed name, Option.map_map, Option.map_map]
    exact congrArg (Option.map · _) (funext fun entry => (commutes entry).symm)
  · exact rekeyed key

end Rekeyed

/-- `other` is `table` with other names: the symbols stand at the same positions. -/
structure SymbolTable.Renamed (naming : Renaming) (table other : SymbolTable) : Prop where
  entries : other.entries = table.entries.map (Symbol.rename naming)
  index : Rekeyed naming id table.index other.index

theorem SymbolTable.Renamed.push {naming : Renaming} {table other : SymbolTable}
    (renamed : table.Renamed naming other) (symbol : Symbol) :
    (table.push symbol).Renamed naming (other.push (symbol.rename naming)) where
  entries := by
    rw [SymbolTable.push, SymbolTable.push, renamed.entries, Array.map_push]
  index := by
    rw [SymbolTable.push, SymbolTable.push, renamed.entries, Array.size_map]
    exact renamed.index.insert symbol.name table.entries.size

/-- `other` is `decls` with other names. -/
structure Declarations.Renamed (naming : Renaming) (decls other : Declarations) : Prop where
  symbols : decls.symbols.Renamed naming other.symbols
  parents : Rekeyed naming (Option.map naming) decls.hierarchy.parents other.hierarchy.parents
  classes : Rekeyed naming (ClassEntry.rename naming) decls.classes other.classes
  methods : Rekeyed naming (MethodEntry.rename naming) decls.methods other.methods

namespace Declarations.Renamed

variable {naming : Renaming} {decls other : Declarations}

theorem empty : ({} : Declarations).Renamed naming {} :=
  ⟨⟨Array.map_empty.symm, .empty⟩, .empty, .empty, .empty⟩

/-! ## Declaring under other names -/

theorem addValue (renamed : decls.Renamed naming other) (role : Role) (name : String) (type : Ty)
    (span : Span) :
    (decls.addValue role name type span).Renamed naming
      (other.addValue (role.rename naming) (naming name) (type.rename naming) span) where
  symbols := renamed.symbols.push (.declaredAt name role type span)
  parents := renamed.parents
  classes := by
    cases role with
    | field className =>
      refine renamed.classes.modify (fun entry => ?_) className
      simp [ClassEntry.rename, ClassEntry.addField]
    | _ => exact renamed.classes
  methods := renamed.methods

theorem addMethod (renamed : decls.Renamed naming other) (entry : MethodEntry) (span : Span) :
    (decls.addMethod entry span).Renamed naming (other.addMethod (entry.rename naming) span) where
  symbols := renamed.symbols.push (.declaredAt entry.name .method entry.returnType span)
  parents := renamed.parents
  classes := by
    obtain ⟨name, params, returns, owner⟩ := entry
    cases owner with
    | none => exact renamed.classes
    | some owner =>
      refine renamed.classes.modify (fun entry => ?_) owner
      simp [ClassEntry.rename, ClassEntry.addMethod, MethodEntry.rename]
  methods := renamed.methods.insert entry.name entry

theorem addClass (renamed : decls.Renamed naming other) (name : String) (parent : Option String)
    (span : Span) :
    (decls.addClass name parent span).Renamed naming
      (other.addClass (naming name) (parent.map naming) span) where
  symbols := renamed.symbols.push (.declaredAt name .classType (.object name) span)
  parents := renamed.parents.insert name parent
  classes := renamed.classes.insert name { name, parent, span }
  methods := renamed.methods

/-! ## Questions in other words -/

variable (renamed : decls.Renamed naming other)

include renamed

theorem contains_eq (name : String) :
    other.symbols.contains (naming name) = decls.symbols.contains name :=
  renamed.symbols.index.contains_eq name

theorem lookup?_eq (name : String) :
    other.symbols.lookup? (naming name) =
      (decls.symbols.lookup? name).map (Symbol.rename naming) := by
  rw [SymbolTable.lookup?, SymbolTable.lookup?, renamed.symbols.index name, renamed.symbols.entries,
    Option.map_id_fun, id_eq, Option.map_bind]
  simp only [Array.getElem?_map, Function.comp_def]

theorem knowsClass_eq (className : String) :
    other.knowsClass (naming className) = decls.knowsClass className :=
  renamed.classes.contains_eq className

theorem parent?_eq (className : String) :
    other.hierarchy.parent? (naming className) =
      (decls.hierarchy.parent? className).map naming := by
  rw [Hierarchy.parent?, Hierarchy.parent?, renamed.parents className]
  cases decls.hierarchy.parents[className]? <;> rfl

/-- A walk along renamed parents meets the renamed classes, and stops where it stopped. -/
theorem walk_eq (className : String) (met : List String) :
    other.hierarchy.walk (naming className) (met.map naming) =
      (decls.hierarchy.walk className met).map naming := by
  induction className, met using Hierarchy.walk.induct decls.hierarchy with
  | case1 className met again =>
    rw [Hierarchy.walk_eq, Hierarchy.walk_eq, if_pos again, if_pos (naming.mem_map_iff.mpr again)]
    rfl
  | case2 className met new ih =>
    rw [Hierarchy.walk_eq, Hierarchy.walk_eq decls.hierarchy, if_neg new,
      if_neg (mt naming.mem_map_iff.mp new), renamed.parent?_eq, List.map_cons]
    cases child : decls.hierarchy.parent? className with
    | none => rfl
    | some parent => exact congrArg (_ :: ·) (ih parent child)

theorem ancestors_eq (className : String) :
    other.hierarchy.ancestors (naming className) =
      (decls.hierarchy.ancestors className).map naming :=
  renamed.walk_eq className []

theorem accepts_eq (declared found : Ty) :
    other.hierarchy.accepts (declared.rename naming) (found.rename naming) =
      decls.hierarchy.accepts declared found := by
  unfold Hierarchy.accepts
  simp only [Ty.rename_eq_iff]
  congr 1
  cases declared with
  | object target =>
    cases found with
    | object start =>
      have recorded := renamed.parents.contains_eq target
      simp only [Ty.rename, Hierarchy.contains, recorded, renamed.ancestors_eq, naming.contains_map]
    | _ => rfl
  | _ => rfl

theorem lineage_eq (className : String) :
    other.lineage (naming className) =
      (decls.lineage className).map (ClassEntry.rename naming) := by
  rw [lineage, lineage, renamed.ancestors_eq, List.filterMap_map, List.map_filterMap]
  exact List.filterMap_congr fun ancestor _ => renamed.classes ancestor

theorem field?_eq (className field : String) :
    other.field? (naming className) (naming field) =
      (decls.field? className field).map (Ty.rename naming) := by
  rw [field?, field?, renamed.lineage_eq, List.findSome?_map, List.map_findSome?]
  congr 1
  funext entry
  exact lookup_rename naming entry.fields field

theorem method?_eq (className method : String) :
    other.method? (naming className) (naming method) =
      (decls.method? className method).map (MethodEntry.rename naming) := by
  have listed : (other.lineage (naming className)).any (·.hasMethod (naming method)) =
      (decls.lineage className).any (·.hasMethod method) := by
    rw [renamed.lineage_eq, List.any_map]
    congr 1
    funext entry
    exact naming.contains_map entry.methods method
  rw [method?, method?, listed, renamed.methods method]
  split <;> rfl

theorem freeMethod?_eq (method : String) :
    other.freeMethod? (naming method) =
      (decls.freeMethod? method).map (MethodEntry.rename naming) := by
  rw [freeMethod?, freeMethod?, renamed.methods method]
  cases decls.methods[method]? with
  | none => rfl
  | some entry =>
    have free : (entry.rename naming).owner.isNone = entry.owner.isNone := Option.isNone_map
    cases owned : entry.owner.isNone <;> simp [Option.filter, free, owned]

end Declarations.Renamed

end Sigil
