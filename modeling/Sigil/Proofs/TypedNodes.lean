import Sigil.Proofs.Traversal
import Sigil.Proofs.Typing

/-! # The typing rules over nodes

A derivation that a program is well typed follows its syntax, and a check follows its nodes. Here
the rules are stated node by node, and a program is well typed exactly when its nodes are, one after
the other, with the same declarations and the same outputs.
-/

namespace Sigil

/-- The class that a field belongs to. -/
def Role.ofClass? : Role → Option String
  | .field className => some className
  | _ => none

namespace Node

/-- What a node declares, as the rules see it. -/
def decl? : Node → Option Decl
  | .value role signature _ => some (signature.decl role.ofClass?)
  | .method owner name params returns _ =>
      some (.method name.name (params.map Signature.param) (Ty.ofName returns.name) owner)
  | .classDecl name parent _ => some (.classDecl name.name (parent.map Ident.name))
  | _ => none

/-- A node is well typed after the declarations `env`, and shows the given outputs. -/
inductive Typed (env : Env) : Node → List Output → Prop
  | value {signature : Signature} (role : Role) (span : Span) (admitted : signature.Admitted env) :
      Typed env (.value role signature span) []
  | init {signature : Signature} {expr : Expr} (span : Span)
      (typed : HasType env expr (Ty.ofName signature.type.name)) :
      Typed env (.init signature expr span) []
  | methodName {name : Ident} (named : isIdentifier name.name = true) :
      Typed env (.methodName name) []
  | method {name : Ident} {returns : TypeRef} (owner : Option String) (params : List Signature)
      (span : Span) (fresh : env.Fresh name.name) (known : env.Known (Ty.ofName returns.name)) :
      Typed env (.method owner name params returns span) []
  | result {returns : TypeRef} {returned : Return} (name : Ident)
      (typed : HasType env returned.value (Ty.ofName returns.name)) :
      Typed env (.result name returns returned) []
  | classDecl {name : Ident} {parent : Option Ident} (span : Span)
      (named : isIdentifier name.name = true) (notBuiltin : name.name ∉ builtinTypeNames)
      (fresh : env.Fresh name.name)
      (inherits : ∀ known, parent = some known → env.HasClass known.name) :
      Typed env (.classDecl name parent span) []
  | assign {target : Ident} {expr : Expr} {declared found : Ty} {ofClass : Option String}
      (span : Span) (holds : .value target.name declared ofClass ∈ env)
      (typed : HasType env expr found) (fits : env.Fits declared found) :
      Typed env (.assign target expr span) []
  | output {expr : Expr} {type : Ty} (span : Span) (typed : HasType env expr type)
      (shown : type ≠ .none) : Typed env (.output expr span) [⟨type, span⟩]
  | eval {expr : Expr} {type : Ty} (typed : HasType env expr type) : Typed env (.eval expr) []

/-- Nodes are well typed, one after the other. -/
inductive TypedList : Env → List Node → Env → List Output → Prop
  | nil (env : Env) : TypedList env [] env []
  | cons {env left : Env} {node : Node} {rest : List Node} {shown more : List Output}
      (typed : node.Typed env shown)
      (later : TypedList (env ++ node.decl?.toList) rest left more) :
      TypedList env (node :: rest) left (shown ++ more)

variable {env middle left : Env} {node : Node} {first second : List Node} {shown more : List Output}

theorem TypedList.append (typed : TypedList env first middle shown)
    (later : TypedList middle second left more) :
    TypedList env (first ++ second) left (shown ++ more) := by
  induction typed with
  | nil => exact later
  | cons typed _ ih =>
    rw [List.cons_append, List.append_assoc]
    exact .cons typed (ih later)

theorem typedList_append_iff :
    TypedList env (first ++ second) left shown ↔
      ∃ middle before after, TypedList env first middle before ∧
        TypedList middle second left after ∧ shown = before ++ after := by
  constructor
  · intro typed
    induction first generalizing env shown with
    | nil => exact ⟨env, [], shown, .nil env, typed, rfl⟩
    | cons node first ih =>
      cases typed with
      | @cons _ _ _ _ here _ typed later =>
        obtain ⟨middle, before, after, early, late, rfl⟩ := ih later
        exact ⟨middle, here ++ before, after, .cons typed early, late,
          (List.append_assoc _ _ _).symm⟩
  · rintro ⟨middle, before, after, early, late, rfl⟩
    exact early.append late

theorem typedList_singleton_iff :
    TypedList env [node] left shown ↔
      node.Typed env shown ∧ left = env ++ node.decl?.toList := by
  constructor
  · intro typed
    cases typed with
    | cons typed later =>
      cases later
      rw [List.append_nil]
      exact ⟨typed, rfl⟩
  · rintro ⟨typed, rfl⟩
    have single := TypedList.cons typed (.nil _)
    rwa [List.append_nil] at single

/-- A node that declares nothing leaves the declarations as they are. -/
theorem typedList_leaf_iff (leaf : node.decl? = none) :
    TypedList env [node] left shown ↔ node.Typed env shown ∧ left = env := by
  rw [typedList_singleton_iff, leaf, Option.toList_none, List.append_nil]

/-- Values show nothing. -/
theorem typedList_values_iff (role : Role) {signatures : List Signature} :
    TypedList env (Signature.nodesOf role signatures) left shown ↔
      Signature.Declared role.ofClass? env signatures left ∧ shown = [] := by
  constructor
  · intro typed
    induction signatures generalizing env shown with
    | nil => cases typed; exact ⟨.nil _, rfl⟩
    | cons signature rest ih =>
      cases typed with
      | cons typed later =>
        cases typed with
        | value _ _ admitted =>
          obtain ⟨declared, rfl⟩ := ih later
          exact ⟨.cons admitted declared, rfl⟩
  · rintro ⟨declared, rfl⟩
    induction declared with
    | nil env => exact .nil env
    | cons admitted _ ih => exact .cons (.value role _ admitted) ih

theorem typedList_result_iff (name : Ident) {returns : TypeRef} {result : Option Return} :
    TypedList env (result.toList.map fun result => .result name returns result) left shown ↔
      (∀ returned, result = some returned →
        HasType env returned.value (Ty.ofName returns.name)) ∧ left = env ∧ shown = [] := by
  cases result with
  | none =>
    constructor
    · intro typed
      cases typed
      exact ⟨(fun _ none => nomatch none), rfl, rfl⟩
    · rintro ⟨_, rfl, rfl⟩
      exact .nil left
  | some returned =>
    rw [Option.toList_some, List.map_singleton, typedList_leaf_iff rfl]
    constructor
    · rintro ⟨typed, rfl⟩
      cases typed with
      | result _ typed =>
        refine ⟨?_, rfl, rfl⟩
        rintro _ ⟨⟩
        exact typed
    · rintro ⟨typed, rfl, rfl⟩
      exact ⟨.result name (typed returned rfl), rfl⟩

theorem typedList_var_iff {decl : VarDecl} :
    TypedList env decl.nodes left shown ↔ (Stmt.var decl).Typed env left shown := by
  obtain ⟨signature, init, span⟩ := decl
  constructor
  · intro typed
    cases typed with
    | cons typed later =>
      cases typed with
      | value _ _ admitted =>
        cases init with
        | none => cases later; exact .var span admitted
        | some value =>
          obtain ⟨typed, rfl⟩ := typedList_singleton_iff.mp later
          cases typed with
          | init _ typed =>
            simp only [decl?, Option.toList_none, List.append_nil]
            exact .init span admitted typed
  · intro typed
    cases typed with
    | var _ admitted => exact .cons (.value .var span admitted) (.nil _)
    | init _ admitted typed =>
      refine .cons (.value .var span admitted) (typedList_singleton_iff.mpr ⟨.init span typed, ?_⟩)
      exact (List.append_nil _).symm

mutual

theorem typedList_stmt_iff {env left : Env} {shown : List Output} (stmt : Stmt) :
    TypedList env stmt.nodes left shown ↔ stmt.Typed env left shown := by
  cases stmt with
  | var decl => rw [Stmt.nodes, typedList_var_iff]
  | assign target value span =>
    rw [Stmt.nodes, typedList_leaf_iff rfl]
    constructor
    · rintro ⟨typed, rfl⟩
      cases typed with
      | assign _ holds typed fits => exact .assign span holds typed fits
    · intro typed
      cases typed with
      | assign _ holds typed fits => exact ⟨.assign span holds typed fits, rfl⟩
  | output value span =>
    rw [Stmt.nodes, typedList_leaf_iff rfl]
    constructor
    · rintro ⟨typed, rfl⟩
      cases typed with
      | output _ typed shown => exact .output span typed shown
    · intro typed
      cases typed with
      | output _ typed shown => exact ⟨.output span typed shown, rfl⟩
  | eval value =>
    rw [Stmt.nodes, typedList_leaf_iff rfl]
    constructor
    · rintro ⟨typed, rfl⟩
      cases typed with
      | eval typed => exact .eval typed
    · intro typed
      cases typed with
      | eval typed => exact ⟨.eval typed, rfl⟩
  | method decl =>
    rw [Stmt.nodes, typedList_method_iff none decl]
    constructor
    · exact .method
    · intro typed
      cases typed with
      | method typed => exact typed
  | classDecl decl =>
    rw [Stmt.nodes, typedList_class_iff decl]
    constructor
    · exact .classDecl
    · intro typed
      cases typed with
      | classDecl typed => exact typed

theorem typedList_method_iff {env left : Env} {shown : List Output} (owner : Option String)
    (method : MethodDecl) :
    TypedList env (method.nodes owner) left shown ↔ method.Typed owner env left shown := by
  obtain ⟨name, params, returns, body, result, span⟩ := method
  rw [MethodDecl.nodes]
  constructor
  · intro typed
    obtain ⟨_, _, _, head, tail, rfl⟩ := typedList_append_iff.mp typed
    obtain ⟨returned, rfl, rfl⟩ := (typedList_result_iff name).mp tail
    obtain ⟨middle, _, _, early, late, rfl⟩ := typedList_append_iff.mp head
    cases early with
    | cons here values =>
      cases here with
      | methodName named =>
        cases late with
        | cons here later =>
          cases here with
          | method _ _ _ fresh known =>
            rw [show (Node.methodName name).decl?.toList = [] from rfl, List.append_nil] at values
            obtain ⟨declared, rfl⟩ := (typedList_values_iff (.param name.name)).mp values
            have body := (typedList_stmts_iff body).mp later
            rw [List.append_nil]
            exact .intro named declared fresh known body returned
  · rintro ⟨named, declared, fresh, known, later, returned⟩
    have values := (typedList_values_iff (.param name.name)).mpr ⟨declared, rfl⟩
    have inner := (typedList_stmts_iff body).mpr later
    have tail := (typedList_result_iff name).mpr ⟨returned, rfl, rfl⟩
    rw [← List.append_nil env] at values
    have head := TypedList.cons (.methodName named) values
    have whole := (head.append (.cons (.method owner params span fresh known) inner)).append tail
    rwa [List.append_nil] at whole

theorem typedList_class_iff {env left : Env} {shown : List Output} (decl : ClassDecl) :
    TypedList env decl.nodes left shown ↔ decl.Typed env left shown := by
  obtain ⟨name, parent, fields, methods, span⟩ := decl
  rw [ClassDecl.nodes]
  constructor
  · intro typed
    obtain ⟨_, _, _, head, tail, rfl⟩ := typedList_append_iff.mp typed
    cases head with
    | cons here declared =>
      obtain ⟨fields, rfl⟩ := (typedList_values_iff (.field name.name)).mp declared
      have methods := (typedList_methods_iff name.name methods).mp tail
      cases here with
      | classDecl _ named notBuiltin fresh inherits =>
        exact .intro named notBuiltin fresh inherits fields methods
  · rintro ⟨named, notBuiltin, fresh, inherits, declared, later⟩
    have fields := (typedList_values_iff (.field name.name)).mpr ⟨declared, rfl⟩
    have methods := (typedList_methods_iff name.name methods).mpr later
    exact (TypedList.cons (.classDecl span named notBuiltin fresh inherits) fields).append methods

theorem typedList_stmts_iff {env left : Env} {shown : List Output} (stmts : List Stmt) :
    TypedList env (Stmt.nodesOf stmts) left shown ↔ Stmt.TypedList env stmts left shown := by
  cases stmts with
  | nil =>
    constructor
    · rintro ⟨⟩
      exact .nil env
    · rintro ⟨⟩
      exact .nil env
  | cons stmt rest =>
    rw [Stmt.nodesOf, typedList_append_iff]
    constructor
    · rintro ⟨middle, before, after, here, later, rfl⟩
      exact .cons ((typedList_stmt_iff stmt).mp here) ((typedList_stmts_iff rest).mp later)
    · intro typed
      cases typed with
      | cons here later =>
        exact ⟨_, _, _, (typedList_stmt_iff stmt).mpr here, (typedList_stmts_iff rest).mpr later,
          rfl⟩

theorem typedList_methods_iff {env left : Env} {shown : List Output} (owner : String)
    (methods : List MethodDecl) :
    TypedList env (MethodDecl.nodesOf owner methods) left shown ↔
      MethodDecl.TypedList owner env methods left shown := by
  cases methods with
  | nil =>
    constructor
    · rintro ⟨⟩
      exact .nil owner env
    · rintro ⟨⟩
      exact .nil env
  | cons method rest =>
    rw [MethodDecl.nodesOf, typedList_append_iff]
    constructor
    · rintro ⟨middle, before, after, here, later, rfl⟩
      exact .cons ((typedList_method_iff (some owner) method).mp here)
        ((typedList_methods_iff owner rest).mp later)
    · intro typed
      cases typed with
      | cons here later =>
        exact ⟨_, _, _, (typedList_method_iff (some owner) method).mpr here,
          (typedList_methods_iff owner rest).mpr later, rfl⟩

end

end Node

end Sigil
