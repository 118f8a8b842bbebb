import Sigil.Proofs.InferenceTyping

/-! # Checking is sound and complete for the rules

A check accepts a program exactly when the rules derive that it is well typed, and what it shows and
how it types expressions afterwards is what the derivation says. The relation between the tables and
the flat list is carried along the nodes of the program, in both directions.
-/

namespace Sigil

open Relation (ReflTransGen)

namespace Declarations.Matches

variable {decls : Declarations} {env : Env}

theorem admitted_iff (agree : decls.Matches env) (built : decls.Built) {signature : Signature} :
    signature.Admitted env ↔
      variableNameFault? signature.name.name = none ∧
        decls.symbols.contains signature.name.name = false ∧
        decls.valueType signature.type = .ok (Ty.ofName signature.type.name) := by
  rw [variableNameFault?_eq_none_iff, agree.fresh_iff built, valueType_eq_ok_iff, ← agree.known_iff]
  constructor
  · exact fun admitted => ⟨admitted.named, admitted.fresh, rfl, admitted.value, admitted.known⟩
  · exact fun ⟨named, fresh, _, value, known⟩ => ⟨named, fresh, value, known⟩

theorem typed_value_iff (agree : decls.Matches env) (built : decls.Built) {role : Role}
    {signature : Signature} {span : Span} :
    (Node.value role signature span).verdict decls = .ok () ↔ signature.Admitted env := by
  rw [agree.admitted_iff built]
  constructor
  · exact Node.verdict_value_eq_ok
  · rintro ⟨named, fresh, known⟩
    simp only [Node.verdict, except_bind_eq_ok_iff, Node.refuse_eq_ok_iff,
      Node.refuseDeclared_eq_ok_iff]
    exact ⟨(), named, (), fresh, _, known, rfl⟩

theorem typed_method_iff (agree : decls.Matches env) (built : decls.Built) {owner : Option String}
    {name : Ident} {params : List Signature} {returns : TypeRef} {span : Span} :
    (Node.method owner name params returns span).verdict decls = .ok () ↔
      env.Fresh name.name ∧ env.Known (Ty.ofName returns.name) := by
  rw [← agree.fresh_iff built, agree.known_iff]
  constructor
  · intro accepted
    obtain ⟨fresh, known⟩ := Node.verdict_method_eq_ok accepted
    exact ⟨fresh, (returnType_eq_ok_iff.mp known).2⟩
  · rintro ⟨fresh, known⟩
    simp only [Node.verdict, except_bind_eq_ok_iff, Node.refuseDeclared_eq_ok_iff]
    exact ⟨(), fresh, _, returnType_eq_ok_iff.mpr ⟨rfl, known⟩, rfl⟩

theorem typed_classDecl_iff (agree : decls.Matches env) (built : decls.Built) {name : Ident}
    {parent : Option Ident} {span : Span} :
    (Node.classDecl name parent span).verdict decls = .ok () ↔
      isIdentifier name.name = true ∧ name.name ∉ builtinTypeNames ∧ env.Fresh name.name ∧
        ∀ known, parent = some known → env.HasClass known.name := by
  simp only [← agree.fresh_iff built, agree.hasClass_iff]
  simp only [Node.verdict, except_bind_eq_ok_iff, Node.refuse_eq_ok_iff,
    Node.refuseDeclared_eq_ok_iff, classNameFault?_eq_none_iff]
  constructor
  · rintro ⟨_, ⟨named, notBuiltin⟩, _, fresh, inherits⟩
    refine ⟨named, notBuiltin, fresh, ?_⟩
    rintro known rfl
    exact require_eq_ok_iff.mp inherits
  · rintro ⟨named, notBuiltin, fresh, inherits⟩
    refine ⟨(), ⟨named, notBuiltin⟩, (), fresh, ?_⟩
    cases parent with
    | none => rfl
    | some known => exact require_eq_ok_iff.mpr (inherits known rfl)

/-- A node passes, with its outputs, exactly when the rules say so. -/
theorem typed_iff (agree : decls.Matches env) (built : decls.Built) {node : Node}
    {shown : List Output} :
    node.Typed env shown ↔ node.verdict decls = .ok () ∧ shown = node.outputs decls := by
  cases node with
  | value role signature span =>
    rw [agree.typed_value_iff built]
    constructor
    · intro typed
      cases typed with
      | value _ _ admitted => exact ⟨admitted, rfl⟩
    · rintro ⟨admitted, rfl⟩
      exact .value role span admitted
  | init signature expr span =>
    simp only [Node.verdict, except_bind_eq_ok_iff, require_eq_ok_iff, agree.typeOf_iff built]
    constructor
    · intro typed
      cases typed with
      | init _ typed => exact ⟨⟨_, typed, rfl⟩, rfl⟩
    · rintro ⟨⟨_, typed, rfl⟩, rfl⟩
      exact .init span typed
  | methodName name =>
    simp only [Node.verdict, Node.refuse_eq_ok_iff, methodNameFault?_eq_none_iff]
    constructor
    · intro typed
      cases typed with
      | methodName named => exact ⟨named, rfl⟩
    · rintro ⟨named, rfl⟩
      exact .methodName named
  | method owner name params returns span =>
    rw [agree.typed_method_iff built]
    constructor
    · intro typed
      cases typed with
      | method _ _ _ fresh known => exact ⟨⟨fresh, known⟩, rfl⟩
    · rintro ⟨⟨fresh, known⟩, rfl⟩
      exact .method owner params span fresh known
  | result name returns returned =>
    simp only [Node.verdict, except_bind_eq_ok_iff, require_eq_ok_iff, agree.typeOf_iff built]
    constructor
    · intro typed
      cases typed with
      | result _ typed => exact ⟨⟨_, typed, rfl⟩, rfl⟩
    · rintro ⟨⟨_, typed, rfl⟩, rfl⟩
      exact .result name typed
  | classDecl name parent span =>
    rw [agree.typed_classDecl_iff built]
    constructor
    · intro typed
      cases typed with
      | classDecl _ named notBuiltin fresh inherits =>
        exact ⟨⟨named, notBuiltin, fresh, inherits⟩, rfl⟩
    · rintro ⟨⟨named, notBuiltin, fresh, inherits⟩, rfl⟩
      exact .classDecl span named notBuiltin fresh inherits
  | assign target expr span =>
    have held (declared : Ty) : decls.typeOf (.var target.name target.span) = .ok declared ↔
        ∃ ofClass, .value target.name declared ofClass ∈ env :=
      verdict_readValue_eq_ok_iff.trans (agree.holds_iff built)
    simp only [Node.verdict, except_bind_eq_ok_iff, require_eq_ok_iff, held,
      agree.fits_iff built, agree.typeOf_iff built expr]
    constructor
    · intro typed
      cases typed with
      | assign _ holds typed fits => exact ⟨⟨_, ⟨_, holds⟩, _, typed, fits⟩, rfl⟩
    · rintro ⟨⟨declared, ⟨ofClass, holds⟩, found, typed, fits⟩, rfl⟩
      exact .assign span holds typed fits
  | output expr span =>
    simp only [Node.verdict, Node.outputs, except_bind_eq_ok_iff, require_eq_ok_iff]
    constructor
    · intro typed
      cases typed with
      | output _ typed shown =>
        have found := (agree.typeOf_iff built _ _).mpr typed
        refine ⟨⟨_, found, shown⟩, ?_⟩
        rw [found]
        rfl
    · rintro ⟨⟨type, found, shown⟩, rfl⟩
      rw [found]
      exact .output span ((agree.typeOf_iff built _ _).mp found) shown
  | eval expr =>
    simp only [Node.verdict, except_bind_eq_ok_iff, agree.typeOf_iff built]
    constructor
    · intro typed
      cases typed with
      | eval typed => exact ⟨⟨_, typed, rfl⟩, rfl⟩
    · rintro ⟨⟨_, typed, _⟩, rfl⟩
      exact .eval typed

/-- A node that passes adds to the list what it adds to the tables. -/
theorem declare (agree : decls.Matches env) (built : decls.Built) {before : List Node} {node : Node}
    (follows : node.Follows before) (accepted : node.verdict decls = .ok ()) :
    (node.declare decls).Matches (env ++ node.decl?.toList) := by
  cases node with
  | value role signature span => exact agree.addValue follows.1 _ _ span
  | method owner name params returns span =>
    obtain ⟨fresh, _⟩ := Node.verdict_method_eq_ok accepted
    have absent : decls.methods[(Node.methodEntry owner name params returns).name]? = none :=
      built.method?_of_fresh fresh
    exact agree.addMethod absent span
  | classDecl name parent span =>
    obtain ⟨_, _, fresh, _⟩ := Node.verdict_classDecl_eq_ok accepted
    exact agree.addClass (built.not_knowsClass_of_fresh fresh) _ span
  | _ => exact (List.append_nil env).symm ▸ agree

end Declarations.Matches

/-- A context whose declarations were built by steps and match a list. -/
structure Context.Follows (context : Context) (env : Env) : Prop where
  built : context.toDeclarations.Built
  agree : context.toDeclarations.Matches env

namespace Node

variable {base context left : Context} {env : Env} {before : List Node} {node : Node}

/-- A passed node takes the list along. -/
theorem Passed.follows (passed : node.Passed context left)
    (prior : Check.Passes base before context) (ordered : node.Follows before)
    (current : context.Follows env) : left.Follows (env ++ node.decl?.toList) where
  built := ReflTransGen.trans current.built (passed.step prior ordered)
  agree := by
    rw [passed.declarations]
    exact current.agree.declare current.built ordered passed.verdict

end Node

namespace Check

variable {base context left : Context} {env : Env} {before nodes : List Node}

/-- Nodes that pass are well typed. -/
theorem Passes.typed (passes : Passes context nodes left) (prior : Passes base before context)
    (ordered : Node.Ordered before nodes) (current : context.Follows env) :
    ∃ after shown, Node.TypedList env nodes after shown ∧ left.Follows after := by
  induction passes generalizing before env with
  | nil => exact ⟨env, [], .nil env, current⟩
  | cons passed _ ih =>
    obtain ⟨stands, later⟩ := ordered
    have typed := (current.agree.typed_iff current.built).mpr ⟨passed.verdict, rfl⟩
    obtain ⟨after, shown, rest, final⟩ := ih (prior.append (.cons passed (.nil _))) later
      (passed.follows prior stands current)
    exact ⟨after, _, .cons typed rest, final⟩

/-- Nodes that are well typed pass, and show what the rules say. -/
theorem checkNodes_of_typed {after : Env} {shown : List Output} (run : Run)
    (typed : Node.TypedList env nodes after shown) (prior : Passes base before run.context)
    (ordered : Node.Ordered before nodes) (current : run.context.Follows env) :
    ∃ left, checkNodes nodes run = .ok () left ∧ left.context.Follows after ∧
      left.context.outputs = run.context.outputs ++ shown := by
  induction typed generalizing before run with
  | nil env => exact ⟨run, rfl, current, (List.append_nil _).symm⟩
  | @cons env after node rest shown more typed _ ih =>
    obtain ⟨stands, later⟩ := ordered
    obtain ⟨verdict, rfl⟩ := (current.agree.typed_iff current.built).mp typed
    obtain ⟨middle, ran⟩ := exists_checkNode_ok verdict
    have passed := checkNode_ok ran
    obtain ⟨left, rest, final, outputs⟩ := ih middle (prior.append (.cons passed (.nil _))) later
      (passed.follows prior stands current)
    refine ⟨left, bind_eq_ok_iff.mpr ⟨(), middle, ran, rest⟩, final, ?_⟩
    rw [outputs, passed.outputs, List.append_assoc]

end Check

namespace Context

theorem follows_empty : (∅ : Context).Follows [] := ⟨.refl, .empty⟩

theorem Reachable.exists_follows {context : Context} (reachable : context.Reachable) :
    ∃ env, context.Follows env := by
  obtain ⟨env, agree⟩ := reachable.built.exists_matches
  exact ⟨env, reachable.built, agree⟩

namespace Follows

variable {context : Context} {env : Env}

/-- Expressions have the types that the rules give them. -/
theorem infer_iff (current : context.Follows env) (expr : Expr) (type : Ty) :
    (context.infer expr).1 = .ok type ↔ HasType env expr type := by
  rw [infer_eq]
  exact current.agree.typeOf_iff current.built expr type

/-- An accepted program is well typed. -/
theorem typed_of_accepted (current : context.Follows env) {warnUnused : Bool} {program : Program}
    (accepted : (context.check warnUnused program).verdict = .ok ()) :
    ∃ after shown, program.Typed env after shown := by
  obtain ⟨left, passes, _⟩ := check_ok accepted
  obtain ⟨after, shown, typed, _⟩ :=
    passes.typed (.nil context) (Node.ordered_nodes program) current
  exact ⟨after, shown, (Node.typedList_stmts_iff program).mp typed⟩

/-- A well-typed program is accepted, with the outputs and the declarations of its derivation. -/
theorem check_of_typed (current : context.Follows env) {program : Program} {after : Env}
    {shown : List Output} (typed : program.Typed env after shown) (warnUnused : Bool) :
    (context.check warnUnused program).verdict = .ok () ∧
      (context.check warnUnused program).context.Follows after ∧
      (context.check warnUnused program).context.outputs = context.outputs ++ shown := by
  have nodes := (Node.typedList_stmts_iff program).mpr typed
  obtain ⟨verdict, result⟩ := context.check_eq warnUnused program
  obtain ⟨left, ran, final, outputs⟩ := Check.checkNodes_of_typed
    ⟨context, [.started program.length]⟩ nodes (.nil context) (Node.ordered_nodes program) current
  rw [verdict, result, Program.nodes, ran]
  refine ⟨rfl, ?_⟩
  cases warnUnused <;> exact ⟨⟨final.built, final.agree⟩, outputs⟩

end Follows

/-- A check accepts exactly the programs that the rules derive. From nothing, a derivation says
what the check shows and which types expressions have afterwards; and every reachable context stands
for a list of declarations, from which the same holds. -/
theorem check_iff_typed :
    (∀ (warnUnused : Bool) (program : Program),
      ((∅ : Context).check warnUnused program).verdict = .ok () ↔
        ∃ env shown, program.Typed [] env shown) ∧
    (∀ (warnUnused : Bool) (program : Program) (env : Env) (shown : List Output),
      program.Typed [] env shown →
        ((∅ : Context).check warnUnused program).context.outputs = shown ∧
        ((∅ : Context).check warnUnused program).context.symbols.toList.map Symbol.name =
          env.map Decl.name ∧
        ∀ expr type,
          (((∅ : Context).check warnUnused program).context.infer expr).1 = .ok type ↔
            HasType env expr type) ∧
    ∀ context : Context, context.Reachable →
      ∃ env, (∀ expr type, (context.infer expr).1 = .ok type ↔ HasType env expr type) ∧
        ∀ (warnUnused : Bool) (program : Program),
          (context.check warnUnused program).verdict = .ok () ↔
            ∃ after shown, program.Typed env after shown := by
  refine ⟨fun warnUnused program => ⟨?_, ?_⟩, ?_, fun context reachable => ?_⟩
  · exact follows_empty.typed_of_accepted
  · rintro ⟨env, shown, typed⟩
    exact (follows_empty.check_of_typed typed warnUnused).1
  · intro warnUnused program env shown typed
    obtain ⟨_, final, outputs⟩ := follows_empty.check_of_typed typed warnUnused
    exact ⟨outputs, final.agree.names.symm, final.infer_iff⟩
  · obtain ⟨env, current⟩ := reachable.exists_follows
    refine ⟨env, current.infer_iff, fun warnUnused program => ⟨?_, ?_⟩⟩
    · exact current.typed_of_accepted
    · rintro ⟨after, shown, typed⟩
      exact (current.check_of_typed typed warnUnused).1

/-- A class, a method, a new object, and a chain that widens a chunk to a fraction. -/
def kennel : Program :=
  [.classDecl
    { name := ⟨"Dog", .zero⟩
      parent := none
      fields := [⟨⟨"$legs", .zero⟩, ⟨"chunk", .zero⟩⟩]
      methods := []
      span := .zero },
   .method
    { name := ⟨"weigh", .zero⟩
      params := [⟨⟨"$dog", .zero⟩, ⟨"Dog", .zero⟩⟩]
      returnType := ⟨"fraction", .zero⟩
      body := []
      result := some ⟨.literal (.fraction 0.5) .zero, .zero⟩
      span := .zero },
   .var
    { signature := ⟨⟨"$pet", .zero⟩, ⟨"Dog", .zero⟩⟩
      init := some (.newOf "Dog" .zero)
      span := .zero },
   .output
    (.add (.literal (.chunk 2) .zero)
      (.call none ⟨"weigh", .zero⟩ [.var "$pet" .zero] .zero)) .zero]

theorem check_iff_typed_kennel :
    ∃ env shown, kennel.Typed [] env shown ∧
      ((∅ : Context).check true kennel).context.outputs = shown ∧
      ((∅ : Context).check true kennel).context.symbols.toList.map Symbol.name =
        env.map Decl.name ∧
      ∀ expr type, (((∅ : Context).check true kennel).context.infer expr).1 = .ok type ↔
        HasType env expr type := by
  obtain ⟨env, shown, typed⟩ := (check_iff_typed.1 true kennel).mp rfl
  exact ⟨env, shown, typed, check_iff_typed.2.1 true kennel env shown typed⟩

end Context

end Sigil
