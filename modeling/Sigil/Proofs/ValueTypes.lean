import Sigil.Proofs.InferenceTyping
import Sigil.Proofs.Justification
import Sigil.Proofs.KnownTypes
import Sigil.Proofs.Verdicts

/-! # What holds a value never has type `none`

The type `none` is written for methods only. A call may have it, and arithmetic on such calls keeps
it, so an expression of type `none` is made of calls that return nothing. Everything else that has a
type has a value: variables, parameters and fields, and whatever was shown. Hence a value that is
stored, passed or shown is never of type `none`, or the check fails. All types that a context holds
are those that their names stand for: built in, or of a known class.
-/

namespace Sigil

open SymbolTable (forall_push)

/-! ## Parts of expressions -/

mutual

/-- What an expression combines by parentheses and arithmetic, from left to right. -/
def Expr.leaves : Expr → List Expr
  | .paren inner _ => inner.leaves
  | .chain _ first rest _ => first.leaves ++ Expr.operandLeaves rest
  | expr => [expr]

/-- What the operands of a chain combine. -/
def Expr.operandLeaves : List (Sign × Expr) → List Expr
  | [] => []
  | (_, operand) :: rest => operand.leaves ++ Expr.operandLeaves rest

end

namespace Expr

/-- The arguments of a call. -/
def args : Expr → List Expr
  | .call _ _ args _ => args
  | _ => []

/-- The arguments of all calls in an expression, at any depth. -/
def arguments (expr : Expr) : List Expr := expr.parts.flatMap args

theorem operandLeaves_eq (rest : List (Sign × Expr)) :
    operandLeaves rest = rest.flatMap fun operand => operand.2.leaves := by
  induction rest with
  | nil => rfl
  | cons operand rest ih => rw [operandLeaves, ih, List.flatMap_cons]

end Expr

/-- Only where `none` is declared does `none` fit. -/
theorem Hierarchy.accepts_none_iff {hierarchy : Hierarchy} {declared : Ty} :
    hierarchy.accepts declared .none = true ↔ declared = .none := by
  cases declared <;> simp [accepts]

namespace Declarations

variable {decls : Declarations}

/-! ## Expressions that have a type -/

/-- Each argument has a type, and some parameter takes it. -/
theorem typed_of_inferArgs {method : String} {params : List (String × Ty)} {args : List Expr}
    (arity : args.length = params.length)
    (passed : verdict (decls.inferArgs method params args) = .ok ()) :
    ∀ arg ∈ args, ∃ found, decls.typeOf arg = .ok found ∧
      ∃ param ∈ params, decls.hierarchy.accepts param.2 found = true := by
  induction args generalizing params with
  | nil => simp
  | cons arg args ih =>
    obtain _ | ⟨⟨param, declared⟩, params⟩ := params
    · cases arity
    · have shorter : args.length = params.length := Nat.succ.inj arity
      rw [verdict_inferArgs_cons shorter, except_bind_eq_ok_iff] at passed
      obtain ⟨found, here, passed⟩ := passed
      obtain ⟨_, fits, passed⟩ := except_bind_eq_ok_iff.mp passed
      have later := ih shorter passed
      refine List.forall_mem_cons.mpr ⟨⟨found, here, _, List.mem_cons_self, ?_⟩, ?_⟩
      · exact require_eq_ok_iff.mp fits
      · intro other member
        obtain ⟨type, typed, taken, also, takes⟩ := later other member
        exact ⟨type, typed, taken, List.mem_cons_of_mem _ also, takes⟩

/-- A call that has a type reaches a method that returns it and takes its arguments. -/
theorem reaches_of_typeOf_call {receiver : Option Ident} {method : Ident} {args : List Expr}
    {span : Span} {type : Ty} (typed : decls.typeOf (.call receiver method args span) = .ok type) :
    ∃ entry, decls.Reaches receiver method entry ∧ entry.returnType = type ∧
      ∀ arg ∈ args, ∃ found, decls.typeOf arg = .ok found ∧
        ∃ param ∈ entry.params, decls.hierarchy.accepts param.2 found = true := by
  rw [typeOf_call, except_bind_eq_ok_iff] at typed
  obtain ⟨entry, reached, typed⟩ := typed
  obtain ⟨_, counted, typed⟩ := except_bind_eq_ok_iff.mp typed
  obtain ⟨_, passed, typed⟩ := except_bind_eq_ok_iff.mp typed
  have arity := require_eq_ok_iff.mp counted
  exact ⟨entry, verdict_callee_eq_ok_iff.mp reached, Except.ok.inj typed,
    typed_of_inferArgs arity passed⟩

/-- All parts of an expression that has a type have one. -/
theorem typed_of_mem_parts {expr : Expr} {type : Ty} (typed : decls.typeOf expr = .ok type) :
    ∀ part ∈ expr.parts, ∃ found, decls.typeOf part = .ok found := by
  induction expr generalizing type with
  | paren inner span ih => exact List.forall_mem_cons.mpr ⟨⟨type, typed⟩, ih typed⟩
  | chain precedence first rest span ih ihs =>
    refine List.forall_mem_cons.mpr ⟨⟨type, typed⟩, fun part member => ?_⟩
    obtain ⟨⟨left, here⟩, others⟩ :=
      List.forall_mem_cons.mp (typeOf_chain_iff_joins.mp typed).typed
    rcases List.mem_append.mp member with inFirst | inRest
    · exact ih here part inFirst
    · rw [Expr.operandParts_eq] at inRest
      obtain ⟨operand, also, inside⟩ := List.mem_flatMap.mp inRest
      obtain ⟨found, operandTyped⟩ := List.forall_mem_map.mp others operand also
      exact ihs operand also operandTyped part inside
  | call receiver method args span ihs =>
    refine List.forall_mem_cons.mpr ⟨⟨type, typed⟩, fun part member => ?_⟩
    obtain ⟨entry, _, _, passed⟩ := reaches_of_typeOf_call typed
    rw [Expr.argParts_eq] at member
    obtain ⟨arg, also, inside⟩ := List.mem_flatMap.mp member
    obtain ⟨found, argTyped, _⟩ := passed arg also
    exact ihs arg also argTyped part inside
  | _ => exact List.forall_mem_singleton.mpr ⟨type, typed⟩

namespace Built

/-! ## Declared types -/

/-- The type of a variable, parameter or field has values. -/
theorem ne_none_of_isValue (built : decls.Built) :
    ∀ symbol ∈ decls.symbols.toList, symbol.role.isValue = true → symbol.type ≠ .none := by
  induction built with
  | refl => simp
  | tail _ step ih =>
    cases step with
    | value _ _ _ _ known _ =>
      exact forall_push.mpr ⟨ih, fun _ => (valueType_eq_ok_iff.mp known).2.1⟩
    | method _ _ _ _ _ _ _ _ => exact forall_push.mpr ⟨ih, fun absurd => by cases absurd⟩
    | classDecl _ _ _ _ _ => exact forall_push.mpr ⟨ih, fun absurd => by cases absurd⟩

/-- Only a method has type `none`. -/
theorem isMethod_of_none (built : decls.Built) {symbol : Symbol}
    (member : symbol ∈ decls.symbols.toList) (none : symbol.type = .none) :
    symbol.role = .method := by
  have value := built.ne_none_of_isValue symbol member
  have ofClass := built.className symbol member
  cases role : symbol.role with
  | method => rfl
  | classType =>
    rw [(ofClass role).2] at none
    cases none
  | _ =>
    rw [role] at value
    exact absurd none (value rfl)

theorem ne_none_of_holds (built : decls.Built) {name : String} {type : Ty}
    (holds : decls.Holds name type) : type ≠ .none := by
  obtain ⟨symbol, found, value, rfl⟩ := holds
  have member := (built.indexed.lookup?_eq_some_iff_mem.mp found).1
  exact built.ne_none_of_isValue symbol member value

theorem ne_none_of_field? (built : decls.Built) {className field : String} {type : Ty}
    (found : decls.field? className field = some type) : type ≠ .none := by
  obtain ⟨_, _, symbol, member, _, role, rfl⟩ := built.field_of_field? found
  exact built.ne_none_of_isValue symbol member (by rw [role]; rfl)

/-- A field that a class lists is the symbol of a value. -/
theorem symbol_of_field (built : decls.Built) {key : String} {entry : ClassEntry}
    (found : decls.classes[key]? = some entry) {field : String × Ty}
    (member : field ∈ entry.fields) :
    ∃ symbol ∈ decls.symbols.toList, symbol.type = field.2 ∧ symbol.role.isValue = true := by
  rw [built.fields_eq found] at member
  obtain ⟨symbol, declared, _, role, type⟩ := mem_ownFields_iff.mp member
  exact ⟨symbol, declared, type, by rw [role]; rfl⟩

/-- A parameter that a method lists is the symbol of a value. -/
theorem symbol_of_param (built : decls.Built) {key : String} {entry : MethodEntry}
    (found : decls.methods[key]? = some entry) {param : String × Ty}
    (member : param ∈ entry.params) :
    ∃ symbol ∈ decls.symbols.toList, symbol.type = param.2 ∧ symbol.role.isValue = true := by
  obtain ⟨_, prior, params, _, later, listed, _, _, _, roles, shape⟩ := built.method_entry found
  rw [shape] at member
  obtain ⟨symbol, also, rfl⟩ := List.mem_map.mp member
  exact ⟨symbol, by simp [listed, also], rfl, by rw [roles symbol also]; rfl⟩

/-! ## Expressions of type `none`, and arguments -/

/-- An expression of type `none` combines calls that return nothing. -/
theorem calls_of_none (built : decls.Built) {expr : Expr}
    (typed : decls.typeOf expr = .ok .none) :
    ∀ leaf ∈ expr.leaves, ∃ receiver method args span entry,
      leaf = .call receiver method args span ∧ decls.Reaches receiver method entry ∧
        entry.returnType = .none := by
  induction expr with
  | literal value span =>
    rw [typeOf, infer, verdict_ofExcept] at typed
    cases value <;> cases typed
  | var name span =>
    exact absurd rfl (built.ne_none_of_holds (verdict_readValue_eq_ok_iff.mp typed))
  | paren inner span ih => exact ih typed
  | chain precedence first rest span ih ihs =>
    rw [typeOf_chain_iff_joins, joins_of_ne_fraction (by decide)] at typed
    obtain ⟨here, others⟩ := List.forall_mem_cons.mp typed
    intro leaf member
    rcases List.mem_append.mp member with inFirst | inRest
    · exact ih here leaf inFirst
    · rw [Expr.operandLeaves_eq] at inRest
      obtain ⟨operand, also, inside⟩ := List.mem_flatMap.mp inRest
      exact ihs operand also (List.forall_mem_map.mp others operand also) leaf inside
  | field object field span =>
    obtain ⟨className, _, found⟩ := verdict_inferField_eq_ok_iff.mp typed
    exact absurd rfl (built.ne_none_of_field? found)
  | call receiver method args span ihs =>
    obtain ⟨entry, reaches, returns, _⟩ := reaches_of_typeOf_call typed
    exact List.forall_mem_singleton.mpr
      ⟨receiver, method, args, span, entry, rfl, reaches, returns⟩
  | new ofClass span =>
    rw [typeOf, infer, verdict_inferNew] at typed
    split at typed <;> cases typed
  | unsupported source span => cases typed

/-- In an expression that has a type, every argument of every call has a value. -/
theorem value_of_argument (built : decls.Built) {expr : Expr} {type : Ty}
    (typed : decls.typeOf expr = .ok type) :
    ∀ arg ∈ expr.arguments, ∃ found, decls.typeOf arg = .ok found ∧ found ≠ .none := by
  intro arg member
  obtain ⟨part, inside, own⟩ := List.mem_flatMap.mp member
  obtain ⟨partType, partTyped⟩ := typed_of_mem_parts typed part inside
  cases part with
  | call receiver method args span =>
    obtain ⟨entry, reaches, _, passed⟩ := reaches_of_typeOf_call partTyped
    obtain ⟨found, argTyped, param, taken, fits⟩ := passed arg own
    refine ⟨found, argTyped, ?_⟩
    rintro rfl
    -- A parameter that takes `none` would have that type itself.
    have declared := Hierarchy.accepts_none_iff.mp fits
    obtain ⟨symbol, listed, same, holds⟩ :=
      built.symbol_of_param (built.method?_of_reaches reaches) taken
    exact built.ne_none_of_isValue symbol listed holds (same.trans declared)
  | _ => cases own

end Built

end Declarations

/-! ## Nodes that store, pass or show a value -/

namespace Node

/-- The expression whose value a node stores or shows. -/
def stored? : Node → Option Expr
  | .init _ expr _ | .assign _ expr _ | .output expr _ => some expr
  | _ => none

/-- The expressions whose values a node stores, shows or passes to a call. -/
def values (node : Node) : List Expr :=
  node.stored?.toList ++ node.exprs.flatMap Expr.arguments

variable {node : Node}

/-- What a node that passes stores or shows has a value, if it stands where a node of a program
stands. -/
theorem Passed.value_of_stored {base context left : Context} {before : List Node}
    (passed : node.Passed context left) (prior : Check.Passes base before context)
    (follows : node.Follows before) (built : context.toDeclarations.Built) {expr : Expr}
    (stores : node.stored? = some expr) :
    context.toDeclarations.typeOf expr ≠ .ok .none := by
  intro none
  have verdict := passed.verdict
  cases node with
  | init signature value span =>
    cases stores
    simp only [Node.verdict, none, except_bind_eq_ok_iff, require_eq_ok_iff] at verdict
    obtain ⟨found, ⟨⟩, same⟩ := verdict
    -- The variable was declared, so its type is not `none`.
    obtain ⟨decls, accepted⟩ := prior.verdict_of_mem follows
    have known := (verdict_value_eq_ok accepted).2.2
    exact (Declarations.valueType_eq_ok_iff.mp known).2.1 same.symm
  | assign target value span =>
    cases stores
    simp only [Node.verdict, none, except_bind_eq_ok_iff, require_eq_ok_iff] at verdict
    obtain ⟨declared, held, found, ⟨⟩, fits⟩ := verdict
    have holds := Declarations.verdict_readValue_eq_ok_iff.mp held
    exact built.ne_none_of_holds holds (Hierarchy.accepts_none_iff.mp fits)
  | output value span =>
    cases stores
    simp only [Node.verdict, none, except_bind_eq_ok_iff, require_eq_ok_iff] at verdict
    obtain ⟨found, ⟨⟩, shown⟩ := verdict
    exact shown rfl
  | _ => cases stores

/-- What a node that passes stores, shows or passes on has a value. -/
theorem Passed.value_of_mem {base context left : Context} {before : List Node}
    (passed : node.Passed context left) (prior : Check.Passes base before context)
    (follows : node.Follows before) (built : context.toDeclarations.Built) {expr : Expr}
    (member : expr ∈ node.values) : context.toDeclarations.typeOf expr ≠ .ok .none := by
  rcases List.mem_append.mp member with stored | argument
  · exact passed.value_of_stored prior follows built (Option.mem_toList.mp stored)
  · obtain ⟨whole, inside, given⟩ := List.mem_flatMap.mp argument
    obtain ⟨type, typed⟩ := typed_of_verdict passed.verdict whole inside
    obtain ⟨found, argTyped, value⟩ := built.value_of_argument typed expr given
    rw [argTyped]
    intro same
    exact value (Except.ok.inj same)

end Node

/-! ## Contexts -/

namespace Context

variable {context left : Context}

/-- Everything that was shown had a value, of a type that is still known. -/
def ShownAreValues (context : Context) : Prop :=
  ∀ output ∈ context.outputs, context.KnowsType output.type ∧ output.type ≠ .none

end Context

theorem Node.Passed.shownAreValues {node : Node} {context left : Context}
    (passed : node.Passed context left) (built : context.toDeclarations.Built)
    (values : context.ShownAreValues) : left.ShownAreValues := by
  have grows : ∀ type, context.KnowsType type → left.KnowsType type := by
    intro type known className object
    rw [passed.declarations]
    exact Node.knowsClass_declare node (known className object)
  intro output member
  rw [passed.outputs] at member
  rcases List.mem_append.mp member with before | new
  · obtain ⟨known, value⟩ := values output before
    exact ⟨grows _ known, value⟩
  · cases node with
    | output expr span =>
      obtain ⟨type, typed, shown⟩ := except_bind_eq_ok_iff.mp passed.verdict
      rw [Node.outputs, typed] at new
      obtain rfl := List.mem_singleton.mp new
      exact ⟨grows _ (built.knowsType_of_typeOf typed), require_eq_ok_iff.mp shown⟩
    | _ => cases new

theorem Check.Passes.shownAreValues {base context left : Context} {before nodes : List Node}
    (prior : Passes base before context) (passes : Passes context nodes left)
    (ordered : Node.Ordered before nodes) (built : context.toDeclarations.Built)
    (values : context.ShownAreValues) : left.ShownAreValues := by
  induction passes generalizing before with
  | nil => exact values
  | cons passed _ ih =>
    obtain ⟨follows, later⟩ := ordered
    have next : Declarations.Built _ := built.trans (passed.step prior follows)
    exact ih (prior.append (.cons passed (.nil _))) later next (passed.shownAreValues built values)

namespace Declarations

variable {decls : Declarations}

/-- A type that its name stands for: built in, or of a known class that is not named like a built-in
type. -/
structure WellFormed (decls : Declarations) (type : Ty) : Prop where
  known : ∀ className, type = .object className →
    className ∈ decls.classes ∧ className ∉ builtinTypeNames
  named : Ty.ofName type.name = type

theorem Built.wellFormed (built : decls.Built) {type : Ty} (known : decls.KnowsType type) :
    decls.WellFormed type := by
  have ofClass : ∀ className, type = .object className →
      className ∈ decls.classes ∧ className ∉ builtinTypeNames := by
    intro className object
    have declared := known className object
    refine ⟨Std.ExtTreeMap.contains_iff_mem.mp declared, fun builtin => ?_⟩
    rw [built.not_knowsClass_builtin builtin] at declared
    cases declared
  refine ⟨ofClass, ?_⟩
  cases type with
  | object className => exact Ty.ofName_eq_object_iff.mpr ⟨rfl, (ofClass className rfl).2⟩
  | _ => rfl

end Declarations

namespace Context

variable {context left : Context}

theorem Reachable.shownAreValues (reachable : context.Reachable) : context.ShownAreValues := by
  induction reachable with
  | empty => rintro _ ⟨⟩
  | infer _ expr ih =>
    rw [infer_eq]
    exact ih
  | @check context earlier warnUnused program ih =>
    have nothing := Check.Passes.nil context
    cases verdict : (context.check warnUnused program).verdict with
    | ok _ =>
      obtain ⟨left, passes, result⟩ := check_ok verdict
      have values := nothing.shownAreValues passes (Node.ordered_nodes program) earlier.built ih
      rw [result]
      cases warnUnused <;> exact values
    | error error =>
      obtain ⟨before, node, after, middle, _, ordered, _, passes, failed⟩ := check_error verdict
      have values := nothing.shownAreValues passes ordered earlier.built ih
      intro output member
      rw [failed.reads.outputs] at member
      rw [failed.reads.declarations]
      exact values output member

/-- All types that a context holds are well formed, and only methods have type `none`. -/
structure WellTyped (context : Context) : Prop where
  symbols : ∀ symbol ∈ context.symbols.toList,
    context.WellFormed symbol.type ∧ (symbol.type = .none → symbol.role = .method)
  fields : ∀ (key : String) (entry : ClassEntry), context.classes[key]? = some entry →
    ∀ field ∈ entry.fields, context.WellFormed field.2 ∧ field.2 ≠ .none
  params : ∀ (key : String) (entry : MethodEntry), context.methods[key]? = some entry →
    ∀ param ∈ entry.params, context.WellFormed param.2 ∧ param.2 ≠ .none
  returns : ∀ (key : String) (entry : MethodEntry), context.methods[key]? = some entry →
    context.WellFormed entry.returnType
  outputs : ∀ output ∈ context.outputs, context.WellFormed output.type ∧ output.type ≠ .none

theorem Reachable.wellTyped (reachable : context.Reachable) : context.WellTyped := by
  have built := reachable.built
  have stored : ∀ symbol ∈ context.symbols.toList, symbol.role.isValue = true →
      context.WellFormed symbol.type ∧ symbol.type ≠ .none := fun symbol member holds =>
    ⟨built.wellFormed (built.knowsType_of_mem symbol member),
      built.ne_none_of_isValue symbol member holds⟩
  refine
    { symbols := fun symbol member =>
        ⟨built.wellFormed (built.knowsType_of_mem symbol member), built.isMethod_of_none member⟩
      fields := fun key entry found field member => ?_
      params := fun key entry found param member => ?_
      returns := fun key entry found => built.wellFormed (built.knowsType_of_method found)
      outputs := fun output member => ?_ }
  · obtain ⟨symbol, declared, same, holds⟩ := built.symbol_of_field found member
    exact same ▸ stored symbol declared holds
  · obtain ⟨symbol, declared, same, holds⟩ := built.symbol_of_param found member
    exact same ▸ stored symbol declared holds
  · obtain ⟨known, value⟩ := reachable.shownAreValues output member
    exact ⟨built.wellFormed known, value⟩

/-- A check of the program from the context comes to a node that stores, shows or passes the value
of an expression; `middle` is the context at that moment. -/
def Meets (context : Context) (program : Program) (expr : Expr) (middle : Context) : Prop :=
  ∃ before node after, program.nodes = before ++ node :: after ∧ expr ∈ node.values ∧
    Check.Passes context before middle

/-- A check fails where it meets a value of type `none`. -/
theorem Meets.error (built : context.toDeclarations.Built) {program : Program} {expr : Expr}
    {middle : Context} (meets : context.Meets program expr middle)
    (none : middle.toDeclarations.typeOf expr = .ok .none) (warnUnused : Bool) :
    ∃ error, (context.check warnUnused program).verdict = .error error := by
  obtain ⟨before, node, after, split, member, prior⟩ := meets
  have ordered := Node.ordered_nodes program
  rw [split] at ordered
  have steps := (Check.Passes.nil context).steps prior (Node.ordered_append.mp ordered).1
  have current : middle.toDeclarations.Built := Relation.ReflTransGen.trans built steps
  rw [verdict_check, split, Node.verdictOf_append, prior.verdictOf, ← prior.declarations]
  change ∃ error, Node.verdictOf middle.toDeclarations (node :: after) = .error error
  cases verdict : node.verdict middle.toDeclarations with
  | error error => exact ⟨error, Node.verdictOf_cons_of_error verdict⟩
  | ok _ =>
    obtain ⟨left, ran⟩ : ∃ left, Check.checkNode node { context := middle } = .ok () left :=
      Check.exists_checkNode_ok verdict
    have passed := Check.checkNode_ok ran
    exact absurd none (passed.value_of_mem prior ordered.follows current member)

/-- In every reachable context all types are well formed and only methods have type `none`. So is
the type of every expression, and one of type `none` combines calls that return nothing. No value of
that type is ever passed, stored or shown: an expression that passes one has no type, and a check
that meets one fails. -/
theorem Reachable.none_is_no_value (reachable : context.Reachable) :
    context.WellTyped ∧
      (∀ expr type, (context.infer expr).1 = .ok type → context.WellFormed type ∧
        (type = .none → ∀ leaf ∈ expr.leaves, ∃ receiver method args span entry,
          leaf = .call receiver method args span ∧ context.Reaches receiver method entry ∧
            context.methods[method.name]? = some entry ∧ entry.returnType = .none) ∧
        ∀ arg ∈ expr.arguments, (context.infer arg).1 ≠ .ok .none) ∧
      ∀ program expr middle, context.Meets program expr middle →
        (middle.infer expr).1 = .ok .none → ∀ warnUnused, ∃ error,
          (context.check warnUnused program).verdict = .error error := by
  have built := reachable.built
  simp only [infer_eq]
  refine ⟨reachable.wellTyped, fun expr type typed => ⟨?_, ?_, ?_⟩, ?_⟩
  · exact built.wellFormed (built.knowsType_of_typeOf typed)
  · rintro rfl leaf member
    obtain ⟨receiver, method, args, span, entry, call, reaches, returns⟩ :=
      built.calls_of_none typed leaf member
    exact ⟨receiver, method, args, span, entry, call, reaches, built.method?_of_reaches reaches,
      returns⟩
  · intro arg member none
    obtain ⟨found, argTyped, value⟩ := built.value_of_argument typed arg member
    exact value (Except.ok.inj (argTyped.symm.trans none))
  · exact fun program expr middle meets none => meets.error built none

/-- A class with a field and a method without a value, an object of it, and an output. -/
def horn : Program :=
  [.classDecl
    { name := ⟨"Horn", .zero⟩
      parent := none
      fields := [⟨⟨"$tone", .zero⟩, ⟨"fraction", .zero⟩⟩]
      methods :=
        [{ name := ⟨"blow", .zero⟩
           params := [⟨⟨"$times", .zero⟩, ⟨"chunk", .zero⟩⟩]
           returnType := ⟨"none", .zero⟩
           body := []
           result := none
           span := .zero }]
      span := .zero },
   .var
    { signature := ⟨⟨"$horn", .zero⟩, ⟨"Horn", .zero⟩⟩
      init := some (.newOf "Horn" .zero)
      span := .zero },
   .output (.var "$horn" .zero) .zero]

/-- A call that returns nothing. -/
def blowing : Expr :=
  .call (some ⟨"$horn", .zero⟩) ⟨"blow", .zero⟩ [.literal (.chunk 2) .zero] .zero

theorem none_is_no_value_horn :
    let left := ((∅ : Context).check true horn).context
    let twice : Expr := .add (.paren blowing .zero) blowing
    ((∅ : Context).check true horn).verdict = .ok () ∧ left.outputs = [⟨.object "Horn", .zero⟩] ∧
      left.WellFormed (.object "Horn") ∧
      (left.infer twice).1 = .ok .none ∧ twice.leaves = [blowing, blowing] ∧
      (∃ entry, left.methods["blow"]? = some entry ∧ entry.returnType = .none) ∧
      ∃ error, (left.check true [.output twice .zero]).verdict = .error error := by
  intro left twice
  have reachable : left.Reachable := .check .empty true horn
  obtain ⟨types, typed, checked⟩ := Reachable.none_is_no_value reachable
  have silent : (left.infer twice).1 = .ok .none := by decide +kernel
  have shown : left.outputs = [⟨.object "Horn", .zero⟩] := rfl
  have meets : left.Meets [.output twice .zero] twice left :=
    ⟨[], .output twice .zero, [], rfl, List.mem_cons_self, .nil left⟩
  obtain ⟨_, calls, _⟩ := typed twice .none silent
  obtain ⟨_, _, _, _, entry, call, _, declared, returns⟩ := calls rfl blowing (.head _)
  cases call
  refine ⟨rfl, shown, ?_, silent, rfl, ⟨entry, declared, returns⟩, ?_⟩
  · exact (types.outputs ⟨.object "Horn", .zero⟩ (shown ▸ .head _)).1
  · exact checked _ twice left meets silent true

end Context

end Sigil
