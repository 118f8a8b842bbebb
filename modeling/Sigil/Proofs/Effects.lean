import Sigil.Proofs.Reading
import Sigil.Proofs.Traversal

/-! # What a node asks for and what it leaves

`Node.verdict` is what a node asks of the declarations before it: it passes or gives the error. The
expressions of a node are typed in order, up to the first that has no type, and the names that they
mention count as read. A node that passes then adds its one declaration, its one output and its one
event; a node that fails adds nothing more. `Run.meet` says all of this of a run, and
`checkNode_run` that it is what checking the node does. Proofs about checks go by that equation, so
a rule of a check is looked into here and nowhere else.

A check, also one that stops, is then a run of passed nodes and at most one failed node that has
declared nothing, and `checkNodes_ok` and `checkNodes_error` say so.
-/

namespace Sigil

namespace Declarations

/-- The declarations with one more variable, parameter or field. -/
def addValue (decls : Declarations) (role : Role) (name : String) (type : Ty) (span : Span) :
    Declarations :=
  { decls with
    symbols := decls.symbols.push (.declaredAt name role type span)
    classes :=
      match role with
      | .field className => decls.classes.modify className (·.addField name type)
      | _ => decls.classes }

/-- The declarations with one more method. -/
def addMethod (decls : Declarations) (entry : MethodEntry) (span : Span) : Declarations :=
  { decls with
    symbols := decls.symbols.push (.declaredAt entry.name .method entry.returnType span)
    methods := decls.methods.insert entry.name entry
    classes :=
      match entry.owner with
      | none => decls.classes
      | some owner => decls.classes.modify owner (·.addMethod entry.name) }

/-- The declarations with one more class. -/
def addClass (decls : Declarations) (name : String) (parent : Option String) (span : Span) :
    Declarations :=
  { decls with
    symbols := decls.symbols.push (.declaredAt name .classType (.object name) span)
    hierarchy := decls.hierarchy.insert name parent
    classes := decls.classes.insert name { name, parent, span } }

end Declarations

namespace Node

/-- The entry of a declared method. -/
def methodEntry (owner : Option String) (name : Ident) (params : List Signature)
    (returns : TypeRef) : MethodEntry :=
  ⟨name.name, params.map Signature.param, Ty.ofName returns.name, owner⟩

/-- The declarations after a node. -/
def declare (decls : Declarations) : Node → Declarations
  | .value role signature span =>
      decls.addValue role signature.name.name (Ty.ofName signature.type.name) span
  | .method owner name params returns span =>
      decls.addMethod (methodEntry owner name params returns) span
  | .classDecl name parent span => decls.addClass name.name (parent.map Ident.name) span
  | _ => decls

/-- The symbol that a node declares. -/
def symbol? : Node → Option Symbol
  | .value role signature span =>
      some (.declaredAt signature.name.name role (Ty.ofName signature.type.name) span)
  | .method _ name _ returns span =>
      some (.declaredAt name.name .method (Ty.ofName returns.name) span)
  | .classDecl name _ span => some (.declaredAt name.name .classType (.object name.name) span)
  | _ => none

/-- The names that a node mentions as a variable, a target, a receiver, an object or a field. -/
def refs : Node → List String
  | .init _ expr _ | .output expr _ | .eval expr => expr.refs
  | .result _ _ returned => returned.value.refs
  | .assign target expr _ => target.name :: expr.refs
  | .value _ _ _ | .methodName _ | .method _ _ _ _ _ | .classDecl _ _ _ => []

/-- The expressions that a node types, in order; the target of an assignment is read like a
variable. -/
def exprs : Node → List Expr
  | .init _ expr _ | .output expr _ | .eval expr => [expr]
  | .result _ _ returned => [returned.value]
  | .assign target expr _ => [.var target.name target.span, expr]
  | .value _ _ _ | .methodName _ | .method _ _ _ _ _ | .classDecl _ _ _ => []

theorem refs_eq (node : Node) : node.refs = node.exprs.flatMap Expr.refs := by
  cases node <;> simp [refs, exprs, Expr.refs]

/-- The output that a node gives if its value has a type. -/
def outputs (decls : Declarations) : Node → List Output
  | .output expr span => (decls.typeOf expr).toOption.toList.map fun type => ⟨type, span⟩
  | _ => []

/-- What a node that passes logs. -/
def events (decls : Declarations) : Node → List Event
  | .value role signature _ =>
      [.declaredValue role.category signature.name.name (Ty.ofName signature.type.name)]
  | .method _ name _ returns _ => [.declaredMethod name.name (Ty.ofName returns.name)]
  | .classDecl name parent _ => [.declaredClass name.name (parent.map Ident.name)]
  | node => (node.outputs decls).map .shown

/-- Refuses a name with a fault. -/
def refuse (fault? : Option NameFault) (name : String) (span : Span) : Except Error Unit :=
  match fault? with
  | none => .ok ()
  | some fault => .error ⟨.invalidName name fault, span⟩

/-- Refuses a name that is already declared. -/
def refuseDeclared (decls : Declarations) (category : Category) (name : String) (span : Span) :
    Except Error Unit :=
  require (!decls.symbols.contains name) ⟨.redeclared (.symbol category) name, span⟩

theorem refuse_eq_ok_iff {fault? : Option NameFault} {name : String} {span : Span} {value : Unit} :
    refuse fault? name span = .ok value ↔ fault? = none := by
  cases fault? <;> simp [refuse]

theorem refuse_eq_error_iff {fault? : Option NameFault} {name : String} {span : Span}
    {error : Error} :
    refuse fault? name span = .error error ↔
      ∃ fault, fault? = some fault ∧ error = ⟨.invalidName name fault, span⟩ := by
  cases fault? <;> simp [refuse, eq_comm]

theorem refuseDeclared_eq_ok_iff {decls : Declarations} {category : Category} {name : String}
    {span : Span} {value : Unit} :
    refuseDeclared decls category name span = .ok value ↔
      decls.symbols.contains name = false := by
  simp [refuseDeclared, require_eq_ok_iff]

theorem refuseDeclared_eq_error_iff {decls : Declarations} {category : Category} {name : String}
    {span : Span} {error : Error} :
    refuseDeclared decls category name span = .error error ↔
      decls.symbols.contains name = true ∧
        error = ⟨.redeclared (.symbol category) name, span⟩ := by
  rw [refuseDeclared, require_eq_error_iff, eq_comm (a := error)]
  simp

/-- What a node asks of the declarations before it. -/
def verdict (decls : Declarations) : Node → Except Error Unit
  | .value role signature span => do
      refuse (variableNameFault? signature.name.name) signature.name.name span
      refuseDeclared decls role.category signature.name.name span
      let _ ← decls.valueType signature.type
  | .init signature expr span => do
      let declared := Ty.ofName signature.type.name
      let found ← decls.typeOf expr
      require (found = declared) ⟨.mismatch (.stored found declared signature.name.name), span⟩
  | .methodName name => refuse (methodNameFault? name.name) name.name name.span
  | .method _ name _ returns span => do
      refuseDeclared decls .method name.name span
      let _ ← decls.returnType returns
  | .result name returns returned => do
      let declared := Ty.ofName returns.name
      let found ← decls.typeOf returned.value
      require (found = declared) ⟨.mismatch (.returned declared found name.name), returned.span⟩
  | .classDecl name parent span => do
      refuse (classNameFault? name.name) name.name name.span
      refuseDeclared decls .classType name.name span
      match parent with
      | none => return ()
      | some parent =>
          require (decls.knowsClass parent.name) ⟨.unknownType parent.name, parent.span⟩
  | .assign target expr span => do
      let declared ← decls.typeOf (.var target.name target.span)
      let found ← decls.typeOf expr
      require (decls.hierarchy.accepts declared found)
        ⟨.mismatch (.stored found declared target.name), span⟩
  | .output expr span => do
      let type ← decls.typeOf expr
      require (type ≠ .none) ⟨.misuse .showNone, span⟩
  | .eval expr => do
      let _ ← decls.typeOf expr

/-- The expressions of a node that passes have types. -/
theorem typed_of_verdict {node : Node} {decls : Declarations}
    (passed : node.verdict decls = .ok ()) :
    ∀ expr ∈ node.exprs, ∃ type, decls.typeOf expr = .ok type := by
  cases node with
  | assign target expr span =>
    obtain ⟨declared, held, passed⟩ := except_bind_eq_ok_iff.mp passed
    obtain ⟨found, typed, _⟩ := except_bind_eq_ok_iff.mp passed
    exact List.forall_mem_cons.mpr
      ⟨⟨declared, held⟩, List.forall_mem_singleton.mpr ⟨found, typed⟩⟩
  | init | result | output | eval =>
    obtain ⟨found, typed, _⟩ := except_bind_eq_ok_iff.mp passed
    exact List.forall_mem_singleton.mpr ⟨found, typed⟩
  | _ => rintro _ ⟨⟩

end Node

namespace Context

/-- `left` knows what `context` knows, and some of `names` as read, each of them readable. -/
structure Reads (context : Context) (names : List String) (left : Context) : Prop where
  declarations : left.toDeclarations = context.toDeclarations
  outputs : left.outputs = context.outputs
  warnings : left.warnings = context.warnings
  grows : ∀ name ∈ context.used, name ∈ left.used
  within : ∀ name ∈ left.used,
    name ∈ context.used ∨ name ∈ names ∧ context.toDeclarations.Readable name

namespace Reads

variable {context middle left : Context} {names more : List String}

theorem refl (context : Context) (names : List String) : context.Reads names context :=
  ⟨rfl, rfl, rfl, fun _ member => member, fun _ member => .inl member⟩

theorem trans (first : context.Reads names middle) (second : middle.Reads more left) :
    context.Reads (names ++ more) left where
  declarations := second.declarations.trans first.declarations
  outputs := second.outputs.trans first.outputs
  warnings := second.warnings.trans first.warnings
  grows name member := second.grows name (first.grows name member)
  within name member := by
    rcases second.within name member with before | ⟨mentioned, readable⟩
    · rcases first.within name before with old | ⟨mentioned, readable⟩
      · exact .inl old
      · exact .inr ⟨List.mem_append_left more mentioned, readable⟩
    · exact .inr ⟨List.mem_append_right names mentioned, first.declarations ▸ readable⟩

end Reads

/-- Typing an expression reads names that it mentions and does nothing else. -/
theorem reads_reading (context : Context) (expr : Expr) :
    context.Reads expr.refs (context.reading expr) where
  declarations := rfl
  outputs := rfl
  warnings := rfl
  grows := (context.toDeclarations.reading_infer expr).grows context.used
  within := (context.toDeclarations.reading_infer expr).within context.used

/-- An expression that has a type reads all names that it mentions. -/
theorem mem_used_reading {context : Context} {expr : Expr} {type : Ty}
    (typed : context.toDeclarations.typeOf expr = .ok type) (name : String) :
    name ∈ (context.reading expr).used ↔ name ∈ context.used ∨ name ∈ expr.refs := by
  have reading := context.toDeclarations.reading_infer expr
  constructor
  · intro member
    rcases reading.within context.used name member with before | ⟨here, _⟩
    · exact .inl before
    · exact .inr here
  · rintro (before | here)
    · exact reading.grows context.used name before
    · exact reading.complete context.used type typed name here

end Context

/-- The names that an expression with a type mentions are readable. -/
theorem Declarations.readable_of_typeOf {decls : Declarations} {expr : Expr} {type : Ty}
    (typed : decls.typeOf expr = .ok type) : ∀ name ∈ expr.refs, decls.Readable name := by
  intro name member
  have reading := decls.reading_infer expr
  have read := reading.complete ∅ type typed name member
  rcases reading.within ∅ name read with before | ⟨_, readable⟩
  · exact absurd before Std.ExtTreeSet.not_mem_empty
  · exact readable

namespace Context

/-- Typing an expression adds names that it mentions to the names read, all of them if it has a
type, and changes nothing else. Its type or its error follows from the declarations alone. -/
theorem infer_only_reads (context : Context) (expr : Expr) :
    context.Reads expr.refs (context.infer expr).2 ∧
      (∀ type, (context.infer expr).1 = .ok type → ∀ name,
        name ∈ (context.infer expr).2.used ↔ name ∈ context.used ∨ name ∈ expr.refs) ∧
      ∀ other : Context, other.toDeclarations = context.toDeclarations →
        (other.infer expr).1 = (context.infer expr).1 := by
  simp only [infer_eq]
  refine ⟨context.reads_reading expr, fun type typed => ?_, ?_⟩
  · exact mem_used_reading typed
  · intro other same
    rw [same]

/-- Declarations that no check leaves: two classes that inherit from each other, one of them without
an entry, and an object of that one, which has a field that is no symbol. -/
def knot : Declarations where
  symbols := (∅ : SymbolTable).push (.declaredAt "$rope" .var (.object "Loop") .zero)
  hierarchy := ((∅ : Hierarchy).insert "Loop" (some "Bend")).insert "Bend" (some "Loop")
  classes := Std.ExtTreeMap.insert ∅ "Bend"
    { name := "Bend", parent := none, fields := [("$turns", .chunk)], span := .zero }

theorem infer_only_reads_knot :
    let turns : Expr := .field ⟨"$rope", .zero⟩ ⟨"$turns", .zero⟩ .zero
    let context : Context := { toDeclarations := knot }
    let other : Context := { context with outputs := [⟨.chunk, .zero⟩] }
    (context.infer turns).1 = .ok .chunk ∧ (other.infer turns).1 = .ok .chunk ∧
      (∀ name, name ∈ (context.infer turns).2.used ↔ name ∈ ["$rope", "$turns"]) ∧
      (context.infer turns).2.symbols.toList = knot.symbols.toList := by
  intro turns context other
  obtain ⟨reads, exact, blind⟩ := infer_only_reads context turns
  have typed : (context.infer turns).1 = .ok .chunk :=
    toOption_eq_some_iff.mp (by decide +kernel)
  refine ⟨typed, ?_, fun name => ?_, ?_⟩
  · rw [blind other rfl, typed]
  · exact (exact .chunk typed name).trans (or_iff_right Std.ExtTreeSet.not_mem_empty)
  · exact congrArg (fun decls => decls.symbols.toList) reads.declarations

end Context

/-! ## Expressions in order -/

namespace Context

/-- The context after expressions were typed in order, up to the first that has no type. -/
def readingAll (context : Context) : List Expr → Context
  | [] => context
  | expr :: rest =>
      match context.toDeclarations.typeOf expr with
      | .ok _ => readingAll (context.reading expr) rest
      | .error _ => context.reading expr

theorem readingAll_singleton (context : Context) (expr : Expr) :
    context.readingAll [expr] = context.reading expr := by
  rw [readingAll]
  cases context.toDeclarations.typeOf expr <;> rfl

theorem reads_readingAll (context : Context) (exprs : List Expr) :
    context.Reads (exprs.flatMap Expr.refs) (context.readingAll exprs) := by
  induction exprs generalizing context with
  | nil => exact .refl context []
  | cons expr rest ih =>
    rw [readingAll, List.flatMap_cons]
    cases context.toDeclarations.typeOf expr with
    | error _ => exact (context.reads_reading expr).trans (.refl _ _)
    | ok _ => exact (context.reads_reading expr).trans (ih _)

/-- Expressions that have types read all names that they mention. -/
theorem mem_used_readingAll {context : Context} {exprs : List Expr}
    (typed : ∀ expr ∈ exprs, ∃ type, context.toDeclarations.typeOf expr = .ok type)
    (name : String) :
    name ∈ (context.readingAll exprs).used ↔
      name ∈ context.used ∨ name ∈ exprs.flatMap Expr.refs := by
  induction exprs generalizing context with
  | nil => simp [readingAll]
  | cons expr rest ih =>
    obtain ⟨⟨type, here⟩, later⟩ := List.forall_mem_cons.mp typed
    have next : name ∈ ((context.reading expr).readingAll rest).used ↔
        name ∈ (context.reading expr).used ∨ name ∈ rest.flatMap Expr.refs := ih later
    rw [mem_used_reading here, or_assoc] at next
    simpa only [readingAll, here, List.flatMap_cons, List.mem_append] using next

end Context

/-! ## What a node leaves -/

namespace Node

/-- What a node that passes leaves behind. -/
structure Passed (node : Node) (context left : Context) : Prop where
  verdict : node.verdict context.toDeclarations = .ok ()
  declarations : left.toDeclarations = node.declare context.toDeclarations
  outputs : left.outputs = context.outputs ++ node.outputs context.toDeclarations
  warnings : left.warnings = context.warnings
  used : ∀ name, name ∈ left.used ↔ name ∈ context.used ∨ name ∈ node.refs
  readable : ∀ name ∈ node.refs, context.toDeclarations.Readable name

/-- What a node that fails leaves behind. -/
structure Failed (node : Node) (error : Error) (context left : Context) : Prop where
  verdict : node.verdict context.toDeclarations = .error error
  reads : context.Reads node.refs left

end Node

namespace Run

variable {node : Node} {run : Run} {error : Error}

/-- The run after a node that fails: what it typed counts as read. -/
def fail (run : Run) (node : Node) : Run :=
  { run with context := run.context.readingAll node.exprs }

/-- The run after a node that passes: it has also declared, shown and logged what it has to. -/
def pass (run : Run) (node : Node) : Run where
  context :=
    { run.context.readingAll node.exprs with
      toDeclarations := node.declare run.context.toDeclarations
      outputs := run.context.outputs ++ node.outputs run.context.toDeclarations }
  log := run.log ++ node.events run.context.toDeclarations

/-- What comes of a node in a run. -/
def meet (run : Run) (node : Node) : EStateM.Result Error Run Unit :=
  match node.verdict run.context.toDeclarations with
  | .ok _ => .ok () (run.pass node)
  | .error error => .error error (run.fail node)

theorem meet_of_ok (passed : node.verdict run.context.toDeclarations = .ok ()) :
    run.meet node = .ok () (run.pass node) := by
  rw [meet, passed]

theorem meet_of_error (failed : node.verdict run.context.toDeclarations = .error error) :
    run.meet node = .error error (run.fail node) := by
  rw [meet, failed]

/-- A node that types nothing adds its declaration and its event. -/
theorem pass_of_untyped (untyped : node.exprs = [])
    (shows : node.outputs run.context.toDeclarations = []) :
    run.pass node =
      { context := { run.context with
          toDeclarations := node.declare run.context.toDeclarations }
        log := run.log ++ node.events run.context.toDeclarations } := by
  rw [pass, untyped, shows, List.append_nil, Context.readingAll]

/-- A node that has nothing to add leaves the same whether it passes or fails. -/
theorem pass_eq_fail
    (declares : node.declare run.context.toDeclarations = run.context.toDeclarations)
    (shows : node.outputs run.context.toDeclarations = [])
    (logs : node.events run.context.toDeclarations = []) : run.pass node = run.fail node := by
  have reads := run.context.reads_readingAll node.exprs
  rw [pass, fail, declares, shows, logs, List.append_nil, List.append_nil, ← reads.declarations,
    ← reads.outputs]

theorem passed_pass (passed : node.verdict run.context.toDeclarations = .ok ()) :
    node.Passed run.context (run.pass node).context where
  verdict := passed
  declarations := rfl
  outputs := rfl
  warnings := (run.context.reads_readingAll node.exprs).warnings
  used name := by
    rw [node.refs_eq]
    exact Context.mem_used_readingAll (Node.typed_of_verdict passed) name
  readable name member := by
    rw [node.refs_eq] at member
    obtain ⟨expr, among, mentioned⟩ := List.mem_flatMap.mp member
    obtain ⟨type, typed⟩ := Node.typed_of_verdict passed expr among
    exact Declarations.readable_of_typeOf typed name mentioned

theorem failed_fail (failed : node.verdict run.context.toDeclarations = .error error) :
    node.Failed error run.context (run.fail node).context where
  verdict := failed
  reads := by
    rw [node.refs_eq]
    exact run.context.reads_readingAll node.exprs

end Run

/-! ## Checking a node -/

namespace Check

theorem infer_run (expr : Expr) (run : Run) :
    infer expr run =
      match run.context.toDeclarations.typeOf expr with
      | .ok type => .ok type { run with context := run.context.reading expr }
      | .error error => .error error { run with context := run.context.reading expr } := by
  unfold infer
  rw [Context.infer_eq]
  cases run.context.toDeclarations.typeOf expr <;> rfl

theorem require_run (condition : Prop) [Decidable condition] (error : Error) (run : Run) :
    (require condition error : Check Unit) run =
      if condition then .ok () run else .error error run := by
  unfold require
  split <;> rfl

theorem registerMethod_run {entry : MethodEntry} {span : Span} {run : Run}
    (fresh : run.context.symbols.contains entry.name = false) :
    registerMethod entry span run =
      .ok () { context := { run.context with
                 toDeclarations := run.context.toDeclarations.addMethod entry span }
               log := run.log ++ [.declaredMethod entry.name entry.returnType] } := by
  rw [registerMethod, bind_run, register_run fresh]
  rfl

theorem registerClass_run {name : String} {parent : Option String} {span : Span} {run : Run}
    (fresh : run.context.symbols.contains name = false) :
    registerClass name parent span run =
      .ok () { context := { run.context with
                 toDeclarations := run.context.toDeclarations.addClass name parent span }
               log := run.log ++ [.declaredClass name parent] } := by
  rw [registerClass, bind_run, update_run]
  simp only [bind_run]
  rw [register_run]
  · rfl
  · exact fresh

/-- A value is declared in one step: its symbol, and for a field the entry of its class. -/
theorem checkNode_value (role : Role) (signature : Signature) (span : Span) (run : Run) :
    checkNode (.value role signature span) run = run.meet (.value role signature span) := by
  rw [checkNode, bind_run, declareValue_run, Run.meet, Node.verdict, Run.pass_of_untyped rfl rfl]
  cases variableNameFault? signature.name.name with
  | some fault => rfl
  | none =>
    simp only [Node.refuseDeclared]
    cases run.context.symbols.contains signature.name.name with
    | true => rfl
    | false =>
      cases written : run.context.toDeclarations.valueType signature.type with
      | error error => rfl
      | ok type =>
        obtain rfl := (Declarations.valueType_eq_ok_iff.mp written).1
        cases role <;> rfl

/-- A method is declared in one step, with its parameters already declared. -/
theorem checkNode_method (owner : Option String) (name : Ident) (params : List Signature)
    (returns : TypeRef) (span : Span) (run : Run) :
    checkNode (.method owner name params returns span) run =
      run.meet (.method owner name params returns span) := by
  rw [checkNode, bind_run, requireFresh_run, Run.meet, Node.verdict, Run.pass_of_untyped rfl rfl,
    Node.refuseDeclared]
  cases declared : run.context.symbols.contains name.name with
  | true => rfl
  | false =>
    simp only [Bool.false_eq_true, ↓reduceIte, bind_run, ask_run]
    cases written : run.context.toDeclarations.returnType returns with
    | error error => rfl
    | ok type =>
      obtain rfl := (Declarations.returnType_eq_ok_iff.mp written).1
      exact registerMethod_run declared

/-- A class is declared in one step, without members. -/
theorem checkNode_classDecl (name : Ident) (parent : Option Ident) (span : Span) (run : Run) :
    checkNode (.classDecl name parent span) run = run.meet (.classDecl name parent span) := by
  have verdict : (Node.classDecl name parent span).verdict run.context.toDeclarations =
      Node.refuse (classNameFault? name.name) name.name name.span >>= fun _ =>
        Node.refuseDeclared run.context.toDeclarations .classType name.name span >>= fun _ =>
          match parent with
          | none => pure ()
          | some parent =>
              require (run.context.knowsClass parent.name)
                ⟨.unknownType parent.name, parent.span⟩ := rfl
  rw [checkNode, bind_run, requireName_run, Run.meet, verdict, Run.pass_of_untyped rfl rfl]
  cases classNameFault? name.name with
  | some fault => rfl
  | none =>
    simp only [bind_run, requireFresh_run, Node.refuseDeclared]
    cases declared : run.context.symbols.contains name.name with
    | true => rfl
    | false =>
      -- What is left is the parent, if there is one.
      cases parent with
      | none => exact registerClass_run declared
      | some parent =>
        simp only [Bool.false_eq_true, ↓reduceIte, requireParent, ask_run]
        by_cases known : run.context.knowsClass parent.name = true
        · rw [require_of_holds known]
          exact registerClass_run declared
        · rw [require_of_fails known]
          rfl

theorem checkNode_methodName (name : Ident) (run : Run) :
    checkNode (.methodName name) run = run.meet (.methodName name) := by
  rw [checkNode, requireName_run, Run.meet, Node.verdict, Run.pass_eq_fail rfl rfl rfl]
  cases methodNameFault? name.name <;> rfl

/-- A node that types one expression and asks one condition of its type, and adds nothing. -/
theorem infer_eq_meet {node : Node} {expr : Expr} {run : Run} {condition : Ty → Prop}
    [DecidablePred condition] {error : Ty → Error} (types : node.exprs = [expr])
    (verdict : node.verdict run.context.toDeclarations =
      run.context.toDeclarations.typeOf expr >>= fun type => require (condition type) (error type))
    (same : run.pass node = run.fail node) :
    (infer expr >>= fun type => require (condition type) (error type)) run = run.meet node := by
  have failed : run.fail node = { run with context := run.context.reading expr } := by
    rw [Run.fail, types, Context.readingAll_singleton]
  rw [bind_run, infer_run]
  cases typed : run.context.toDeclarations.typeOf expr with
  | error error =>
    rw [typed] at verdict
    rw [Run.meet_of_error verdict, failed]
  | ok type =>
    rw [typed] at verdict
    simp only [require_run]
    by_cases holds : condition type
    · rw [if_pos holds, Run.meet_of_ok (verdict.trans (require_of_holds holds)), same, failed]
    · rw [if_neg holds, Run.meet_of_error (verdict.trans (require_of_fails holds)), failed]

theorem checkNode_output (value : Expr) (span : Span) (run : Run) :
    checkNode (.output value span) run = run.meet (.output value span) := by
  rw [checkNode, checkOutput, bind_run, infer_run]
  cases typed : run.context.toDeclarations.typeOf value with
  | error error =>
    have verdict : (Node.output value span).verdict run.context.toDeclarations = .error error := by
      simp only [Node.verdict, typed]
      rfl
    rw [Run.meet_of_error verdict, Run.fail, Node.exprs, Context.readingAll_singleton]
  | ok type =>
    have verdict : (Node.output value span).verdict run.context.toDeclarations =
        require (type ≠ .none) ⟨.misuse .showNone, span⟩ := by
      simp only [Node.verdict, typed]
      rfl
    simp only [bind_run, require_run, log_run, update_run]
    by_cases shown : type ≠ .none
    · rw [if_pos shown, Run.meet_of_ok (verdict.trans (require_of_holds shown)), Run.pass,
        Node.exprs, Context.readingAll_singleton]
      simp only [Node.events, Node.outputs, typed]
      rfl
    · rw [if_neg shown, Run.meet_of_error (verdict.trans (require_of_fails shown)), Run.fail,
        Node.exprs, Context.readingAll_singleton]

theorem checkNode_eval (value : Expr) (run : Run) :
    checkNode (.eval value) run = run.meet (.eval value) := by
  rw [checkNode, bind_run, infer_run, Run.meet, Node.verdict, Run.pass_eq_fail rfl rfl rfl,
    Run.fail, Node.exprs, Context.readingAll_singleton]
  cases run.context.toDeclarations.typeOf value <;> rfl

/-- A node whose last step is a question passes or fails by the answer. -/
theorem ask_eq_meet {node : Node} {run left : Run} {query : Declarations → Except Error Unit}
    (verdict : node.verdict run.context.toDeclarations = query left.context.toDeclarations)
    (passed : run.pass node = left) (failed : run.fail node = left) :
    ask query left = run.meet node := by
  rw [ask_run, Run.meet, verdict, passed, failed]
  cases query left.context.toDeclarations <;> rfl

/-- The target of an assignment is read before its value. -/
theorem checkNode_assign (target : Ident) (value : Expr) (span : Span) (run : Run) :
    checkNode (.assign target value span) run = run.meet (.assign target value span) := by
  have verdict : (Node.assign target value span).verdict run.context.toDeclarations =
      run.context.toDeclarations.typeOf (.var target.name target.span) >>= fun declared =>
        run.context.toDeclarations.typeOf value >>= fun found =>
          require (run.context.hierarchy.accepts declared found)
            ⟨.mismatch (.stored found declared target.name), span⟩ := rfl
  rw [checkNode, checkAssign, readValue, bind_run, infer_run]
  cases held : run.context.toDeclarations.typeOf (.var target.name target.span) with
  | error error =>
    rw [held] at verdict
    rw [Run.meet_of_error verdict, Run.fail, Node.exprs, Context.readingAll, held]
  | ok declared =>
    have failed : run.fail (.assign target value span) =
        { run with
          context := (run.context.reading (.var target.name target.span)).reading value } := by
      rw [Run.fail, Node.exprs, Context.readingAll, held, Context.readingAll_singleton]
    simp only [bind_run, infer_run, Context.toDeclarations_reading]
    rw [held] at verdict
    cases typed : run.context.toDeclarations.typeOf value with
    | error error =>
      rw [typed] at verdict
      rw [Run.meet_of_error verdict, failed]
    | ok found =>
      rw [typed] at verdict
      exact ask_eq_meet verdict ((Run.pass_eq_fail rfl rfl rfl).trans failed) failed

/-- A node is checked in one step. -/
theorem checkNode_run (node : Node) (run : Run) : checkNode node run = run.meet node := by
  cases node with
  | value role signature span => exact checkNode_value role signature span run
  | init signature value span => exact infer_eq_meet rfl rfl (Run.pass_eq_fail rfl rfl rfl)
  | methodName name => exact checkNode_methodName name run
  | method owner name params returns span =>
    exact checkNode_method owner name params returns span run
  | result method returns result => exact infer_eq_meet rfl rfl (Run.pass_eq_fail rfl rfl rfl)
  | classDecl name parent span => exact checkNode_classDecl name parent span run
  | assign target value span => exact checkNode_assign target value span run
  | output value span => exact checkNode_output value span run
  | eval value => exact checkNode_eval value run

theorem checkNode_ok {node : Node} {run left : Run} (ran : checkNode node run = .ok () left) :
    node.Passed run.context left.context := by
  rw [checkNode_run, Run.meet] at ran
  split at ran
  · next passed =>
    cases ran
    exact Run.passed_pass passed
  · cases ran

theorem checkNode_error {node : Node} {error : Error} {run left : Run}
    (ran : checkNode node run = .error error left) :
    node.Failed error run.context left.context := by
  rw [checkNode_run, Run.meet] at ran
  split at ran
  · cases ran
  · next failed =>
    cases ran
    exact Run.failed_fail failed

/-- A node with a good verdict passes. -/
theorem exists_checkNode_ok {node : Node} {run : Run}
    (verdict : node.verdict run.context.toDeclarations = .ok ()) :
    ∃ left, checkNode node run = .ok () left :=
  ⟨run.pass node, (checkNode_run node run).trans (Run.meet_of_ok verdict)⟩

/-! ## Nodes in order -/

/-- Nodes that pass one after the other, from one context to another. -/
inductive Passes : Context → List Node → Context → Prop
  | nil (context : Context) : Passes context [] context
  | cons {context middle left : Context} {node : Node} {rest : List Node} :
      node.Passed context middle → Passes middle rest left → Passes context (node :: rest) left

/-- A check of nodes that succeeds has passed all of them. -/
theorem checkNodes_ok {nodes : List Node} {run left : Run}
    (ran : checkNodes nodes run = .ok () left) : Passes run.context nodes left.context := by
  induction nodes generalizing run with
  | nil => cases ran; exact .nil _
  | cons node rest ih =>
    obtain ⟨_, middle, first, second⟩ := bind_eq_ok_iff.mp ran
    exact .cons (checkNode_ok first) (ih second)

/-- A check of nodes that fails has passed those before the one it fails at. -/
theorem checkNodes_error {nodes : List Node} {error : Error} {run left : Run}
    (ran : checkNodes nodes run = .error error left) :
    ∃ before node after middle, nodes = before ++ node :: after ∧
      Passes run.context before middle ∧ node.Failed error middle left.context := by
  induction nodes generalizing run with
  | nil => cases ran
  | cons node rest ih =>
    rcases bind_eq_error_iff.mp ran with first | ⟨_, middle, first, second⟩
    · exact ⟨[], node, rest, run.context, rfl, .nil _, checkNode_error first⟩
    · obtain ⟨before, failing, after, last, split, passes, failed⟩ := ih second
      exact ⟨node :: before, failing, after, last, by rw [split, List.cons_append],
        .cons (checkNode_ok first) passes, failed⟩

end Check

end Sigil
