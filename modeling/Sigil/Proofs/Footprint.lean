import Sigil.Proofs.Steps

/-! # What the syntax says of an accepted program

The footprint of a program is read off its syntax, without a context: what it declares, which names
it mentions and what it shows, each in the order in which a check meets them. If a check accepts the
program, then the context it leaves holds exactly the footprint, so nothing was skipped on the way
and nothing was added, and the warnings follow from the footprint alone.
-/

namespace Sigil

/-- Declarations, mentioned names and shown values, in order. -/
structure Footprint where
  decls : List Symbol := []
  refs : List String := []
  shows : List (Expr × Span) := []

namespace Footprint

/-- One footprint followed by another. -/
def append (first second : Footprint) : Footprint where
  decls := first.decls ++ second.decls
  refs := first.refs ++ second.refs
  shows := first.shows ++ second.shows

instance : Append Footprint := ⟨append⟩

@[simp] theorem append_nil (footprint : Footprint) : footprint ++ ({} : Footprint) = footprint := by
  change append footprint {} = footprint
  simp [append]

@[simp] theorem append_assoc (first second third : Footprint) :
    first ++ second ++ third = first ++ (second ++ third) := by
  change append (append first second) third = append first (append second third)
  simp [append]

end Footprint

/-- The footprint of an expression: it only mentions names. -/
def Expr.footprint (expr : Expr) : Footprint := { refs := expr.refs }

/-- The footprint of a declared value of the type that is written. -/
def Signature.footprint (role : Role) (span : Span) (signature : Signature) : Footprint :=
  { decls := [.declaredAt signature.name.name role (Ty.ofName signature.type.name) span] }

/-- The footprint of parameters or fields, in order. -/
def Signature.footprintOf (role : Role) : List Signature → Footprint
  | [] => {}
  | signature :: rest =>
      signature.footprint role signature.span ++ Signature.footprintOf role rest

/-- The footprint of a variable: it is declared before its initial value. -/
def VarDecl.footprint : VarDecl → Footprint
  | ⟨signature, none, span⟩ => signature.footprint .var span
  | ⟨signature, some init, span⟩ => signature.footprint .var span ++ init.footprint

/-- The footprint of the value that a method returns, if there is one. -/
def Return.footprint? : Option Return → Footprint
  | none => {}
  | some returned => returned.value.footprint

mutual

/-- The footprint of a statement. -/
def Stmt.footprint : Stmt → Footprint
  | .var decl => decl.footprint
  | .assign target value _ => { refs := target.name :: value.refs }
  | .output value span => { refs := value.refs, shows := [(value, span)] }
  | .method decl => decl.footprint
  | .classDecl decl => decl.footprint
  | .eval value => value.footprint

/-- The footprint of a method: its parameters, the method, its body, what it returns. -/
def MethodDecl.footprint : MethodDecl → Footprint
  | ⟨name, params, returns, body, result, span⟩ =>
      Signature.footprintOf (.param name.name) params ++
        { decls := [.declaredAt name.name .method (Ty.ofName returns.name) span] } ++
        Stmt.footprintOf body ++ Return.footprint? result

/-- The footprint of a class: the class, its fields, its methods. -/
def ClassDecl.footprint : ClassDecl → Footprint
  | ⟨name, _, fields, methods, span⟩ =>
      { decls := [.declaredAt name.name .classType (.object name.name) span] } ++
        Signature.footprintOf (.field name.name) fields ++ MethodDecl.footprintOf methods

/-- The footprint of statements, in order. -/
def Stmt.footprintOf : List Stmt → Footprint
  | [] => {}
  | stmt :: rest => stmt.footprint ++ Stmt.footprintOf rest

/-- The footprint of methods, in order. -/
def MethodDecl.footprintOf : List MethodDecl → Footprint
  | [] => {}
  | method :: rest => method.footprint ++ MethodDecl.footprintOf rest

end

namespace Program

/-- The declarations of a program, in order. -/
def decls (program : Program) : List Symbol := (Stmt.footprintOf program).decls

/-- The names that a program mentions as a variable, a target, a receiver, an object or a field. -/
def refs (program : Program) : List String := (Stmt.footprintOf program).refs

/-- The values that a program shows, each with the span of its statement, in order. -/
def shows (program : Program) : List (Expr × Span) := (Stmt.footprintOf program).shows

end Program

/-! ## Footprints of nodes -/

/-- What a node shows. -/
def Node.show? : Node → Option (Expr × Span)
  | .output expr span => some (expr, span)
  | _ => none

/-- The footprint of a node. -/
def Node.footprint (node : Node) : Footprint where
  decls := node.symbol?.toList
  refs := node.refs
  shows := node.show?.toList

/-- The footprint of nodes, in order. -/
def Node.footprintOf : List Node → Footprint
  | [] => {}
  | node :: rest => node.footprint ++ Node.footprintOf rest

theorem Node.footprintOf_append (first second : List Node) :
    Node.footprintOf (first ++ second) = Node.footprintOf first ++ Node.footprintOf second := by
  induction first with
  | nil => rfl
  | cons node rest ih =>
    rw [List.cons_append, Node.footprintOf, Node.footprintOf, ih, Footprint.append_assoc]

theorem Node.decls_footprintOf (nodes : List Node) :
    (Node.footprintOf nodes).decls = nodes.filterMap Node.symbol? := by
  induction nodes with
  | nil => rfl
  | cons node rest ih =>
    change node.symbol?.toList ++ (Node.footprintOf rest).decls = _
    rw [ih]
    cases declared : node.symbol? <;> simp [declared]

theorem Node.refs_footprintOf (nodes : List Node) :
    (Node.footprintOf nodes).refs = nodes.flatMap Node.refs := by
  induction nodes with
  | nil => rfl
  | cons node rest ih =>
    rw [List.flatMap_cons, ← ih]
    rfl

theorem Signature.footprintOf_eq (role : Role) (signatures : List Signature) :
    Signature.footprintOf role signatures =
      Node.footprintOf (Signature.nodesOf role signatures) := by
  induction signatures with
  | nil => rfl
  | cons signature rest ih =>
    rw [Signature.footprintOf, ih]
    rfl

theorem VarDecl.footprint_eq (decl : VarDecl) : decl.footprint = Node.footprintOf decl.nodes := by
  obtain ⟨signature, init, span⟩ := decl
  cases init with
  | none => exact (Footprint.append_nil _).symm
  | some value => exact congrArg (_ ++ ·) (Footprint.append_nil _).symm

theorem Return.footprint?_eq (name : Ident) (returns : TypeRef) (result : Option Return) :
    Return.footprint? result =
      Node.footprintOf (result.toList.map fun result => .result name returns result) := by
  cases result with
  | none => rfl
  | some returned => exact (Footprint.append_nil _).symm

mutual

theorem Stmt.footprint_eq (stmt : Stmt) : stmt.footprint = Node.footprintOf stmt.nodes := by
  cases stmt with
  | var decl => rw [Stmt.footprint, Stmt.nodes, VarDecl.footprint_eq]
  | method decl => rw [Stmt.footprint, Stmt.nodes, MethodDecl.footprint_eq none decl]
  | classDecl decl => rw [Stmt.footprint, Stmt.nodes, ClassDecl.footprint_eq decl]
  | _ =>
    rw [Stmt.footprint, Stmt.nodes, Node.footprintOf, Node.footprintOf, Footprint.append_nil]
    rfl

theorem MethodDecl.footprint_eq (owner : Option String) (method : MethodDecl) :
    method.footprint = Node.footprintOf (method.nodes owner) := by
  obtain ⟨name, params, returns, body, result, span⟩ := method
  simp only [MethodDecl.footprint, MethodDecl.nodes, List.cons_append, Node.footprintOf,
    Node.footprintOf_append, Signature.footprintOf_eq, Stmt.footprintOf_eq body,
    Return.footprint?_eq name returns, Footprint.append_assoc]
  rfl

theorem ClassDecl.footprint_eq (decl : ClassDecl) :
    decl.footprint = Node.footprintOf decl.nodes := by
  obtain ⟨name, parent, fields, methods, span⟩ := decl
  simp only [ClassDecl.footprint, ClassDecl.nodes, List.cons_append, Node.footprintOf,
    Node.footprintOf_append, Signature.footprintOf_eq, MethodDecl.footprintOf_eq name.name methods,
    Footprint.append_assoc]
  rfl

/-- The footprint of statements is that of their nodes. -/
theorem Stmt.footprintOf_eq (stmts : List Stmt) :
    Stmt.footprintOf stmts = Node.footprintOf (Stmt.nodesOf stmts) := by
  cases stmts with
  | nil => rfl
  | cons stmt rest =>
    rw [Stmt.footprintOf, Stmt.nodesOf, Node.footprintOf_append, Stmt.footprint_eq stmt,
      Stmt.footprintOf_eq rest]

theorem MethodDecl.footprintOf_eq (owner : String) (methods : List MethodDecl) :
    MethodDecl.footprintOf methods = Node.footprintOf (MethodDecl.nodesOf owner methods) := by
  cases methods with
  | nil => rfl
  | cons method rest =>
    rw [MethodDecl.footprintOf, MethodDecl.nodesOf, Node.footprintOf_append,
      MethodDecl.footprint_eq (some owner) method, MethodDecl.footprintOf_eq owner rest]

end

/-! ## A passed program leaves its footprint -/

/-- `left` knows what `context` knows, and a footprint. -/
structure Context.Gains (context : Context) (footprint : Footprint) (left : Context) : Prop where
  symbols : left.symbols.toList = context.symbols.toList ++ footprint.decls
  used : ∀ name, name ∈ left.used ↔ name ∈ context.used ∨ name ∈ footprint.refs
  outputs : left.outputs.map Output.span =
    context.outputs.map Output.span ++ footprint.shows.map Prod.snd
  warnings : left.warnings = context.warnings

namespace Context.Gains

variable {context middle left : Context} {first second : Footprint}

theorem refl (context : Context) : context.Gains {} context :=
  ⟨(List.append_nil _).symm, fun _ => (or_iff_left List.not_mem_nil).symm,
    (List.append_nil _).symm, rfl⟩

theorem trans (one : context.Gains first middle) (two : middle.Gains second left) :
    context.Gains (first ++ second) left where
  symbols := by
    rw [two.symbols, one.symbols, List.append_assoc]
    rfl
  used name := by
    rw [two.used, one.used, or_assoc]
    exact or_congr_right List.mem_append.symm
  outputs := by
    rw [two.outputs, one.outputs, List.append_assoc, ← List.map_append]
    rfl
  warnings := two.warnings.trans one.warnings

end Context.Gains

/-- A passed `show` gives one output, at its own span. -/
theorem Node.Passed.spans_outputs {node : Node} {context left : Context}
    (passed : node.Passed context left) :
    (node.outputs context.toDeclarations).map Output.span = node.show?.toList.map Prod.snd := by
  cases node with
  | output expr span =>
    obtain ⟨type, typed, _⟩ := except_bind_eq_ok_iff.mp passed.verdict
    rw [Node.outputs, typed]
    rfl
  | _ => rfl

theorem Node.Passed.gains {node : Node} {context left : Context}
    (passed : node.Passed context left) : context.Gains node.footprint left where
  symbols := by
    rw [passed.declarations, Node.toList_declare]
    rfl
  used := passed.used
  outputs := by
    rw [passed.outputs, List.map_append, passed.spans_outputs]
    rfl
  warnings := passed.warnings

theorem Check.Passes.gains {context left : Context} {nodes : List Node}
    (passes : Passes context nodes left) : context.Gains (Node.footprintOf nodes) left := by
  induction passes with
  | nil => exact .refl _
  | cons passed _ ih => exact passed.gains.trans ih

namespace Context

/-- From nothing, an accepted program leaves exactly what its syntax says: its declarations, the
names it mentions, an output for each value it shows, and a warning for each value that it declares
but does not mention. -/
theorem footprint_of_accepted {program : Program}
    (accepted : ((∅ : Context).check true program).verdict = .ok ()) :
    ((∅ : Context).check true program).context.symbols.toList = program.decls ∧
      (∀ name, name ∈ ((∅ : Context).check true program).context.used ↔ name ∈ program.refs) ∧
      ((∅ : Context).check true program).context.outputs.map Output.span =
        program.shows.map Prod.snd ∧
      ((∅ : Context).check true program).context.warnings =
        (program.decls.filter fun symbol =>
          symbol.role.isValue && decide (symbol.name ∉ program.refs)).map fun symbol =>
            ⟨symbol.name, symbol.line, symbol.span⟩ := by
  obtain ⟨left, passes, result⟩ := check_ok accepted
  have gains := passes.gains
  rw [Program.nodes, ← Stmt.footprintOf_eq] at gains
  have symbols : left.symbols.toList = program.decls := gains.symbols
  have used (name : String) : name ∈ left.used ↔ name ∈ program.refs :=
    (gains.used name).trans (or_iff_right Std.ExtTreeSet.not_mem_empty)
  rw [result]
  refine ⟨symbols, used, gains.outputs, ?_⟩
  have unread (name : String) : (!left.isUsed name) = decide (name ∉ program.refs) := by
    rw [decide_not, Bool.not_inj_iff, Bool.eq_iff_iff, decide_eq_true_iff, ← used, isUsed,
      Std.ExtTreeSet.contains_iff_mem]
  change left.warnings ++ left.unused = _
  rw [gains.warnings, unused, symbols]
  simp only [unread]
  rfl

/-- A variable that nothing mentions, and a method that shows its parameter and returns it. -/
def halfRead : Program :=
  [.var
    { signature := ⟨⟨"$spare", .zero⟩, ⟨"string", .zero⟩⟩
      init := none
      span := .ofPosition 1 0 },
   .method
    { name := ⟨"echo", .zero⟩
      params := [⟨⟨"$times", .ofPosition 2 5⟩, ⟨"chunk", .ofPosition 2 5⟩⟩]
      returnType := ⟨"chunk", .zero⟩
      body := [.output (.var "$times" .zero) (.ofPosition 3 2)]
      result := some ⟨.var "$times" .zero, .zero⟩
      span := .ofPosition 2 0 }]

theorem footprint_of_halfRead :
    ((∅ : Context).check true halfRead).verdict = .ok () ∧
      ((∅ : Context).check true halfRead).context.outputs.map Output.span = [.ofPosition 3 2] ∧
      ((∅ : Context).check true halfRead).context.warnings =
        [⟨"$spare", 1, .ofPosition 1 0⟩] := by
  obtain ⟨_, _, outputs, warnings⟩ := @footprint_of_accepted halfRead rfl
  exact ⟨rfl, outputs, warnings⟩

end Context

end Sigil
