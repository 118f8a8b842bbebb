import Sigil.Proofs.Lookup
import Sigil.Proofs.Verdicts

/-! # A name that nothing mentions

Declarations that agree but for what one name stands for answer every question alike, as long as the
question does not mention that name. So nodes that pass after the declaration of a name, and that
neither mention it nor declare it again, also pass without it, and show the same.
-/

namespace Sigil

namespace Declarations

/-- Two declarations that agree on everything but what `name` stands for. -/
structure AgreeExcept (name : String) (decls other : Declarations) : Prop where
  indexed : decls.symbols.Indexed
  otherIndexed : other.symbols.Indexed
  lookup : ∀ key, key ≠ name → other.symbols.lookup? key = decls.symbols.lookup? key
  hierarchy : other.hierarchy = decls.hierarchy
  classes : other.classes = decls.classes
  methods : other.methods = decls.methods

/-- A variable changes nothing but what its own name stands for. -/
theorem agreeExcept_addValue {decls : Declarations} {name : String}
    (indexed : decls.symbols.Indexed) (fresh : decls.symbols.contains name = false) (type : Ty)
    (span : Span) : AgreeExcept name decls (decls.addValue .var name type span) where
  indexed := indexed
  otherIndexed := indexed.push fresh
  lookup key apart := by
    rw [symbols_addValue, indexed.lookup?_push]
    exact if_neg (Ne.symm apart)
  hierarchy := rfl
  classes := rfl
  methods := rfl

namespace AgreeExcept

variable {name : String} {decls other : Declarations}

theorem contains_eq (agree : AgreeExcept name decls other) {key : String} (apart : key ≠ name) :
    other.symbols.contains key = decls.symbols.contains key := by
  have missing : other.symbols.contains key = false ↔ decls.symbols.contains key = false := by
    rw [← agree.otherIndexed.lookup?_eq_none_iff, ← agree.indexed.lookup?_eq_none_iff,
      agree.lookup key apart]
  cases declared : decls.symbols.contains key with
  | false => exact missing.mpr declared
  | true =>
    rw [← Bool.not_eq_false, missing, declared]
    exact Bool.noConfusion

theorem knowsClass_eq (agree : AgreeExcept name decls other) (className : String) :
    other.knowsClass className = decls.knowsClass className := by
  rw [knowsClass, knowsClass, agree.classes]

theorem requireKnown_eq (agree : AgreeExcept name decls other) (type : Ty) (span : Span) :
    other.requireKnown type span = decls.requireKnown type span := by
  simp only [requireKnown, agree.knowsClass_eq]

theorem valueType_eq (agree : AgreeExcept name decls other) (written : TypeRef) :
    other.valueType written = decls.valueType written := by
  simp only [valueType, agree.requireKnown_eq]

theorem returnType_eq (agree : AgreeExcept name decls other) (written : TypeRef) :
    other.returnType written = decls.returnType written :=
  agree.requireKnown_eq _ _

theorem lineage_eq (agree : AgreeExcept name decls other) (className : String) :
    other.lineage className = decls.lineage className := by
  rw [lineage, lineage, agree.hierarchy, agree.classes]

/-! ## Expressions that do not mention the name -/

theorem readValue_eq (agree : AgreeExcept name decls other) {target : Ident}
    (apart : target.name ≠ name) : other.readValue target = decls.readValue target := by
  rw [readValue, readValue, agree.lookup target.name apart]

theorem readObject_eq (agree : AgreeExcept name decls other) {target : Ident}
    (apart : target.name ≠ name) : other.readObject target = decls.readObject target := by
  rw [readObject, readObject, agree.readValue_eq apart]

theorem inferField_eq (agree : AgreeExcept name decls other) {object : Ident}
    (apart : object.name ≠ name) (field : Ident) :
    other.inferField object field = decls.inferField object field := by
  simp only [inferField, field?, agree.readObject_eq apart, agree.lineage_eq]

theorem callee_eq (agree : AgreeExcept name decls other) {receiver : Option Ident}
    (apart : ∀ object, receiver = some object → object.name ≠ name) (method : Ident) :
    other.callee receiver method = decls.callee receiver method := by
  cases receiver with
  | none => simp only [callee, freeMethod?, agree.methods]
  | some object =>
    simp only [callee, method?, agree.readObject_eq (apart object rfl), agree.lineage_eq,
      agree.methods]

theorem inferOperands_eq {precedence : Precedence} {span : Span} {rest : List (Sign × Expr)}
    (operands : ∀ operand ∈ rest, name ∉ operand.2.refs →
      other.infer operand.2 = decls.infer operand.2)
    (unmentioned : name ∉ Expr.operandRefs rest) (left : Ty) :
    other.inferOperands precedence span left rest =
      decls.inferOperands precedence span left rest := by
  induction rest generalizing left with
  | nil => rfl
  | cons operand rest ih =>
    obtain ⟨here, further⟩ := List.forall_mem_cons.mp operands
    rw [Expr.operandRefs, List.mem_append, not_or] at unmentioned
    simp only [inferOperands, here unmentioned.1, ih further unmentioned.2]

theorem inferArgs_eq (agree : AgreeExcept name decls other) {method : String}
    {params : List (String × Ty)} {args : List Expr}
    (given : ∀ arg ∈ args, name ∉ arg.refs → other.infer arg = decls.infer arg)
    (unmentioned : name ∉ Expr.argRefs args) :
    other.inferArgs method params args = decls.inferArgs method params args := by
  induction args generalizing params with
  | nil => rfl
  | cons arg args ih =>
    obtain ⟨here, further⟩ := List.forall_mem_cons.mp given
    rw [Expr.argRefs, List.mem_append, not_or] at unmentioned
    cases params with
    | nil => rfl
    | cons param params =>
      simp only [inferArgs, here unmentioned.1, ih further unmentioned.2, agree.hierarchy]

/-- An expression that does not mention the name is typed alike, and reads the same. -/
theorem infer_eq (agree : AgreeExcept name decls other) {expr : Expr}
    (unmentioned : name ∉ expr.refs) : other.infer expr = decls.infer expr := by
  induction expr with
  | literal value span => rfl
  | var target span => exact agree.readValue_eq (Ne.symm (List.ne_of_not_mem_cons unmentioned))
  | paren inner span ih => exact ih unmentioned
  | chain precedence first rest span ih ihs =>
    rw [Expr.refs, List.mem_append, not_or] at unmentioned
    simp only [infer, ih unmentioned.1, inferOperands_eq ihs unmentioned.2]
  | field object field span =>
    exact agree.inferField_eq (Ne.symm (List.ne_of_not_mem_cons unmentioned)) field
  | call receiver method args span ihs =>
    rw [Expr.refs, List.mem_append, not_or] at unmentioned
    have apart : ∀ object, receiver = some object → object.name ≠ name := by
      rintro object rfl rfl
      exact unmentioned.1 (List.mem_singleton_self _)
    simp only [infer, agree.callee_eq apart, agree.inferArgs_eq ihs unmentioned.2]
  | new ofClass span => simp only [infer, inferNew, agree.knowsClass_eq]
  | unsupported source span => rfl

theorem typeOf_eq (agree : AgreeExcept name decls other) {expr : Expr}
    (unmentioned : name ∉ expr.refs) : other.typeOf expr = decls.typeOf expr := by
  rw [typeOf, typeOf, agree.infer_eq unmentioned]

/-! ## Nodes that neither mention the name nor declare it -/

theorem refuseDeclared_eq (agree : AgreeExcept name decls other) {key : String}
    (apart : key ≠ name) (category : Category) (span : Span) :
    Node.refuseDeclared other category key span = Node.refuseDeclared decls category key span := by
  rw [Node.refuseDeclared, Node.refuseDeclared, agree.contains_eq apart]

variable {node : Node}

theorem verdict_eq (agree : AgreeExcept name decls other) (unmentioned : name ∉ node.refs)
    (apart : ∀ symbol, node.symbol? = some symbol → symbol.name ≠ name) :
    node.verdict other = node.verdict decls := by
  cases node with
  | value role signature span =>
    have ne : signature.name.name ≠ name := apart _ rfl
    simp only [Node.verdict, agree.refuseDeclared_eq ne, agree.valueType_eq]
  | method owner method params returns span =>
    have ne : method.name ≠ name := apart _ rfl
    simp only [Node.verdict, agree.refuseDeclared_eq ne, agree.returnType_eq]
  | classDecl className parent span =>
    have ne : className.name ≠ name := apart _ rfl
    simp only [Node.verdict, agree.refuseDeclared_eq ne, agree.knowsClass_eq]
  | methodName method => rfl
  | assign target expr span =>
    obtain ⟨ne, later⟩ := not_or.mp (mt List.mem_cons.mpr unmentioned)
    have held : other.typeOf (.var target.name target.span) =
        decls.typeOf (.var target.name target.span) :=
      agree.typeOf_eq (by simpa [Expr.refs] using ne)
    simp only [Node.verdict, held, agree.typeOf_eq later, agree.hierarchy]
  | init signature expr span => simp only [Node.verdict, agree.typeOf_eq unmentioned]
  | result method returns returned => simp only [Node.verdict, agree.typeOf_eq unmentioned]
  | output expr span => simp only [Node.verdict, agree.typeOf_eq unmentioned]
  | eval expr => simp only [Node.verdict, agree.typeOf_eq unmentioned]

theorem outputs_eq (agree : AgreeExcept name decls other) (unmentioned : name ∉ node.refs) :
    node.outputs other = node.outputs decls := by
  cases node with
  | output expr span => rw [Node.outputs, Node.outputs, agree.typeOf_eq unmentioned]
  | _ => rfl

/-- What a passed node declares keeps the agreement. -/
theorem declare (agree : AgreeExcept name decls other) (passed : node.verdict decls = .ok ())
    (otherPassed : node.verdict other = .ok ()) :
    AgreeExcept name (node.declare decls) (node.declare other) where
  indexed := Node.indexed_declare agree.indexed passed
  otherIndexed := Node.indexed_declare agree.otherIndexed otherPassed
  lookup key apart := by
    rw [Node.symbols_declare, Node.symbols_declare]
    cases node.symbol? with
    | none => exact agree.lookup key apart
    | some symbol =>
      simp only [agree.indexed.lookup?_push, agree.otherIndexed.lookup?_push,
        agree.lookup key apart]
  hierarchy := by
    cases node with
    | classDecl className parent span =>
      simp only [Node.declare, addClass, agree.hierarchy]
    | _ => exact agree.hierarchy
  classes := by
    cases node with
    | value role signature span => simp only [Node.declare, addValue, agree.classes]
    | method owner method params returns span =>
      simp only [Node.declare, addMethod, agree.classes]
    | classDecl className parent span => simp only [Node.declare, addClass, agree.classes]
    | _ => exact agree.classes
  methods := by
    cases node with
    | method owner method params returns span =>
      simp only [Node.declare, addMethod, agree.methods]
    | _ => exact agree.methods

/-- Nodes that pass where a name is declared, and do not mention it, pass and show the same where it
is not declared. -/
theorem strengthen (agree : AgreeExcept name decls other)
    (declared : other.symbols.contains name = true) {nodes : List Node}
    (passed : Node.verdictOf other nodes = .ok ())
    (unmentioned : ∀ node ∈ nodes, name ∉ node.refs) :
    Node.verdictOf decls nodes = .ok () ∧
      Node.outputsOf decls nodes = Node.outputsOf other nodes := by
  induction nodes generalizing decls other with
  | nil => exact ⟨rfl, rfl⟩
  | cons node rest ih =>
    obtain ⟨here, later⟩ := Node.verdictOf_cons_eq_ok_iff.mp passed
    obtain ⟨unread, unreadLater⟩ := List.forall_mem_cons.mp unmentioned
    -- The name is taken, so a node that passes declares another one.
    have apart : ∀ symbol, node.symbol? = some symbol → symbol.name ≠ name := by
      rintro symbol declares rfl
      rw [Node.fresh_of_verdict here declares] at declared
      cases declared
    have verdict : node.verdict decls = .ok () := (agree.verdict_eq unread apart).symm.trans here
    obtain ⟨accepted, shown⟩ := ih (agree.declare verdict here)
      (Node.contains_declare_of_contains declared) later unreadLater
    refine ⟨Node.verdictOf_cons_eq_ok_iff.mpr ⟨verdict, accepted⟩, ?_⟩
    rw [Node.outputsOf, Node.outputsOf, agree.outputs_eq unread, shown]

end AgreeExcept

end Declarations

end Sigil
