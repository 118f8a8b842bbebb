import Sigil.Proofs.Steps

/-! # The verdict is a matter of declarations

Whether a check accepts its nodes, what it declares and what it shows depends on the declarations it
starts from and on nothing else: not on the names read before, nor on earlier outputs and warnings.
`verdictOf`, `declareAll` and `outputsOf` are these three as functions of the declarations, and a
check answers and leaves what they say. To compare two checks is then to compare these functions on
two declarations.
-/

namespace Sigil

namespace Node

/-- The declarations after nodes. -/
def declareAll (decls : Declarations) (nodes : List Node) : Declarations :=
  nodes.foldl declare decls

/-- What nodes ask of the declarations before them, one after the other. -/
def verdictOf (decls : Declarations) : List Node → Except Error Unit
  | [] => .ok ()
  | node :: rest => do
      node.verdict decls
      verdictOf (node.declare decls) rest

/-- The outputs that nodes give, one after the other. -/
def outputsOf (decls : Declarations) : List Node → List Output
  | [] => []
  | node :: rest => node.outputs decls ++ outputsOf (node.declare decls) rest

variable {decls : Declarations} {node : Node} {first second rest : List Node} {name : String}
  {symbol : Symbol}

@[simp] theorem declareAll_nil : declareAll decls [] = decls := rfl

@[simp] theorem declareAll_cons :
    declareAll decls (node :: rest) = declareAll (node.declare decls) rest := rfl

@[simp] theorem declareAll_append :
    declareAll decls (first ++ second) = declareAll (declareAll decls first) second :=
  List.foldl_append

theorem outputsOf_append :
    outputsOf decls (first ++ second) =
      outputsOf decls first ++ outputsOf (declareAll decls first) second := by
  induction first generalizing decls with
  | nil => rfl
  | cons node rest ih => simp only [List.cons_append, outputsOf, ih, List.append_assoc,
      declareAll_cons]

/-- Nodes pass exactly when each passes after those before it. -/
theorem verdictOf_cons_eq_ok_iff :
    verdictOf decls (node :: rest) = .ok () ↔
      node.verdict decls = .ok () ∧ verdictOf (node.declare decls) rest = .ok () := by
  simp only [verdictOf, except_bind_eq_ok_iff]
  exact ⟨fun ⟨_, here, later⟩ => ⟨here, later⟩, fun ⟨here, later⟩ => ⟨(), here, later⟩⟩

theorem verdictOf_cons_of_ok (passed : node.verdict decls = .ok ()) :
    verdictOf decls (node :: rest) = verdictOf (node.declare decls) rest := by
  rw [verdictOf, passed]
  rfl

theorem verdictOf_cons_of_error {error : Error} (failed : node.verdict decls = .error error) :
    verdictOf decls (node :: rest) = .error error := by
  rw [verdictOf, failed]
  rfl

theorem verdictOf_append :
    verdictOf decls (first ++ second) =
      verdictOf decls first >>= fun _ => verdictOf (declareAll decls first) second := by
  induction first generalizing decls with
  | nil => rfl
  | cons node rest ih =>
    simp only [List.cons_append, verdictOf, ih, bind_assoc, declareAll_cons]

theorem verdictOf_append_eq_ok_iff :
    verdictOf decls (first ++ second) = .ok () ↔
      verdictOf decls first = .ok () ∧ verdictOf (declareAll decls first) second = .ok () := by
  rw [verdictOf_append, except_bind_eq_ok_iff]
  exact ⟨fun ⟨_, early, late⟩ => ⟨early, late⟩, fun ⟨early, late⟩ => ⟨(), early, late⟩⟩

/-! ## Names of nodes that pass -/

/-- After a node, a name is declared if it was before or if the node declares it. -/
theorem contains_declare (node : Node) (decls : Declarations) (name : String) :
    (node.declare decls).symbols.contains name =
      (node.symbol?.any (·.name == name) || decls.symbols.contains name) := by
  cases node <;> simp [declare, symbol?, methodEntry, Symbol.declaredAt]

theorem contains_declare_of_contains (declared : decls.symbols.contains name = true) :
    (node.declare decls).symbols.contains name = true := by
  rw [contains_declare, declared, Bool.or_true]

/-- A node that passes declares a name that was not taken. -/
theorem fresh_of_verdict (passed : node.verdict decls = .ok ())
    (declares : node.symbol? = some symbol) : decls.symbols.contains symbol.name = false := by
  cases node with
  | value role signature span =>
    cases declares
    exact (verdict_value_eq_ok passed).2.1
  | method owner name params returns span =>
    cases declares
    exact (verdict_method_eq_ok passed).1
  | classDecl name parent span =>
    cases declares
    exact (verdict_classDecl_eq_ok passed).2.2.1
  | _ => cases declares

/-- Nodes that pass one after the other declare names that were not taken before them. -/
theorem fresh_of_verdictOf (passed : verdictOf decls rest = .ok ()) (member : node ∈ rest)
    (declares : node.symbol? = some symbol) : decls.symbols.contains symbol.name = false := by
  induction rest generalizing decls with
  | nil => cases member
  | cons head rest ih =>
    obtain ⟨here, later⟩ := verdictOf_cons_eq_ok_iff.mp passed
    rcases List.mem_cons.mp member with rfl | further
    · exact fresh_of_verdict here declares
    · have fresh := ih later further
      rw [contains_declare, Bool.or_eq_false_iff] at fresh
      exact fresh.2

/-- A node adds its symbol, if it has one, at the end of the table. -/
theorem symbols_declare (node : Node) (decls : Declarations) :
    (node.declare decls).symbols =
      match node.symbol? with
      | none => decls.symbols
      | some symbol => decls.symbols.push symbol := by
  cases node <;> rfl

theorem indexed_declare (indexed : decls.symbols.Indexed) (passed : node.verdict decls = .ok ()) :
    (node.declare decls).symbols.Indexed := by
  rw [symbols_declare]
  cases declares : node.symbol? with
  | none => exact indexed
  | some symbol => exact indexed.push (fresh_of_verdict passed declares)

theorem indexed_declareAll (indexed : decls.symbols.Indexed)
    (passed : verdictOf decls rest = .ok ()) : (declareAll decls rest).symbols.Indexed := by
  induction rest generalizing decls with
  | nil => exact indexed
  | cons node rest ih =>
    obtain ⟨here, later⟩ := verdictOf_cons_eq_ok_iff.mp passed
    exact ih (indexed_declare indexed here) later

end Node

/-! ## A check answers and leaves what the declarations say -/

namespace Check

theorem answer_checkNodes (nodes : List Node) (run : Run) :
    (checkNodes nodes run).answer = Node.verdictOf run.context.toDeclarations nodes := by
  induction nodes generalizing run with
  | nil => rfl
  | cons node rest ih =>
    rw [checkNodes, bind_run]
    cases ran : checkNode node run with
    | error error left =>
      rw [Node.verdictOf_cons_of_error (checkNode_error ran).verdict]
      rfl
    | ok _ middle =>
      have passed := checkNode_ok ran
      rw [Node.verdictOf_cons_of_ok passed.verdict, ← passed.declarations]
      exact ih middle

namespace Passes

variable {context left : Context} {nodes : List Node}

theorem verdictOf (passes : Passes context nodes left) :
    Node.verdictOf context.toDeclarations nodes = .ok () := by
  induction passes with
  | nil => rfl
  | cons passed _ ih =>
    rw [Node.verdictOf_cons_of_ok passed.verdict, ← passed.declarations]
    exact ih

theorem declarations (passes : Passes context nodes left) :
    left.toDeclarations = Node.declareAll context.toDeclarations nodes := by
  induction passes with
  | nil => rfl
  | cons passed _ ih => rw [ih, passed.declarations, Node.declareAll_cons]

theorem outputs (passes : Passes context nodes left) :
    left.outputs = context.outputs ++ Node.outputsOf context.toDeclarations nodes := by
  induction passes with
  | nil => exact (List.append_nil _).symm
  | cons passed _ ih =>
    rw [ih, passed.outputs, passed.declarations, Node.outputsOf, List.append_assoc]

end Passes

end Check

namespace Context

/-- A check accepts or rejects by the declarations that it starts from. -/
theorem verdict_check (context : Context) (warnUnused : Bool) (program : Program) :
    (context.check warnUnused program).verdict =
      Node.verdictOf context.toDeclarations program.nodes := by
  rw [(context.check_eq warnUnused program).1, Check.answer_checkNodes]

end Context

end Sigil
