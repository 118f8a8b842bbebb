import Sigil.Proofs.Traversal

/-! # The order of nodes

The nodes of a program do not come in any order: a member follows its class, a method follows its
name and its parameters, which stand right before it, and an initial or returned value follows what
it is the value of. A check relies on this without asking: it adds a member to the entry of a class
that it has just registered. `ordered_nodes` is the fact, over the syntax alone.
-/

namespace Sigil

/-- Among `nodes` there is the declaration of a class by a name. -/
def DeclaresClass (nodes : List Node) (className : String) : Prop :=
  ∃ name parent span, .classDecl name parent span ∈ nodes ∧ name.name = className

theorem DeclaresClass.append {nodes more : List Node} {className : String}
    (declared : DeclaresClass nodes className) : DeclaresClass (nodes ++ more) className := by
  obtain ⟨name, parent, span, member, named⟩ := declared
  exact ⟨name, parent, span, List.mem_append_left more member, named⟩

namespace Node

/-- A node may stand after the nodes `before`. -/
def Follows (before : List Node) : Node → Prop
  | .value role _ _ =>
      role.isValue = true ∧ ∀ className, role = .field className → DeclaresClass before className
  | .method owner name params _ _ =>
      (∃ prior, before = prior ++ .methodName name :: Signature.nodesOf (.param name.name) params) ∧
        ∀ className, owner = some className → DeclaresClass before className
  | .init signature _ span => .value .var signature span ∈ before
  | .result name returns _ => ∃ owner params span, .method owner name params returns span ∈ before
  | _ => True

/-- Each of the nodes may stand after `before` and those that precede it. -/
def Ordered (before : List Node) : List Node → Prop
  | [] => True
  | node :: rest => node.Follows before ∧ Ordered (before ++ [node]) rest

theorem ordered_append {before first second : List Node} :
    Ordered before (first ++ second) ↔
      Ordered before first ∧ Ordered (before ++ first) second := by
  induction first generalizing before with
  | nil => simp [Ordered]
  | cons node rest ih =>
    simp only [List.cons_append, Ordered, ih, and_assoc, List.append_assoc, List.nil_append]

/-- A node of an ordered list may stand after what precedes it. -/
theorem Ordered.follows {before prior after : List Node} {node : Node}
    (ordered : Ordered before (prior ++ node :: after)) : node.Follows (before ++ prior) :=
  (ordered_append.mp ordered).2.1

theorem ordered_values {before : List Node} {role : Role} {signatures : List Signature}
    (holds : role.isValue = true)
    (owner : ∀ className, role = .field className → DeclaresClass before className) :
    Ordered before (Signature.nodesOf role signatures) := by
  induction signatures generalizing before with
  | nil => trivial
  | cons signature rest ih =>
    refine ⟨⟨holds, owner⟩, ih fun className field => ?_⟩
    exact (owner className field).append

theorem ordered_var (before : List Node) (decl : VarDecl) : Ordered before decl.nodes := by
  refine ⟨⟨rfl, fun _ field => nomatch field⟩, ?_⟩
  cases decl.init with
  | none => trivial
  | some value => exact ⟨List.mem_append_right _ List.mem_cons_self, trivial⟩

mutual

theorem ordered_stmt (before : List Node) (stmt : Stmt) : Ordered before stmt.nodes := by
  cases stmt with
  | var decl => exact ordered_var before decl
  | method decl => exact ordered_method before none decl (fun _ owned => nomatch owned)
  | classDecl decl => exact ordered_class before decl
  | _ => trivial

theorem ordered_method (before : List Node) (owner : Option String) (method : MethodDecl)
    (owned : ∀ className, owner = some className → DeclaresClass before className) :
    Ordered before (method.nodes owner) := by
  obtain ⟨name, params, returns, body, result, span⟩ := method
  have head : Ordered before (.methodName name :: Signature.nodesOf (.param name.name) params) :=
    ⟨trivial, ordered_values rfl fun _ field => nomatch field⟩
  have declaration : (Node.method owner name params returns span).Follows
      (before ++ .methodName name :: Signature.nodesOf (.param name.name) params) :=
    ⟨⟨before, rfl⟩, fun className owns => (owned className owns).append⟩
  rw [MethodDecl.nodes]
  refine ordered_append.mpr ⟨ordered_append.mpr ⟨head, declaration, ordered_stmts _ body⟩, ?_⟩
  cases result with
  | none => trivial
  | some returned => exact ⟨⟨owner, params, span, by simp⟩, trivial⟩

theorem ordered_class (before : List Node) (decl : ClassDecl) : Ordered before decl.nodes := by
  obtain ⟨name, parent, fields, methods, span⟩ := decl
  have declared : DeclaresClass (before ++ [.classDecl name parent span]) name.name :=
    ⟨name, parent, span, by simp, rfl⟩
  rw [ClassDecl.nodes]
  refine ordered_append.mpr ⟨⟨trivial, ordered_values rfl ?_⟩, ordered_methods _ _ methods ?_⟩
  · rintro _ ⟨⟩
    exact declared
  · rw [← List.singleton_append, ← List.append_assoc]
    exact declared.append

theorem ordered_stmts (before : List Node) (stmts : List Stmt) :
    Ordered before (Stmt.nodesOf stmts) := by
  cases stmts with
  | nil => trivial
  | cons stmt rest => exact ordered_append.mpr ⟨ordered_stmt before stmt, ordered_stmts _ rest⟩

theorem ordered_methods (before : List Node) (owner : String) (methods : List MethodDecl)
    (owned : DeclaresClass before owner) : Ordered before (MethodDecl.nodesOf owner methods) := by
  cases methods with
  | nil => trivial
  | cons method rest =>
    refine ordered_append.mpr
      ⟨ordered_method before (some owner) method ?_, ordered_methods _ owner rest owned.append⟩
    rintro _ ⟨⟩
    exact owned

end

/-- In a program every member follows its class, and every method its name and parameters. -/
theorem ordered_nodes (program : Program) : Ordered [] program.nodes := ordered_stmts [] program

end Node

end Sigil
