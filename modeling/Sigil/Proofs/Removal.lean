import Mathlib.Data.List.Basic
import Sigil.Proofs.Footprint
import Sigil.Proofs.Strengthening

/-! # A variable that is warned about may be removed

A variable that an accepted program never reads can be deleted from it, at any depth: the program is
still accepted and shows the same. Its warning goes, and no other does. If the variable has an
initial value, then there may be new warnings, for names that only this value mentions.

A deletion cuts one block out of the nodes of a program. The nodes after the block do not mention
the variable, so they cannot tell that it is gone.
-/

namespace Sigil

/-! ## Deleting a variable -/

/-- `rest` is `stmts` without one occurrence of a variable declaration, at top level or in the body
of a method at any depth. -/
inductive Stmt.Drops (decl : VarDecl) : List Stmt → List Stmt → Prop
  | here (rest : List Stmt) : Drops decl (.var decl :: rest) rest
  | later (stmt : Stmt) {rest fewer : List Stmt} :
      Drops decl rest fewer → Drops decl (stmt :: rest) (stmt :: fewer)
  | inMethod (method : MethodDecl) {body : List Stmt} (rest : List Stmt) :
      Drops decl method.body body →
        Drops decl (.method method :: rest) (.method { method with body } :: rest)
  | inClass (ofClass : ClassDecl) (before after : List MethodDecl) (method : MethodDecl)
      {body : List Stmt} (rest : List Stmt) :
      ofClass.methods = before ++ method :: after → Drops decl method.body body →
        Drops decl (.classDecl ofClass :: rest)
          (.classDecl { ofClass with methods := before ++ { method with body } :: after } :: rest)

mutual

/-- The variable declarations in a statement, at any depth. -/
def Stmt.vars : Stmt → List VarDecl
  | .var decl => [decl]
  | .method decl => decl.vars
  | .classDecl decl => decl.vars
  | .assign _ _ _ | .output _ _ | .eval _ => []

/-- The variable declarations in the body of a method, at any depth. -/
def MethodDecl.vars : MethodDecl → List VarDecl
  | ⟨_, _, _, body, _, _⟩ => Stmt.varsOf body

/-- The variable declarations in the methods of a class, at any depth. -/
def ClassDecl.vars : ClassDecl → List VarDecl
  | ⟨_, _, _, methods, _⟩ => MethodDecl.varsOf methods

/-- The variable declarations in statements, in order. -/
def Stmt.varsOf : List Stmt → List VarDecl
  | [] => []
  | stmt :: rest => stmt.vars ++ Stmt.varsOf rest

/-- The variable declarations in methods, in order. -/
def MethodDecl.varsOf : List MethodDecl → List VarDecl
  | [] => []
  | method :: rest => method.vars ++ MethodDecl.varsOf rest

end

mutual

theorem Stmt.exists_drops {decl : VarDecl} (stmt : Stmt) (rest : List Stmt)
    (occurs : decl ∈ stmt.vars) : ∃ fewer, Stmt.Drops decl (stmt :: rest) fewer := by
  cases stmt with
  | var own =>
    rw [Stmt.vars, List.mem_singleton] at occurs
    subst occurs
    exact ⟨rest, .here rest⟩
  | method method =>
    rw [Stmt.vars] at occurs
    obtain ⟨body, drops⟩ := MethodDecl.exists_drops method occurs
    exact ⟨_, .inMethod method rest drops⟩
  | classDecl ofClass =>
    rw [Stmt.vars] at occurs
    obtain ⟨before, method, after, body, split, drops⟩ := ClassDecl.exists_drops ofClass occurs
    exact ⟨_, .inClass ofClass before after method rest split drops⟩
  | assign target value span => cases occurs
  | output value span => cases occurs
  | eval value => cases occurs

theorem MethodDecl.exists_drops {decl : VarDecl} (method : MethodDecl)
    (occurs : decl ∈ method.vars) : ∃ body, Stmt.Drops decl method.body body := by
  obtain ⟨name, params, returns, body, result, span⟩ := method
  exact Stmt.exists_dropsOf body occurs

theorem ClassDecl.exists_drops {decl : VarDecl} (ofClass : ClassDecl)
    (occurs : decl ∈ ofClass.vars) :
    ∃ before method after body, ofClass.methods = before ++ method :: after ∧
      Stmt.Drops decl method.body body := by
  obtain ⟨name, parent, fields, methods, span⟩ := ofClass
  exact MethodDecl.exists_dropsOf methods occurs

/-- Every variable declaration that occurs in statements can be deleted from them. -/
theorem Stmt.exists_dropsOf {decl : VarDecl} (stmts : List Stmt)
    (occurs : decl ∈ Stmt.varsOf stmts) : ∃ rest, Stmt.Drops decl stmts rest := by
  cases stmts with
  | nil => cases occurs
  | cons stmt rest =>
    rw [Stmt.varsOf, List.mem_append] at occurs
    rcases occurs with first | further
    · exact Stmt.exists_drops stmt rest first
    · obtain ⟨fewer, drops⟩ := Stmt.exists_dropsOf rest further
      exact ⟨stmt :: fewer, .later stmt drops⟩

theorem MethodDecl.exists_dropsOf {decl : VarDecl} (methods : List MethodDecl)
    (occurs : decl ∈ MethodDecl.varsOf methods) :
    ∃ before method after body, methods = before ++ method :: after ∧
      Stmt.Drops decl method.body body := by
  cases methods with
  | nil => cases occurs
  | cons method rest =>
    rw [MethodDecl.varsOf, List.mem_append] at occurs
    rcases occurs with first | further
    · obtain ⟨body, drops⟩ := MethodDecl.exists_drops method first
      exact ⟨[], method, rest, body, rfl, drops⟩
    · obtain ⟨before, inner, after, body, split, drops⟩ := MethodDecl.exists_dropsOf rest further
      exact ⟨method :: before, inner, after, body, by rw [split, List.cons_append], drops⟩

end

/-- `fewer` is `nodes` without one occurrence of a block. -/
def Node.Cuts (block nodes fewer : List Node) : Prop :=
  ∃ before after, nodes = before ++ block ++ after ∧ fewer = before ++ after

/-- A block that is cut from nodes is cut from longer ones. -/
theorem Node.Cuts.within {block nodes fewer : List Node} (cuts : Node.Cuts block nodes fewer)
    (first last : List Node) :
    Node.Cuts block (first ++ nodes ++ last) (first ++ fewer ++ last) := by
  obtain ⟨before, after, rfl, rfl⟩ := cuts
  exact ⟨first ++ before, after ++ last, by simp only [List.append_assoc],
    by simp only [List.append_assoc]⟩

/-- What is cut from the body of a method is cut from the method. -/
theorem MethodDecl.cuts_nodes {block : List Node} {method : MethodDecl} {body : List Stmt}
    (cuts : Node.Cuts block (Stmt.nodesOf method.body) (Stmt.nodesOf body))
    (owner : Option String) :
    Node.Cuts block (method.nodes owner) (MethodDecl.nodes owner { method with body }) := by
  obtain ⟨name, params, returns, inner, result, span⟩ := method
  have around (stmts : List Stmt) :
      MethodDecl.nodes owner ⟨name, params, returns, stmts, result, span⟩ =
        (.methodName name :: Signature.nodesOf (.param name.name) params ++
          [.method owner name params returns span]) ++ Stmt.nodesOf stmts ++
          result.toList.map fun result => .result name returns result := by
    simp only [MethodDecl.nodes, List.append_assoc, List.cons_append, List.nil_append]
  rw [around, around]
  exact cuts.within _ _

/-- A deleted declaration is cut from the nodes. -/
theorem Stmt.Drops.cuts {decl : VarDecl} {stmts rest : List Stmt}
    (drops : Stmt.Drops decl stmts rest) :
    Node.Cuts decl.nodes (Stmt.nodesOf stmts) (Stmt.nodesOf rest) := by
  induction drops with
  | here rest => exact ⟨[], Stmt.nodesOf rest, rfl, rfl⟩
  | later stmt _ ih => simpa only [Stmt.nodesOf, List.append_nil] using ih.within stmt.nodes []
  | inMethod method rest _ ih =>
    exact (MethodDecl.cuts_nodes ih none).within [] (Stmt.nodesOf rest)
  | inClass ofClass before after method rest split _ ih =>
    obtain ⟨name, parent, fields, methods, span⟩ := ofClass
    subst split
    -- The class, its fields and the methods before the changed one stand in front of the cut.
    simpa only [Stmt.nodesOf, Stmt.nodes, ClassDecl.nodes, MethodDecl.nodesOf_append,
      MethodDecl.nodesOf, List.append_assoc, List.cons_append] using
      (MethodDecl.cuts_nodes ih (some name.name)).within
        (.classDecl name parent span :: Signature.nodesOf (.field name.name) fields ++
          MethodDecl.nodesOf name.name before)
        (MethodDecl.nodesOf name.name after ++ Stmt.nodesOf rest)

/-! ## The report of nodes -/

/-- The warning for a symbol. -/
def Symbol.warning (symbol : Symbol) : Warning := ⟨symbol.name, symbol.line, symbol.span⟩

/-- The warnings for symbols that hold a value and are not among the names read. -/
def Symbol.unread (read : List String) (symbols : List Symbol) : List Warning :=
  (symbols.filter fun symbol => symbol.role.isValue && decide (symbol.name ∉ read)).map warning

namespace Symbol

variable {read more : List String}

theorem unread_append (read : List String) (first second : List Symbol) :
    unread read (first ++ second) = unread read first ++ unread read second := by
  rw [unread, List.filter_append, List.map_append]
  rfl

theorem unread_cons_of_not_mem {symbol : Symbol} (value : symbol.role.isValue = true)
    (unmentioned : symbol.name ∉ read) (rest : List Symbol) :
    unread read (symbol :: rest) = symbol.warning :: unread read rest := by
  rw [unread, List.filter_cons_of_pos (by simp [value, unmentioned]), List.map_cons]
  rfl

/-- To read less is to be warned about more. -/
theorem unread_sublist (fewer : read ⊆ more) (symbols : List Symbol) :
    (unread more symbols).Sublist (unread read symbols) := by
  refine (List.monotone_filter_right symbols fun symbol warned => ?_).map warning
  rw [Bool.and_eq_true, decide_eq_true_iff] at warned ⊢
  exact ⟨warned.1, fun member => warned.2 (fewer member)⟩

theorem not_mem_of_unread {symbols : List Symbol} {name : String}
    (warned : name ∈ (unread read symbols).map Warning.name) : name ∉ read := by
  obtain ⟨_, member, rfl⟩ := List.mem_map.mp warned
  obtain ⟨symbol, kept, rfl⟩ := List.mem_map.mp member
  have holds := (List.mem_filter.mp kept).2
  rw [Bool.and_eq_true, decide_eq_true_iff] at holds
  exact holds.2

end Symbol

namespace Node

/-- What is reported of nodes if nothing is declared before them. -/
def report (nodes : List Node) : Report where
  outputs := outputsOf (∅ : Context).toDeclarations nodes
  warnings := Symbol.unread (nodes.flatMap refs) (nodes.filterMap symbol?)

end Node

theorem Check.Passes.unused {nodes : List Node} {left : Context} (passes : Passes ∅ nodes left) :
    left.unused = Symbol.unread (nodes.flatMap Node.refs) (nodes.filterMap Node.symbol?) := by
  have used (name : String) : (!left.isUsed name) = decide (name ∉ nodes.flatMap Node.refs) := by
    rw [decide_not, Bool.not_inj_iff, Bool.eq_iff_iff, decide_eq_true_iff, ← Node.refs_footprintOf,
      Context.isUsed, Std.ExtTreeSet.contains_iff_mem, passes.gains.used]
    exact or_iff_right Std.ExtTreeSet.not_mem_empty
  have symbols : left.symbols.toList = nodes.filterMap Node.symbol? := passes.symbols
  simp only [Context.unused, symbols, used]
  rfl

/-- From nothing, a program is reported exactly if its nodes pass, and as they are reported. -/
theorem Context.report_check_eq_ok_iff {program : Program} {report : Report} :
    ((∅ : Context).check true program).report = .ok report ↔
      Node.verdictOf (∅ : Context).toDeclarations program.nodes = .ok () ∧
        Node.report program.nodes = report := by
  rw [Outcome.report, ← Context.verdict_check ∅ true]
  cases verdict : ((∅ : Context).check true program).verdict with
  | error error => simp [Except.map]
  | ok _ =>
    obtain ⟨left, passes, result⟩ := check_ok verdict
    have reported : (left.swept true).report = Node.report program.nodes := by
      change Report.mk left.outputs (left.warnings ++ left.unused) = _
      rw [passes.outputs, passes.gains.warnings, passes.unused]
      rfl
    rw [result, Except.map, reported]
    simp

/-! ## Nodes without a variable -/

/-- The warning for a variable that is not read. -/
def VarDecl.warning (decl : VarDecl) : Warning :=
  ⟨decl.signature.name.name, decl.span.line, decl.span⟩

namespace Node

variable {decl : VarDecl} {before after : List Node}

theorem declareAll_var (decl : VarDecl) (decls : Declarations) :
    declareAll decls decl.nodes =
      decls.addValue .var decl.signature.name.name (Ty.ofName decl.signature.type.name)
        decl.span := by
  cases init : decl.init <;> simp only [VarDecl.nodes, init] <;> rfl

theorem outputsOf_var (decl : VarDecl) (decls : Declarations) :
    outputsOf decls decl.nodes = [] := by
  cases init : decl.init <;> simp only [VarDecl.nodes, init] <;> rfl

/-- Nodes that pass with a variable that they do not mention pass and show the same without it. -/
theorem verdictOf_cut {decls : Declarations} (indexed : decls.symbols.Indexed)
    (passed : verdictOf decls (before ++ decl.nodes ++ after) = .ok ())
    (unmentioned : ∀ node ∈ after, decl.signature.name.name ∉ node.refs) :
    verdictOf decls (before ++ after) = .ok () ∧
      outputsOf decls (before ++ after) = outputsOf decls (before ++ decl.nodes ++ after) := by
  rw [verdictOf_append_eq_ok_iff, verdictOf_append_eq_ok_iff, declareAll_append,
    declareAll_var] at passed
  obtain ⟨⟨early, declared⟩, late⟩ := passed
  -- An initial value declares nothing, so the variable is all that sets the two runs apart.
  have fresh : (declareAll decls before).symbols.contains decl.signature.name.name = false :=
    fresh_of_verdictOf declared List.mem_cons_self rfl
  have agree := Declarations.agreeExcept_addValue (indexed_declareAll indexed early) fresh
    (Ty.ofName decl.signature.type.name) decl.span
  have taken : ((declareAll decls before).addValue .var decl.signature.name.name
      (Ty.ofName decl.signature.type.name) decl.span).symbols.contains
        decl.signature.name.name = true := by
    simp [Symbol.declaredAt]
  obtain ⟨accepted, shown⟩ := agree.strengthen taken late unmentioned
  refine ⟨verdictOf_append_eq_ok_iff.mpr ⟨early, accepted⟩, ?_⟩
  rw [outputsOf_append, outputsOf_append, outputsOf_append, outputsOf_var, List.append_nil,
    declareAll_append, declareAll_var, shown]

theorem symbols_var (decl : VarDecl) :
    decl.nodes.filterMap symbol? =
      [.declaredAt decl.signature.name.name .var (Ty.ofName decl.signature.type.name)
        decl.span] := by
  cases init : decl.init <;> simp only [VarDecl.nodes, init] <;> rfl

/-- Without a variable that is not mentioned its warning goes, and others come only if the variable
has an initial value. -/
theorem warnings_cut
    (unmentioned : decl.signature.name.name ∉ (before ++ decl.nodes ++ after).flatMap refs) :
    ∃ front back,
      (report (before ++ decl.nodes ++ after)).warnings = front ++ decl.warning :: back ∧
      (decl.init = none → (report (before ++ after)).warnings = front ++ back) ∧
      (front ++ back).Sublist (report (before ++ after)).warnings := by
  have fewer : (before ++ after).flatMap refs ⊆ (before ++ decl.nodes ++ after).flatMap refs := by
    intro name
    simp only [List.flatMap_append, List.mem_append]
    exact Or.imp_left .inl
  refine ⟨Symbol.unread ((before ++ decl.nodes ++ after).flatMap refs) (before.filterMap symbol?),
    Symbol.unread ((before ++ decl.nodes ++ after).flatMap refs) (after.filterMap symbol?),
    ?_, fun init => ?_, ?_⟩
  · rw [report, List.append_assoc, List.filterMap_append, List.filterMap_append, symbols_var,
      Symbol.unread_append, ← List.append_assoc]
    exact congrArg (_ ++ ·) (Symbol.unread_cons_of_not_mem rfl unmentioned _)
  · have same : (before ++ decl.nodes ++ after).flatMap refs = (before ++ after).flatMap refs := by
      simp [VarDecl.nodes, init, refs]
    rw [same, ← Symbol.unread_append, ← List.filterMap_append]
    rfl
  · rw [← Symbol.unread_append, ← List.filterMap_append]
    exact Symbol.unread_sublist fewer _

end Node

namespace Context

/-- A variable that is warned about, wherever it is declared, may be deleted: the program is still
accepted and shows the same, and all other warnings remain. If the variable has no initial value,
they are all that remains. -/
theorem removable_of_unused {program : Program} {report : Report} {decl : VarDecl}
    (accepted : ((∅ : Context).check true program).report = .ok report)
    (occurs : decl ∈ Stmt.varsOf program)
    (unused : decl.signature.name.name ∈ report.unusedNames) :
    (∃ smaller, Stmt.Drops decl program smaller) ∧
      ∀ smaller, Stmt.Drops decl program smaller →
        ∃ after, ((∅ : Context).check true smaller).report = .ok after ∧
          after.outputs = report.outputs ∧
          ∃ front back, report.warnings = front ++ decl.warning :: back ∧
            (decl.init = none → after.warnings = front ++ back) ∧
            (front ++ back).Sublist after.warnings := by
  refine ⟨Stmt.exists_dropsOf program occurs, fun smaller drops => ?_⟩
  obtain ⟨passed, rfl⟩ := report_check_eq_ok_iff.mp accepted
  have unmentioned := Symbol.not_mem_of_unread unused
  obtain ⟨before, after, nodes, fewer⟩ := drops.cuts
  rw [Program.nodes, nodes] at passed unmentioned ⊢
  have unread : ∀ node ∈ after, decl.signature.name.name ∉ node.refs := by
    intro node member mentions
    exact unmentioned (List.mem_flatMap.mpr ⟨node, List.mem_append_right _ member, mentions⟩)
  obtain ⟨accepted, shown⟩ := Node.verdictOf_cut SymbolTable.indexed_empty passed unread
  rw [← fewer] at accepted shown
  have reported := report_check_eq_ok_iff.mpr ⟨accepted, rfl⟩
  refine ⟨Node.report (Program.nodes smaller), reported, shown, ?_⟩
  rw [Program.nodes, fewer]
  exact Node.warnings_cut unmentioned

/-- A variable without an initial value that nothing reads. -/
def spare : VarDecl := ⟨⟨⟨"$spare", .zero⟩, ⟨"chunk", .zero⟩⟩, none, .ofPosition 9 0⟩

/-- A variable that nothing reads, whose initial value reads another. -/
def copied : VarDecl :=
  ⟨⟨⟨"$copy", .zero⟩, ⟨"chunk", .zero⟩⟩, some (.var "$seed" .zero), .ofPosition 4 6⟩

/-- A method within which another one has a body. -/
def sorting (body : List Stmt) : MethodDecl :=
  { name := ⟨"sort", .zero⟩
    params := []
    returnType := ⟨"none", .zero⟩
    body := [.method ⟨⟨"swap", .zero⟩, [], ⟨"none", .zero⟩, body, none, .zero⟩]
    result := none
    span := .zero }

/-- A variable, a class whose method holds statements two levels down, and a variable that nothing
reads. -/
def shelf (body : List Stmt) : Program :=
  [.var ⟨⟨⟨"$seed", .zero⟩, ⟨"chunk", .zero⟩⟩, none, .ofPosition 1 0⟩,
   .classDecl ⟨⟨"Shelf", .zero⟩, none, [], [sorting body], .zero⟩,
   .output (.literal (.chunk 1) .zero) (.ofPosition 8 0),
   .var spare]

theorem removable_of_unused_shelf :
    let report : Report := ⟨[⟨.chunk, .ofPosition 8 0⟩], [copied.warning, spare.warning]⟩
    ((∅ : Context).check true (shelf [.var copied])).report = .ok report ∧
      copied ∈ Stmt.varsOf (shelf [.var copied]) ∧ "$copy" ∈ report.unusedNames ∧
      Stmt.Drops copied (shelf [.var copied]) (shelf []) ∧
      ∃ after, ((∅ : Context).check true (shelf [])).report = .ok after ∧
        after.outputs = report.outputs ∧
        ∃ front back, report.warnings = front ++ copied.warning :: back ∧
          (copied.init = none → after.warnings = front ++ back) ∧
          (front ++ back).Sublist after.warnings := by
  intro report
  have accepted : ((∅ : Context).check true (shelf [.var copied])).report = .ok report := rfl
  have occurs : copied ∈ Stmt.varsOf (shelf [.var copied]) :=
    List.mem_cons_of_mem _ List.mem_cons_self
  have unused : copied.signature.name.name ∈ report.unusedNames := List.mem_cons_self
  have drops : Stmt.Drops copied (shelf [.var copied]) (shelf []) :=
    .later _ (.inClass _ [] [] (sorting [.var copied]) _ rfl (.inMethod _ _ (.here [])))
  exact ⟨accepted, occurs, unused, drops,
    (removable_of_unused accepted occurs unused).2 (shelf []) drops⟩

end Context

end Sigil
