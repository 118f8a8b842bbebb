import Sigil.Proofs.Weakening

/-! # Independent statements commute

Two statements that are each accepted in a context do not see each other: if they declare different
names, they are accepted one after the other in either order, and both orders leave the same tables.
This is because both orders leave declarations that extend what either statement declares alone and
hold nothing else; such declarations have only one way to be. If the statements share a name,
whichever comes second is refused as declared again.
-/

namespace Sigil

namespace Declarations

/-- `whole` was built by steps and holds what `one` and `two` hold, and no further symbol. -/
structure Merges (one two whole : Declarations) : Prop where
  built : whole.Built
  extendsOne : one.Extends whole
  extendsTwo : two.Extends whole
  covers : ∀ symbol ∈ whole.symbols.toList,
    symbol ∈ one.symbols.toList ∨ symbol ∈ two.symbols.toList

/-- A table that has an entry for each symbol of one role, and that an extension keeps. -/
structure Tabulates {α : Type} (role : Role) (table : Declarations → String → Option α) : Prop where
  keeps : ∀ {decls later : Declarations}, decls.Extends later →
    ∀ key entry, table decls key = some entry → table later key = some entry
  keys : ∀ {decls : Declarations}, decls.Built → ∀ key,
    (table decls key).isSome = true ↔
      ∃ symbol ∈ decls.symbols.toList, symbol.role = role ∧ symbol.name = key

theorem tabulates_classes : Tabulates .classType fun decls key => decls.classes[key]? where
  keeps grows := grows.classes
  keys built key := by
    rw [← built.knowsClass_iff, knowsClass, Std.ExtTreeMap.contains_eq_isSome_getElem?]

theorem tabulates_methods : Tabulates .method fun decls key => decls.methods[key]? where
  keeps grows := grows.methods
  keys built key := built.isSome_method?_iff key

theorem tabulates_parents :
    Tabulates .classType fun decls key => decls.hierarchy.parents[key]? where
  keeps grows := grows.parents
  keys built key := by
    rw [← built.knowsClass_iff, ← built.contains_hierarchy, Hierarchy.contains,
      Std.ExtTreeMap.contains_eq_isSome_getElem?]

namespace Merges

variable {one two whole again : Declarations} {α : Type} {role : Role}
  {table : Declarations → String → Option α}

theorem symm (merges : one.Merges two whole) : two.Merges one whole :=
  ⟨merges.built, merges.extendsTwo, merges.extendsOne,
    fun symbol member => (merges.covers symbol member).symm⟩

/-- An entry whose symbol is in a common part is the one that the part has. -/
theorem entry_of_part {part : Declarations} (tabulates : Tabulates role table)
    (built : part.Built) (inWhole : part.Extends whole) (inAgain : part.Extends again)
    {symbol : Symbol} (member : symbol ∈ part.symbols.toList) (ofRole : symbol.role = role)
    {entry : α} (found : table whole symbol.name = some entry) :
    table again symbol.name = some entry := by
  have present := (tabulates.keys built symbol.name).mpr ⟨symbol, member, ofRole, rfl⟩
  obtain ⟨own, listed⟩ := Option.isSome_iff_exists.mp present
  obtain rfl := Option.some.inj
    ((tabulates.keeps inWhole symbol.name own listed).symm.trans found)
  exact tabulates.keeps inAgain symbol.name own listed

theorem entry (tabulates : Tabulates role table) (builtOne : one.Built) (builtTwo : two.Built)
    (merges : one.Merges two whole) (merges' : one.Merges two again) {key : String} {entry : α}
    (found : table whole key = some entry) : table again key = some entry := by
  obtain ⟨symbol, member, ofRole, rfl⟩ :=
    (tabulates.keys merges.built key).mp (Option.isSome_iff_exists.mpr ⟨entry, found⟩)
  rcases merges.covers symbol member with inOne | inTwo
  · exact entry_of_part tabulates builtOne merges.extendsOne merges'.extendsOne inOne ofRole found
  · exact entry_of_part tabulates builtTwo merges.extendsTwo merges'.extendsTwo inTwo ofRole found

theorem table_eq (tabulates : Tabulates role table) (builtOne : one.Built) (builtTwo : two.Built)
    (merges : one.Merges two whole) (merges' : one.Merges two again) (key : String) :
    table whole key = table again key :=
  Option.ext fun _ => ⟨entry tabulates builtOne builtTwo merges merges',
    entry tabulates builtOne builtTwo merges' merges⟩

/-- Declarations that merge the same two have the same tables. -/
theorem tables_eq (merges : one.Merges two whole) (merges' : one.Merges two again)
    (builtOne : one.Built) (builtTwo : two.Built) :
    whole.hierarchy = again.hierarchy ∧ whole.classes = again.classes ∧
      whole.methods = again.methods := by
  have parents : whole.hierarchy.parents = again.hierarchy.parents :=
    Std.ExtTreeMap.ext_getElem? (table_eq tabulates_parents builtOne builtTwo merges merges')
  exact ⟨congrArg Hierarchy.mk parents,
    Std.ExtTreeMap.ext_getElem? (table_eq tabulates_classes builtOne builtTwo merges merges'),
    Std.ExtTreeMap.ext_getElem? (table_eq tabulates_methods builtOne builtTwo merges merges')⟩

end Merges

end Declarations

/-! ## Two runs from one context -/

/-- Among nodes there is one that declares a name. -/
def Node.Declares (nodes : List Node) (name : String) : Prop :=
  ∃ node ∈ nodes, ∃ symbol, node.symbol? = some symbol ∧ symbol.name = name

namespace Check.Passes

variable {context left right both : Context} {first second : List Node}

/-- Nodes that pass have passed up to any place among them. -/
theorem split (passes : Passes context (first ++ second) left) :
    ∃ middle, Passes context first middle ∧ Passes middle second left := by
  induction first generalizing context with
  | nil => exact ⟨context, .nil context, passes⟩
  | cons node rest ih =>
    cases passes with
    | cons passed later =>
      obtain ⟨middle, early, late⟩ := ih later
      exact ⟨middle, .cons passed early, late⟩

theorem built (passes : Passes context first left) (ordered : Node.Ordered [] first)
    (built : context.toDeclarations.Built) : left.toDeclarations.Built :=
  Relation.ReflTransGen.trans built ((nil context).steps passes ordered)

/-- After passed nodes the declared names are those of before and those of the nodes. -/
theorem contains_iff (passes : Passes context first left) (ordered : Node.Ordered [] first)
    (built : context.toDeclarations.Built) (name : String) :
    left.symbols.contains name = true ↔
      context.symbols.contains name = true ∨ Node.Declares first name := by
  rw [(passes.built ordered built).indexed.contains_iff, built.indexed.contains_iff,
    passes.symbols]
  simp only [List.mem_append, List.mem_filterMap, or_and_right, exists_or]
  refine or_congr_right ?_
  constructor
  · rintro ⟨symbol, ⟨node, member, declares⟩, named⟩
    exact ⟨node, member, symbol, declares, named⟩
  · rintro ⟨node, member, symbol, declares, named⟩
    exact ⟨symbol, ⟨node, member, declares⟩, named⟩

/-- Nodes that pass alone also pass after others that declare other names, and show the same. -/
theorem after (two : Passes context second right) (orderedTwo : Node.Ordered [] second)
    (one : Passes context first left) (orderedOne : Node.Ordered [] first)
    (built : context.toDeclarations.Built)
    (disjoint : ∀ name, Node.Declares first name → ¬ Node.Declares second name) :
    Node.verdictOf context.toDeclarations (first ++ second) = .ok () ∧
      Node.outputsOf context.toDeclarations (first ++ second) =
        Node.outputsOf context.toDeclarations first ++
          Node.outputsOf context.toDeclarations second ∧
      right.toDeclarations.Extends
        (Node.declareAll context.toDeclarations (first ++ second)) := by
  have fresh : ∀ node ∈ second, ∀ symbol, node.symbol? = some symbol →
      left.symbols.contains symbol.name = false := by
    intro node member symbol declares
    rw [← Bool.not_eq_true, one.contains_iff orderedOne built]
    rintro (before | among)
    · rw [Node.fresh_of_verdictOf two.verdictOf member declares] at before
      cases before
    · exact disjoint symbol.name among ⟨node, member, symbol, declares, rfl⟩
  obtain ⟨accepted, shown, final⟩ := two.weaken (.nil context) orderedTwo built
    (one.extends_start orderedOne built) (one.built orderedOne built).indexed fresh
  rw [one.declarations] at accepted shown final
  rw [Node.outputsOf_append, Node.declareAll_append]
  exact ⟨Node.verdictOf_append_eq_ok_iff.mpr ⟨one.verdictOf, accepted⟩, by rw [shown], final⟩

/-- Nodes that pass alone are refused after others that declare one of their names. -/
theorem clash (two : Passes context second right) (orderedTwo : Node.Ordered [] second)
    (one : Passes context first left) (orderedOne : Node.Ordered [] first)
    (built : context.toDeclarations.Built) {name : String}
    (inFirst : Node.Declares first name) (inSecond : Node.Declares second name) :
    ∃ error, Node.verdictOf context.toDeclarations (first ++ second) = .error error ∧
      error.kind = .redeclared := by
  obtain ⟨node, member, symbol, declares, rfl⟩ := inSecond
  have taken := (one.contains_iff orderedOne built symbol.name).mpr (.inr inFirst)
  obtain ⟨error, refused, kind⟩ := two.redeclared (.nil context) orderedTwo built
    (one.extends_start orderedOne built) (one.built orderedOne built).indexed member declares taken
  rw [one.declarations] at refused
  refine ⟨error, ?_, kind⟩
  rw [Node.verdictOf_append, one.verdictOf]
  exact refused

/-- What two lists of nodes declare one after the other merges what each declares alone. -/
theorem merges (passes : Passes context (first ++ second) both)
    (one : Passes context first left) (orderedOne : Node.Ordered [] first)
    (two : Passes context second right) (orderedTwo : Node.Ordered [] second)
    (built : context.toDeclarations.Built)
    (extendsTwo : right.toDeclarations.Extends both.toDeclarations) :
    left.toDeclarations.Merges right.toDeclarations both.toDeclarations := by
  obtain ⟨middle, early, late⟩ := passes.split
  have same : middle.toDeclarations = left.toDeclarations :=
    early.declarations.trans one.declarations.symm
  have builtMiddle := early.built orderedOne built
  refine ⟨late.built orderedTwo builtMiddle, ?_, extendsTwo, fun symbol member => ?_⟩
  · rw [← same]
    exact late.extends_start orderedTwo builtMiddle
  · rw [late.symbols, same, List.mem_append] at member
    refine member.imp_right fun new => ?_
    rw [two.symbols]
    exact List.mem_append_right _ new

end Check.Passes

/-! ## Statements -/

/-- The names that a statement declares, at any depth. -/
def Stmt.declaredNames (stmt : Stmt) : List String := stmt.footprint.decls.map Symbol.name

theorem Stmt.mem_declaredNames_iff {stmt : Stmt} {name : String} :
    name ∈ stmt.declaredNames ↔ Node.Declares stmt.nodes name := by
  simp only [declaredNames, Stmt.footprint_eq, Node.decls_footprintOf, List.mem_map,
    List.mem_filterMap, Node.Declares]
  constructor
  · rintro ⟨symbol, ⟨node, member, declares⟩, named⟩
    exact ⟨node, member, symbol, declares, named⟩
  · rintro ⟨node, member, symbol, declares, named⟩
    exact ⟨symbol, ⟨node, member, declares⟩, named⟩

theorem Program.nodes_singleton (stmt : Stmt) : Program.nodes [stmt] = stmt.nodes := by
  rw [Program.nodes, Stmt.nodesOf, Stmt.nodesOf, List.append_nil]

theorem Program.nodes_pair (first second : Stmt) :
    Program.nodes [first, second] = first.nodes ++ second.nodes := by
  rw [Program.nodes, Stmt.nodesOf, ← Program.nodes, Program.nodes_singleton]

namespace Context

/-- What `context` and two statements after it come to, each statement as if it stood alone. -/
structure Pairs (context : Context) (first second : Stmt) (both : Context) : Prop where
  symbols : both.symbols.toList =
    context.symbols.toList ++ first.footprint.decls ++ second.footprint.decls
  outputs : both.outputs =
    context.outputs ++ Node.outputsOf context.toDeclarations first.nodes ++
      Node.outputsOf context.toDeclarations second.nodes
  used : ∀ name, name ∈ both.used ↔
    name ∈ context.used ∨ name ∈ first.footprint.refs ∨ name ∈ second.footprint.refs

/-- Two statements that pass alone and declare different names are accepted in this order, and what
they leave is what they leave alone, put together. -/
theorem check_pair {context left right : Context} {first second : Stmt}
    (built : context.toDeclarations.Built) (one : Check.Passes context first.nodes left)
    (two : Check.Passes context second.nodes right)
    (disjoint : ∀ name ∈ first.declaredNames, name ∉ second.declaredNames) (warnUnused : Bool) :
    (context.check warnUnused [first, second]).verdict = .ok () ∧
      context.Pairs first second (context.check warnUnused [first, second]).context ∧
      left.toDeclarations.Merges right.toDeclarations
        (context.check warnUnused [first, second]).context.toDeclarations := by
  have orderedOne := Node.ordered_stmt [] first
  have orderedTwo := Node.ordered_stmt [] second
  simp only [Stmt.mem_declaredNames_iff] at disjoint
  obtain ⟨accepted, shown, extendsTwo⟩ := two.after orderedTwo one orderedOne built disjoint
  rw [← Program.nodes_pair, ← context.verdict_check warnUnused] at accepted
  obtain ⟨both, passes, result⟩ := check_ok accepted
  rw [Program.nodes_pair] at passes
  have gains := passes.gains
  rw [Node.footprintOf_append, ← Stmt.footprint_eq, ← Stmt.footprint_eq] at gains
  rw [result, toDeclarations_swept]
  refine ⟨accepted, ⟨?_, ?_, fun name => ?_⟩, ?_⟩
  · rw [toDeclarations_swept, gains.symbols, List.append_assoc]
    rfl
  · rw [outputs_swept, passes.outputs, shown, List.append_assoc]
  · rw [used_swept, gains.used]
    exact or_congr_right List.mem_append
  · rw [← passes.declarations] at extendsTwo
    exact passes.merges one orderedOne two orderedTwo built extendsTwo

/-- Two contexts that agree but for the order of two blocks, of symbols and of outputs, which follow
what `context` holds. -/
structure SameButOrder (context : Context) (symbols others : List Symbol)
    (shown more : List Output) (left right : Context) : Prop where
  used : left.used = right.used
  hierarchy : left.hierarchy = right.hierarchy
  classes : left.classes = right.classes
  methods : left.methods = right.methods
  symbolsLeft : left.symbols.toList = context.symbols.toList ++ symbols ++ others
  symbolsRight : right.symbols.toList = context.symbols.toList ++ others ++ symbols
  outputsLeft : left.outputs = context.outputs ++ shown ++ more
  outputsRight : right.outputs = context.outputs ++ more ++ shown

/-- Two statements, each accepted in a reachable context, commute if they declare different names,
and are refused in both orders if they share one. -/
theorem Reachable.stmts_commute {context : Context} (reachable : context.Reachable)
    {warnUnused : Bool} {first second : Stmt}
    (one : (context.check warnUnused [first]).verdict = .ok ())
    (two : (context.check warnUnused [second]).verdict = .ok ()) :
    ((∀ name ∈ first.declaredNames, name ∉ second.declaredNames) →
      (context.check warnUnused [first, second]).verdict = .ok () ∧
      (context.check warnUnused [second, first]).verdict = .ok () ∧
      ∃ shown more,
        (context.check warnUnused [first]).context.outputs = context.outputs ++ shown ∧
        (context.check warnUnused [second]).context.outputs = context.outputs ++ more ∧
        context.SameButOrder first.footprint.decls second.footprint.decls shown more
          (context.check warnUnused [first, second]).context
          (context.check warnUnused [second, first]).context) ∧
    ((∃ name ∈ first.declaredNames, name ∈ second.declaredNames) →
      (∃ error, (context.check warnUnused [first, second]).verdict = .error error ∧
        error.kind = .redeclared) ∧
      ∃ error, (context.check warnUnused [second, first]).verdict = .error error ∧
        error.kind = .redeclared) := by
  have built := reachable.built
  have orderedOne := Node.ordered_stmt [] first
  have orderedTwo := Node.ordered_stmt [] second
  obtain ⟨left, passesOne, resultOne⟩ := check_ok one
  obtain ⟨right, passesTwo, resultTwo⟩ := check_ok two
  rw [Program.nodes_singleton] at passesOne passesTwo
  constructor
  · intro disjoint
    have reversed : ∀ name ∈ second.declaredNames, name ∉ first.declaredNames :=
      fun name inSecond inFirst => disjoint name inFirst inSecond
    obtain ⟨accepted, pairs, merges⟩ :=
      check_pair built passesOne passesTwo disjoint warnUnused
    obtain ⟨accepted', pairs', merges'⟩ :=
      check_pair built passesTwo passesOne reversed warnUnused
    obtain ⟨hierarchy, classes, methods⟩ := merges.tables_eq merges'.symm
      (passesOne.built orderedOne built) (passesTwo.built orderedTwo built)
    refine ⟨accepted, accepted', _, _, ?_, ?_,
      { used := Std.ExtTreeSet.ext_mem fun name => ?_
        hierarchy := hierarchy
        classes := classes
        methods := methods
        symbolsLeft := pairs.symbols
        symbolsRight := pairs'.symbols
        outputsLeft := pairs.outputs
        outputsRight := pairs'.outputs }⟩
    · rw [resultOne, outputs_swept, passesOne.outputs]
    · rw [resultTwo, outputs_swept, passesTwo.outputs]
    · rw [pairs.used, pairs'.used, or_comm (a := name ∈ first.footprint.refs)]
  · rintro ⟨name, inFirst, inSecond⟩
    rw [Stmt.mem_declaredNames_iff] at inFirst inSecond
    rw [verdict_check, verdict_check, Program.nodes_pair, Program.nodes_pair]
    exact ⟨passesTwo.clash orderedTwo passesOne orderedOne built inFirst inSecond,
      passesOne.clash orderedOne passesTwo orderedTwo built inSecond inFirst⟩

/-- A subclass whose method shows a field of an object that is declared before. -/
def puppies : Stmt :=
  .classDecl
    { name := ⟨"Dog", .zero⟩
      parent := some ⟨"Animal", .zero⟩
      fields := [⟨⟨"$tail", .zero⟩, ⟨"chunk", .zero⟩⟩]
      methods :=
        [{ name := ⟨"wag", .zero⟩
           params := [⟨⟨"$speed", .zero⟩, ⟨"chunk", .zero⟩⟩]
           returnType := ⟨"chunk", .zero⟩
           body := [.output (.field ⟨"$pet", .zero⟩ ⟨"$legs", .zero⟩ .zero) (.ofPosition 4 2)]
           result := some ⟨.var "$speed" .zero, .zero⟩
           span := .zero }]
      span := .zero }

/-- A method that declares an object of an earlier class, shows it and returns it. -/
def feeding : Stmt :=
  .method
    { name := ⟨"feed", .zero⟩
      params := []
      returnType := ⟨"Animal", .zero⟩
      body :=
        [.var ⟨⟨⟨"$guest", .zero⟩, ⟨"Animal", .zero⟩⟩, none, .zero⟩,
         .output (.var "$guest" .zero) (.ofPosition 8 2)]
      result := some ⟨.var "$guest" .zero, .zero⟩
      span := .zero }

/-- A variable with the name of the parameter in `puppies`. -/
def haste : Stmt := .var ⟨⟨⟨"$speed", .zero⟩, ⟨"chunk", .zero⟩⟩, none, .zero⟩

theorem stmts_commute_puppies :
    let context := ((∅ : Context).check true animals).context
    context.Reachable ∧
      (context.check true [puppies]).verdict = .ok () ∧
      (context.check true [feeding]).verdict = .ok () ∧
      (context.check true [haste]).verdict = .ok () ∧
      (context.check true [puppies, feeding]).verdict = .ok () ∧
      (context.check true [feeding, puppies]).verdict = .ok () ∧
      (∃ shown more, context.SameButOrder puppies.footprint.decls feeding.footprint.decls shown more
        (context.check true [puppies, feeding]).context
        (context.check true [feeding, puppies]).context) ∧
      (∃ error, (context.check true [puppies, haste]).verdict = .error error ∧
        error.kind = .redeclared) ∧
      ∃ error, (context.check true [haste, puppies]).verdict = .error error ∧
        error.kind = .redeclared := by
  intro context
  have reachable : context.Reachable := .check .empty true animals
  have first : (context.check true [puppies]).verdict = .ok () := by decide +kernel
  have second : (context.check true [feeding]).verdict = .ok () := by decide +kernel
  have third : (context.check true [haste]).verdict = .ok () := by decide +kernel
  obtain ⟨forth, back, shown, more, _, _, same⟩ :=
    (Reachable.stmts_commute reachable first second).1 (by decide +kernel)
  obtain ⟨clash, clash'⟩ :=
    (Reachable.stmts_commute reachable first third).2 ⟨"$speed", by decide +kernel⟩
  exact ⟨reachable, first, second, third, forth, back, ⟨shown, more, same⟩, clash, clash'⟩

end Context

end Sigil
