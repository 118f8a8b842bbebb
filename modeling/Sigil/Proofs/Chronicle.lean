import Sigil.Proofs.Lookup
import Sigil.Proofs.Verdicts

/-! # The log tells what the context holds

A check logs a value before it registers it, a method or a class after that, and an output before it
records it, and it may stop between any two nodes at any depth. Its log still tells neither less nor
more than the context it leaves: one trace message for each symbol, in the order of the table, and
one debug message for each output, after the start and, if the program was accepted, before the end.
Either a node does all that it has to do or it fails before it has logged anything, so `Told` is
kept by every node, and a check is a run of nodes.
-/

namespace Sigil

/-! ## What a symbol is logged as -/

namespace Symbol

/-- What the log says of a symbol whose class, if it is one, has the parent that is recorded. -/
def notice (hierarchy : Hierarchy) (symbol : Symbol) : String :=
  match symbol.role with
  | .method => "declare method " ++ symbol.name ++ " -> " ++ symbol.type.name
  | .classType =>
      "declare class " ++ symbol.name ++ " parent=" ++
        match hierarchy.parent? symbol.name with
        | none => "None"
        | some parent => "Some(\"" ++ parent ++ "\")"
  | role => "declare " ++ role.category.label ++ " " ++ symbol.name ++ ": " ++ symbol.type.name

/-- The event of a symbol, likewise. -/
def event (hierarchy : Hierarchy) (symbol : Symbol) : Event :=
  match symbol.role with
  | .method => .declaredMethod symbol.name symbol.type
  | .classType => .declaredClass symbol.name (hierarchy.parent? symbol.name)
  | role => .declaredValue role.category symbol.name symbol.type

theorem message_event (hierarchy : Hierarchy) (symbol : Symbol) :
    (symbol.event hierarchy).message = symbol.notice hierarchy := by
  unfold event notice Event.message
  cases symbol.role with
  | classType =>
    dsimp only
    cases hierarchy.parent? symbol.name <;> exact rfl
  | _ => exact rfl

end Symbol

/-- The events of a level, in order. -/
def Event.ofLevel (level : Event.Level) (log : List Event) : List Event :=
  log.filter fun event => event.level = level

theorem Event.ofLevel_append (level : Event.Level) (first second : List Event) :
    ofLevel level (first ++ second) = ofLevel level first ++ ofLevel level second :=
  List.filter_append first second

/-! ## What a run has told -/

namespace Node

/-- A class that is declared now leaves the parents of the classes before it. -/
theorem event_declare {node : Node} {decls : Declarations} {symbol : Symbol}
    (indexed : decls.symbols.Indexed) (passed : node.verdict decls = .ok ())
    (member : symbol ∈ decls.symbols.toList) :
    symbol.event (node.declare decls).hierarchy = symbol.event decls.hierarchy := by
  cases node with
  | classDecl name parent span =>
    have fresh := (verdict_classDecl_eq_ok passed).2.2.1
    have other := indexed.name_ne_of_fresh fresh member
    have same : (decls.addClass name.name (parent.map Ident.name) span).hierarchy.parent?
        symbol.name = decls.hierarchy.parent? symbol.name := by
      rw [Declarations.addClass, Hierarchy.parent?_insert, if_neg other.symm]
    rw [Symbol.event, Symbol.event, declare, same]
  | _ => rfl

/-- The trace events of a node are those of the symbol that it declares. -/
theorem trace_events {node : Node} {decls : Declarations} {before : List Node}
    (follows : node.Follows before) :
    Event.ofLevel .trace (node.events decls) =
      node.symbol?.toList.map (Symbol.event (node.declare decls).hierarchy) := by
  cases node with
  | value role signature span =>
    obtain ⟨holds, _⟩ := follows
    cases role with
    | var => rfl
    | param method => rfl
    | field className => rfl
    | method => cases holds
    | classType => cases holds
  | method owner name params returns span => rfl
  | classDecl name parent span =>
    have own : (decls.addClass name.name (parent.map Ident.name) span).hierarchy.parent?
        name.name = parent.map Ident.name := by
      rw [Declarations.addClass, Hierarchy.parent?_insert, if_pos rfl]
    simp only [symbol?, Option.toList_some, List.map_cons, List.map_nil, declare, Symbol.event,
      Symbol.declaredAt, own]
    rfl
  | output value span =>
    cases typed : decls.typeOf value <;> simp [events, outputs, typed] <;> rfl
  | _ => rfl

/-- The debug events of a node are its outputs. -/
theorem debug_events (node : Node) (decls : Declarations) :
    Event.ofLevel .debug (node.events decls) = (node.outputs decls).map .shown := by
  cases node with
  | output value span =>
    cases typed : decls.typeOf value <;> simp [events, outputs, typed] <;> rfl
  | _ => rfl

end Node

/-- The log of a check of so many statements has told exactly what the context holds. -/
structure Run.Told (statements : Nat) (run : Run) : Prop where
  indexed : run.context.symbols.Indexed
  declared : Event.ofLevel .trace run.log =
    run.context.symbols.toList.map (Symbol.event run.context.hierarchy)
  shown : Event.ofLevel .debug run.log = .started statements :: run.context.outputs.map .shown

namespace Run.Told

variable {statements : Nat} {run : Run} {node : Node}

theorem pass {before : List Node} (told : run.Told statements) (follows : node.Follows before)
    (passed : node.verdict run.context.toDeclarations = .ok ()) :
    (run.pass node).Told statements where
  indexed := Node.indexed_declare told.indexed passed
  declared := by
    simp only [Run.pass, Event.ofLevel_append, Node.toList_declare, List.map_append, told.declared,
      Node.trace_events follows]
    congr 1
    refine List.map_congr_left fun symbol member => ?_
    exact (Node.event_declare told.indexed passed member).symm
  shown := by
    simp only [Run.pass, Event.ofLevel_append, told.shown, Node.debug_events, List.map_append,
      List.cons_append]

theorem fail (told : run.Told statements) : (run.fail node).Told statements := by
  have reads := run.context.reads_readingAll node.exprs
  constructor
  · rw [Run.fail, reads.declarations]
    exact told.indexed
  · rw [Run.fail, reads.declarations]
    exact told.declared
  · rw [Run.fail, reads.outputs]
    exact told.shown

/-- Every node, whether it passes or fails, keeps the log in step with the context. -/
theorem checkNode {before : List Node} (told : run.Told statements)
    (follows : node.Follows before) : (Check.checkNode node run).state.Told statements := by
  rw [Check.checkNode_run, Run.meet]
  cases verdict : node.verdict run.context.toDeclarations with
  | ok _ => exact told.pass follows verdict
  | error error => exact told.fail

/-- So do nodes in the order of a program, up to the first that fails. -/
theorem checkNodes {before nodes : List Node} (told : run.Told statements)
    (ordered : Node.Ordered before nodes) :
    (Check.checkNodes nodes run).state.Told statements := by
  induction nodes generalizing run before with
  | nil => exact told
  | cons node rest ih =>
    obtain ⟨follows, later⟩ := ordered
    have next := told.checkNode follows
    rw [Check.checkNodes, bind_run]
    cases ran : Check.checkNode node run with
    | error error left => rwa [ran] at next
    | ok _ middle =>
      rw [ran] at next
      exact ih next later

/-- Before its first node a check of an empty context has told that it started. -/
theorem start (statements : Nat) : Told statements ⟨∅, [.started statements]⟩ :=
  ⟨SymbolTable.indexed_empty, rfl, rfl⟩

theorem trace_messages (told : run.Told statements) :
    (Event.ofLevel .trace run.log).map Event.message =
      run.context.symbols.toList.map (Symbol.notice run.context.hierarchy) := by
  rw [told.declared, List.map_map]
  exact List.map_congr_left fun symbol _ => symbol.message_event run.context.hierarchy

theorem debug_messages (told : run.Told statements) :
    (Event.ofLevel .debug run.log).map Event.message =
      s!"analysis start: statements={statements}" :: run.context.outputs.map Output.text := by
  rw [told.shown, List.map_cons, List.map_map]
  exact rfl

end Run.Told

/-! ## What a check logs -/

namespace Outcome

/-- The messages of a level, in order. -/
def messages (outcome : Outcome) (level : Event.Level) : List String :=
  (Event.ofLevel level outcome.log).map Event.message

/-- The last message of a check that accepts its program. -/
def closing (outcome : Outcome) : List String :=
  match outcome.verdict with
  | .error _ => []
  | .ok _ =>
      ["analysis end: symbols=" ++ toString outcome.context.symbols.size ++ " outputs=" ++
        toString outcome.context.outputs.length ++ " warnings=" ++
        toString outcome.context.warnings.length]

end Outcome

namespace Context

/-- The log of a check from the empty context tells of each symbol and each output that the context
holds after it, in order, and of nothing else, whether the program was accepted or not. -/
theorem check_tells (warnUnused : Bool) (program : Program) :
    let outcome := (∅ : Context).check warnUnused program
    outcome.messages .trace =
        outcome.context.symbols.toList.map (Symbol.notice outcome.context.hierarchy) ∧
      outcome.messages .debug =
        s!"analysis start: statements={program.length}" ::
          outcome.context.outputs.map Output.text ++ outcome.closing := by
  intro outcome
  have told := (Run.Told.start program.length).checkNodes (Node.ordered_nodes program)
  cases ran : Check.checkNodes program.nodes ⟨∅, [.started program.length]⟩ with
  | error error left =>
    have stopped : outcome = ⟨.error error, left.context, left.log⟩ := check_of_failed ran
    rw [ran, EStateM.Result.state_error] at told
    rw [stopped]
    refine ⟨told.trace_messages, ?_⟩
    rw [Outcome.closing, List.append_nil]
    exact told.debug_messages
  | ok _ left =>
    have ended : outcome = _ := check_of_passed ran
    rw [ran, EStateM.Result.state_ok] at told
    rw [ended]
    refine ⟨?_, ?_⟩
    · rw [Outcome.messages, Event.ofLevel_append, List.map_append, told.trace_messages,
        toDeclarations_swept]
      exact List.append_nil _
    · rw [Outcome.messages, Event.ofLevel_append, List.map_append, told.debug_messages,
        ← outputs_swept left.context warnUnused]
      exact rfl

end Context

end Sigil
