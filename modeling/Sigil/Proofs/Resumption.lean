import Sigil.Proofs.Removal

/-! # A check may stop between two statements and go on later

Nothing that a node asks for or leaves has to do with the warnings or the log, so from contexts that
differ in their warnings nodes are answered alike. A check that goes on from the context of an
earlier one thus ends as a check of both programs in one go ends, in all but the warnings: the
earlier check has swept once more, and what it found stands before what the last sweep finds. A name
that was known at the stop and is warned about in the end was already warned about then.
-/

namespace Sigil

/-- Two contexts that differ in their warnings at most. -/
structure Context.Agrees (first second : Context) : Prop where
  declarations : first.toDeclarations = second.toDeclarations
  used : first.used = second.used
  outputs : first.outputs = second.outputs

namespace Context.Agrees

variable {first second third : Context}

theorem refl (context : Context) : context.Agrees context := ⟨rfl, rfl, rfl⟩

theorem symm (same : first.Agrees second) : second.Agrees first :=
  ⟨same.declarations.symm, same.used.symm, same.outputs.symm⟩

theorem trans (same : first.Agrees second) (next : second.Agrees third) : first.Agrees third :=
  ⟨same.declarations.trans next.declarations, same.used.trans next.used,
    same.outputs.trans next.outputs⟩

theorem eq_update (same : first.Agrees second) :
    second = { first with warnings := second.warnings } := by
  obtain ⟨_, _, _, _⟩ := first
  obtain ⟨_, _, _, _⟩ := second
  obtain ⟨rfl, rfl, rfl⟩ := same
  rfl

/-- Contexts that agree are equal if their warnings are. -/
theorem eq_of_warnings (same : first.Agrees second) (warned : first.warnings = second.warnings) :
    first = second := by
  rw [same.eq_update, ← warned]

theorem unused_eq (same : first.Agrees second) : first.unused = second.unused := by
  simp only [Context.unused, Context.isUsed, same.declarations, same.used]

end Context.Agrees

theorem Context.agrees_swept (context : Context) (warnUnused : Bool) :
    (context.swept warnUnused).Agrees context := by
  cases warnUnused <;> exact ⟨rfl, rfl, rfl⟩

/-! ## What a check does not look at -/

namespace Context.Agrees

theorem reading {first second : Context} (same : first.Agrees second) (expr : Expr) :
    (first.reading expr).Agrees (second.reading expr) where
  declarations := same.declarations
  used := by simp only [Context.reading, same.declarations, same.used]
  outputs := same.outputs

theorem readingAll {first second : Context} (same : first.Agrees second) (exprs : List Expr) :
    (first.readingAll exprs).Agrees (second.readingAll exprs) := by
  induction exprs generalizing first second with
  | nil => exact same
  | cons expr rest ih =>
    rw [Context.readingAll, Context.readingAll, ← same.declarations]
    cases first.toDeclarations.typeOf expr with
    | ok _ => exact ih (same.reading expr)
    | error _ => exact same.reading expr

theorem pass {first second : Run} (same : first.context.Agrees second.context) (node : Node) :
    (first.pass node).context.Agrees (second.pass node).context where
  declarations := by simp only [Run.pass, same.declarations]
  used := (same.readingAll node.exprs).used
  outputs := by simp only [Run.pass, same.declarations, same.outputs]

end Context.Agrees

/-- From contexts that agree nodes are answered alike, whatever was warned about and logged, and
leave contexts that agree. -/
theorem Check.checkNodes_agrees {first second : Run} (same : first.context.Agrees second.context)
    (nodes : List Node) :
    (checkNodes nodes first).answer = (checkNodes nodes second).answer ∧
      (checkNodes nodes first).state.context.Agrees (checkNodes nodes second).state.context := by
  induction nodes generalizing first second with
  | nil => exact ⟨rfl, same⟩
  | cons node rest ih =>
    simp only [checkNodes, bind_run, checkNode_run, Run.meet, ← same.declarations]
    cases node.verdict first.context.toDeclarations with
    | ok _ => exact ih (same.pass node)
    | error error => exact ⟨rfl, same.readingAll node.exprs⟩

/-! ## Checks that agree with runs -/

/-- The warnings that the sweep of a check has added. A check that fails does not sweep. -/
def Outcome.block (outcome : Outcome) (warnUnused : Bool) : List Warning :=
  match outcome.verdict with
  | .ok _ => if warnUnused then outcome.context.unused else []
  | .error _ => []

namespace Context

variable {context : Context}

/-- A check answers as a run over its nodes does, and agrees with what the run leaves. -/
theorem check_agrees {run : Run} (same : context.Agrees run.context) (warnUnused : Bool)
    (program : Program) :
    (context.check warnUnused program).verdict = (Check.checkNodes program.nodes run).answer ∧
      (context.check warnUnused program).context.Agrees
        (Check.checkNodes program.nodes run).state.context := by
  obtain ⟨verdict, left⟩ := context.check_eq warnUnused program
  have start : (Run.mk context [.started program.length]).context.Agrees run.context := same
  obtain ⟨answer, kept⟩ := Check.checkNodes_agrees start program.nodes
  rw [verdict, left]
  refine ⟨answer, ?_⟩
  cases ran : Check.checkNodes program.nodes ⟨context, [.started program.length]⟩ with
  | ok _ last =>
    rw [ran] at kept
    exact (agrees_swept last.context warnUnused).trans kept
  | error _ last =>
    rw [ran] at kept
    exact kept

/-- A check adds the warnings of its sweep at the end and leaves those before it alone. -/
theorem warnings_check (context : Context) (warnUnused : Bool) (program : Program) :
    (context.check warnUnused program).context.warnings =
      context.warnings ++ (context.check warnUnused program).block warnUnused := by
  cases verdict : (context.check warnUnused program).verdict with
  | ok _ =>
    obtain ⟨left, passes, result⟩ := check_ok verdict
    rw [Outcome.block, verdict, result, (left.agrees_swept warnUnused).unused_eq,
      ← passes.gains.warnings]
    cases warnUnused
    · exact (List.append_nil _).symm
    · rfl
  | error error =>
    obtain ⟨_, _, _, _, _, _, _, passes, failed⟩ := check_error verdict
    rw [Outcome.block, verdict, failed.reads.warnings, passes.gains.warnings]
    exact (List.append_nil _).symm

end Context

/-! ## Warnings about what was known before -/

/-- A warning is about something of a table: a name of its index, or a value among its entries. In a
table whose index describes the entries these are the same. -/
def Warning.Concerns (warning : Warning) (table : SymbolTable) : Prop :=
  table.contains warning.name = true ∨
    ∃ symbol ∈ table.toList, symbol.role.isValue = true ∧ symbol.warning = warning

theorem Context.mem_unused_iff {context : Context} {warning : Warning} :
    warning ∈ context.unused ↔
      ∃ symbol ∈ context.symbols.toList,
        symbol.role.isValue = true ∧ symbol.name ∉ context.used ∧ symbol.warning = warning := by
  have unread (name : String) : (!context.isUsed name) = true ↔ name ∉ context.used := by
    rw [Bool.not_eq_true', isUsed, ← Std.ExtTreeSet.contains_iff_mem, Bool.not_eq_true]
  simp only [unused, List.mem_map, List.mem_filter, Bool.and_eq_true, unread, and_assoc]
  rfl

/-- What is warned about after passed nodes and was known before them was not read before them. -/
theorem Check.Passes.unused_before {context left : Context} {nodes : List Node}
    (passes : Passes context nodes left) {warning : Warning} (warned : warning ∈ left.unused)
    (known : warning.Concerns context.symbols) : warning ∈ context.unused := by
  obtain ⟨symbol, member, value, unread, rfl⟩ := Context.mem_unused_iff.mp warned
  have before : symbol.name ∉ context.used :=
    fun read => unread ((passes.gains.used symbol.name).mpr (.inl read))
  rcases known with declared | ⟨other, old, held, same⟩
  · -- Passed nodes declare names that were not taken, so the symbol stood in the table before them.
    rw [passes.symbols, List.mem_append] at member
    rcases member with old | new
    · exact Context.mem_unused_iff.mpr ⟨symbol, old, value, before, rfl⟩
    · obtain ⟨node, among, declares⟩ := List.mem_filterMap.mp new
      have fresh := Node.fresh_of_verdictOf passes.verdictOf among declares
      exact absurd declared (by simp [Symbol.warning, fresh])
  · have named : other.name = symbol.name := congrArg Warning.name same
    exact Context.mem_unused_iff.mpr ⟨other, old, held, named ▸ before, same⟩

namespace Outcome

variable {first second : Outcome} {warnUnused : Bool}

theorem block_congr (verdict : first.verdict = second.verdict)
    (same : first.context.Agrees second.context) :
    first.block warnUnused = second.block warnUnused := by
  rw [block, block, verdict, same.unused_eq]

theorem mem_block_iff {warning : Warning} :
    warning ∈ first.block warnUnused ↔
      first.verdict = .ok () ∧ warnUnused = true ∧ warning ∈ first.context.unused := by
  unfold block
  cases first.verdict <;> cases warnUnused <;> simp

end Outcome

namespace Context

variable {context : Context} {warnUnused : Bool} {first second : Program}

/-- A check that fails is not told anything by the statements that it does not reach. -/
theorem check_append_of_error {error : Error}
    (rejected : (context.check warnUnused first).verdict = .error error) :
    (context.check warnUnused (first ++ second)).verdict = .error error ∧
      (context.check warnUnused (first ++ second)).context =
        (context.check warnUnused first).context := by
  have start : context.Agrees (Run.mk context []).context := .refl context
  obtain ⟨alone, left⟩ := check_agrees start warnUnused first
  obtain ⟨whole, last⟩ := check_agrees start warnUnused (first ++ second)
  rw [rejected] at alone
  cases ran : Check.checkNodes first.nodes (Run.mk context []) with
  | ok _ _ => simp [ran] at alone
  | error raised stop =>
    have stops : Check.checkNodes (Program.nodes (first ++ second)) (Run.mk context []) =
        .error raised stop := by
      rw [Program.nodes_append, Check.checkNodes_append]
      exact bind_of_error ran
    rw [ran] at alone left
    rw [stops] at whole last
    have verdict : (context.check warnUnused (first ++ second)).verdict = .error error :=
      whole.trans alone.symm
    refine ⟨verdict, (last.trans left.symm).eq_of_warnings ?_⟩
    rw [warnings_check, warnings_check, Outcome.block, Outcome.block, verdict, rejected]

/-- A check that goes on from an accepted program ends as a check of all statements does. -/
theorem check_append_of_ok (accepted : (context.check warnUnused first).verdict = .ok ()) :
    ((context.check warnUnused first).context.check warnUnused second).verdict =
        (context.check warnUnused (first ++ second)).verdict ∧
      ((context.check warnUnused first).context.check warnUnused second).context.Agrees
        (context.check warnUnused (first ++ second)).context := by
  have start : context.Agrees (Run.mk context []).context := .refl context
  obtain ⟨alone, left⟩ := check_agrees start warnUnused first
  obtain ⟨whole, last⟩ := check_agrees start warnUnused (first ++ second)
  rw [accepted] at alone
  cases ran : Check.checkNodes first.nodes (Run.mk context []) with
  | error _ _ => simp [ran] at alone
  | ok _ middle =>
    rw [ran] at left
    obtain ⟨next, final⟩ := check_agrees left warnUnused second
    have continues : Check.checkNodes (Program.nodes (first ++ second)) (Run.mk context []) =
        Check.checkNodes second.nodes middle := by
      rw [Program.nodes_append, Check.checkNodes_append]
      exact bind_of_ok ran
    rw [continues] at whole last
    exact ⟨next.trans whole.symm, final.trans last.symm⟩

/-- A program may be checked in two parts. If the first part is rejected, then so is the whole, and
nothing of the second part is seen. Otherwise the check of the second part on top of the first ends
as the check of the whole does, and with the same context up to the warnings of the first sweep,
which stand before those of the last one. What the last sweep finds among the names of the first
part, the first sweep has found as well. -/
theorem check_in_parts (context : Context) (warnUnused : Bool) (first second : Program) :
    let alone := context.check warnUnused first
    let whole := context.check warnUnused (first ++ second)
    let next := alone.context.check warnUnused second
    (∀ error, alone.verdict = .error error →
      whole.verdict = .error error ∧ whole.context = alone.context) ∧
    (alone.verdict = .ok () →
      next.verdict = whole.verdict ∧ next.context.Agrees whole.context ∧
      alone.context.warnings = context.warnings ++ alone.block warnUnused ∧
      whole.context.warnings = context.warnings ++ whole.block warnUnused ∧
      next.context.warnings =
        context.warnings ++ alone.block warnUnused ++ whole.block warnUnused ∧
      ∀ warning ∈ whole.block warnUnused, warning.Concerns alone.context.symbols →
        warning ∈ alone.block warnUnused) := by
  intro alone whole next
  refine ⟨fun error rejected => check_append_of_error rejected, fun accepted => ?_⟩
  obtain ⟨verdict, agrees⟩ := check_append_of_ok accepted
  have blocks : next.block warnUnused = whole.block warnUnused :=
    Outcome.block_congr verdict agrees
  have before : alone.context.warnings = context.warnings ++ alone.block warnUnused :=
    context.warnings_check warnUnused first
  have after : next.context.warnings = alone.context.warnings ++ next.block warnUnused :=
    alone.context.warnings_check warnUnused second
  rw [before, blocks] at after
  refine ⟨verdict, agrees, before, context.warnings_check warnUnused (first ++ second), after, ?_⟩
  rw [← blocks]
  intro warning member known
  obtain ⟨passed, asked, warned⟩ := Outcome.mem_block_iff.mp member
  obtain ⟨left, passes, result⟩ := check_ok passed
  rw [show next.context = left.swept warnUnused from result,
    (left.agrees_swept warnUnused).unused_eq] at warned
  exact Outcome.mem_block_iff.mpr ⟨accepted, asked, passes.unused_before warned known⟩

/-- Two variables that are not read yet. -/
def morning : Program :=
  [.var ⟨⟨⟨"$milk", .zero⟩, ⟨"chunk", .zero⟩⟩, none, .ofPosition 1 0⟩,
   .var ⟨⟨⟨"$bread", .zero⟩, ⟨"chunk", .zero⟩⟩, none, .ofPosition 2 0⟩]

/-- Reads one of the variables above, and declares another. -/
def evening : Program :=
  [.output (.var "$milk" .zero) (.ofPosition 1 0),
   .var ⟨⟨⟨"$candle", .zero⟩, ⟨"string", .zero⟩⟩, none, .ofPosition 2 0⟩]

/-- In this order both parts are accepted and each sweep finds two values, one of them twice. In the
other order the first part fails. -/
theorem check_in_parts_day :
    let alone := (∅ : Context).check true morning
    let whole := (∅ : Context).check true (morning ++ evening)
    let next := alone.context.check true evening
    let error : Error := ⟨.undeclared "$milk", .zero⟩
    alone.verdict = .ok () ∧ next.verdict = whole.verdict ∧ next.context.Agrees whole.context ∧
      whole.context.warnings.map Warning.name = ["$bread", "$candle"] ∧
      next.context.warnings.map Warning.name = ["$milk", "$bread", "$bread", "$candle"] ∧
      ⟨"$bread", 2, .ofPosition 2 0⟩ ∈ alone.block true ∧
      ((∅ : Context).check true evening).verdict = .error error ∧
      ((∅ : Context).check true (evening ++ morning)).verdict = .error error ∧
      ((∅ : Context).check true (evening ++ morning)).context =
        ((∅ : Context).check true evening).context := by
  intro alone whole next error
  have accepted : alone.verdict = .ok () := rfl
  have rejected : ((∅ : Context).check true evening).verdict = .error error := rfl
  obtain ⟨verdict, agrees, _, swept, resumed, known⟩ :=
    (check_in_parts ∅ true morning evening).2 accepted
  refine ⟨accepted, verdict, agrees, ?_, ?_, known _ List.mem_cons_self (.inl rfl), rejected,
    (check_in_parts ∅ true evening morning).1 error rejected⟩
  · exact (congrArg (List.map Warning.name) swept).trans rfl
  · exact (congrArg (List.map Warning.name) resumed).trans rfl

end Context

end Sigil
