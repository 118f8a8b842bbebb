import Sigil.Proofs.Footprint
import Sigil.Proofs.Tables
import Sigil.Proofs.Verdicts

/-! # A check only ever appends

Declarations extend others if they answer every look-up that had an answer, with the same answer.
A check, accepted or not, extends the declarations of its context: a name that is registered is
fresh, and a member is added only to a class that the same program has declared, so no entry that
was there before is touched. Names read, outputs and warnings grow likewise.
-/

namespace Sigil

namespace Declarations

/-- All that was declared is declared, and unchanged: no symbol, class, method or parent differs. -/
structure Extends (decls later : Declarations) : Prop where
  symbols : ∀ (name : String) (symbol : Symbol),
    decls.symbols.lookup? name = some symbol → later.symbols.lookup? name = some symbol
  classes : ∀ (name : String) (entry : ClassEntry),
    decls.classes[name]? = some entry → later.classes[name]? = some entry
  methods : ∀ (name : String) (entry : MethodEntry),
    decls.methods[name]? = some entry → later.methods[name]? = some entry
  parents : ∀ (name : String) (parent : Option String),
    decls.hierarchy.parents[name]? = some parent → later.hierarchy.parents[name]? = some parent

namespace Extends

variable {decls middle later : Declarations} {name : String}

theorem refl (decls : Declarations) : decls.Extends decls :=
  ⟨fun _ _ found => found, fun _ _ found => found, fun _ _ found => found, fun _ _ found => found⟩

theorem trans (first : decls.Extends middle) (second : middle.Extends later) :
    decls.Extends later where
  symbols name symbol found := second.symbols name symbol (first.symbols name symbol found)
  classes name entry found := second.classes name entry (first.classes name entry found)
  methods name entry found := second.methods name entry (first.methods name entry found)
  parents name parent found := second.parents name parent (first.parents name parent found)

/-- A name that is fresh later was fresh before. -/
theorem fresh (grows : decls.Extends later) (indexed : decls.symbols.Indexed)
    (laterIndexed : later.symbols.Indexed) (unused : later.symbols.contains name = false) :
    decls.symbols.contains name = false := by
  rw [← laterIndexed.lookup?_eq_none_iff] at unused
  rw [← indexed.lookup?_eq_none_iff, Option.eq_none_iff_forall_ne_some]
  intro symbol found
  rw [grows.symbols name symbol found] at unused
  cases unused

section Additions

variable {role : Role} {type : Ty} {span : Span} {entry : MethodEntry} {parent : Option String}

/-- A new symbol with a name that was fresh does not change what other names stand for. -/
theorem symbols_push (grows : decls.Extends later) (indexed : later.symbols.Indexed)
    {symbol : Symbol} (new : decls.symbols.lookup? symbol.name = none) (other : String)
    (found : Symbol) (before : decls.symbols.lookup? other = some found) :
    (later.symbols.push symbol).lookup? other = some found := by
  rw [indexed.lookup?_push, if_neg]
  · exact grows.symbols other found before
  · rintro rfl
    rw [new] at before
    cases before

theorem addValue (grows : decls.Extends later) (indexed : later.symbols.Indexed)
    (new : decls.symbols.lookup? name = none)
    (outside : ∀ className, role = .field className → decls.classes[className]? = none) :
    decls.Extends (later.addValue role name type span) where
  symbols := grows.symbols_push indexed new
  classes key found before := by
    rw [class?_addValue, if_neg]
    · exact grows.classes key found before
    · intro own
      rw [outside key own] at before
      cases before
  methods := grows.methods
  parents := grows.parents

theorem addMethod (grows : decls.Extends later) (indexed : later.symbols.Indexed)
    (new : decls.symbols.lookup? entry.name = none) (absent : decls.methods[entry.name]? = none)
    (outside : ∀ className, entry.owner = some className → decls.classes[className]? = none) :
    decls.Extends (later.addMethod entry span) where
  symbols := grows.symbols_push indexed new
  classes key found before := by
    rw [class?_addMethod, if_neg]
    · exact grows.classes key found before
    · intro own
      rw [outside key own] at before
      cases before
  methods key found before := by
    rw [method?_addMethod, if_neg]
    · exact grows.methods key found before
    · rintro rfl
      rw [absent] at before
      cases before
  parents := grows.parents

theorem addClass (grows : decls.Extends later) (indexed : later.symbols.Indexed)
    (new : decls.symbols.lookup? name = none) (absent : decls.classes[name]? = none)
    (root : decls.hierarchy.parents[name]? = none) :
    decls.Extends (later.addClass name parent span) where
  symbols := grows.symbols_push indexed new
  classes key found before := by
    rw [class?_addClass, if_neg]
    · exact grows.classes key found before
    · rintro rfl
      rw [absent] at before
      cases before
  methods := grows.methods
  parents key found before := by
    rw [parents_addClass, if_neg]
    · exact grows.parents key found before
    · rintro rfl
      rw [root] at before
      cases before

end Additions

end Extends

namespace Built

variable {decls : Declarations} {name : String}

theorem class?_of_fresh (built : decls.Built) (fresh : decls.symbols.contains name = false) :
    decls.classes[name]? = none := by
  have unknown := built.not_knowsClass_of_fresh fresh
  rwa [knowsClass, Std.ExtTreeMap.contains_eq_isSome_getElem?, Option.isSome_eq_false_iff,
    Option.isNone_iff_eq_none] at unknown

theorem parents_of_fresh (built : decls.Built) (fresh : decls.symbols.contains name = false) :
    decls.hierarchy.parents[name]? = none := by
  have unknown := built.not_knowsClass_of_fresh fresh
  rwa [← built.contains_hierarchy, Hierarchy.contains,
    Std.ExtTreeMap.contains_eq_isSome_getElem?, Option.isSome_eq_false_iff,
    Option.isNone_iff_eq_none] at unknown

end Built

end Declarations

/-! ## Nodes extend what was declared before them -/

namespace Check.Passes

variable {base context left : Context} {before nodes : List Node}

/-- A class that was declared among passed nodes was not known before them. -/
theorem class?_of_declares (passes : Passes context nodes left)
    (built : context.toDeclarations.Built) {className : String}
    (declared : DeclaresClass nodes className) : context.classes[className]? = none := by
  obtain ⟨name, parent, span, member, rfl⟩ := declared
  exact built.class?_of_fresh (Node.fresh_of_verdictOf passes.verdictOf member rfl)

end Check.Passes

namespace Node

variable {base context left : Context} {before : List Node} {node : Node}

/-- A passed node leaves what was declared before the program as it was. -/
theorem Passed.extends_base (passed : node.Passed context left)
    (prior : Check.Passes base before context) (follows : node.Follows before)
    (built : base.toDeclarations.Built)
    (grows : base.toDeclarations.Extends context.toDeclarations) :
    base.toDeclarations.Extends left.toDeclarations := by
  have indexed : context.symbols.Indexed := by
    rw [prior.declarations]
    exact indexed_declareAll built.indexed prior.verdictOf
  have unused (symbol : Symbol) (declares : node.symbol? = some symbol) :
      base.symbols.contains symbol.name = false :=
    grows.fresh built.indexed indexed (fresh_of_verdict passed.verdict declares)
  have absent (symbol : Symbol) (declares : node.symbol? = some symbol) :
      base.symbols.lookup? symbol.name = none :=
    built.indexed.lookup?_eq_none_iff.mpr (unused symbol declares)
  rw [passed.declarations]
  cases node with
  | value role signature span =>
    refine grows.addValue indexed (absent _ rfl) fun className field => ?_
    exact prior.class?_of_declares built (follows.2 className field)
  | method owner name params returns span =>
    refine grows.addMethod indexed (absent _ rfl) (built.method?_of_fresh (unused _ rfl))
      fun className owns => ?_
    exact prior.class?_of_declares built (follows.2 className owns)
  | classDecl name parent span =>
    exact grows.addClass indexed (absent _ rfl) (built.class?_of_fresh (unused _ rfl))
      (built.parents_of_fresh (unused _ rfl))
  | _ => exact grows

end Node

namespace Check.Passes

variable {base context left : Context} {before nodes : List Node}

theorem extends_base (passes : Passes context nodes left) (prior : Passes base before context)
    (ordered : Node.Ordered before nodes) (built : base.toDeclarations.Built)
    (grows : base.toDeclarations.Extends context.toDeclarations) :
    base.toDeclarations.Extends left.toDeclarations := by
  induction passes generalizing before with
  | nil => exact grows
  | cons passed _ ih =>
    obtain ⟨follows, later⟩ := ordered
    exact ih (prior.append (.cons passed (.nil _))) later
      (passed.extends_base prior follows built grows)

/-- Nodes in the order of a program extend the declarations that they start from. -/
theorem extends_start (passes : Passes context nodes left) (ordered : Node.Ordered [] nodes)
    (built : context.toDeclarations.Built) :
    context.toDeclarations.Extends left.toDeclarations :=
  passes.extends_base (.nil context) ordered built (.refl _)

end Check.Passes

/-! ## Contexts grow at their end -/

namespace Context

/-- `left` is `context` with more at its end: all lists go on, and nothing declared is changed. -/
structure Grows (context left : Context) : Prop where
  symbols : context.symbols.toList <+: left.symbols.toList
  declarations : context.toDeclarations.Extends left.toDeclarations
  used : ∀ name ∈ context.used, name ∈ left.used
  outputs : context.outputs <+: left.outputs
  warnings : context.warnings <+: left.warnings

theorem Grows.trans {context middle left : Context} (first : context.Grows middle)
    (second : middle.Grows left) : context.Grows left where
  symbols := first.symbols.trans second.symbols
  declarations := first.declarations.trans second.declarations
  used name member := second.used name (first.used name member)
  outputs := first.outputs.trans second.outputs
  warnings := first.warnings.trans second.warnings

/-- A context with the same declarations grows if its lists do. -/
theorem grows_of_declarations {context left : Context}
    (same : left.toDeclarations = context.toDeclarations)
    (used : ∀ name ∈ context.used, name ∈ left.used) (outputs : context.outputs <+: left.outputs)
    (warnings : context.warnings <+: left.warnings) : context.Grows left where
  symbols := same ▸ List.prefix_rfl
  declarations := same ▸ .refl _
  used := used
  outputs := outputs
  warnings := warnings

theorem grows_swept (context : Context) (warnUnused : Bool) :
    context.Grows (context.swept warnUnused) := by
  refine grows_of_declarations (toDeclarations_swept _ _) (fun _ member => ?_) ?_ ?_
  · cases warnUnused <;> exact member
  · cases warnUnused <;> exact List.prefix_rfl
  · cases warnUnused
    · exact List.prefix_rfl
    · exact List.prefix_append _ _

/-- A check, accepted or not, passes nodes in the order of a program; after them it declares
nothing. -/
theorem exists_passes_check (context : Context) (warnUnused : Bool) (program : Program) :
    ∃ nodes middle, Node.Ordered [] nodes ∧ Check.Passes context nodes middle ∧
      (context.check warnUnused program).context.toDeclarations = middle.toDeclarations ∧
      middle.Grows (context.check warnUnused program).context := by
  cases verdict : (context.check warnUnused program).verdict with
  | ok _ =>
    obtain ⟨left, passes, result⟩ := check_ok verdict
    rw [result]
    exact ⟨_, left, Node.ordered_nodes program, passes, toDeclarations_swept _ _,
      left.grows_swept warnUnused⟩
  | error error =>
    obtain ⟨before, node, after, middle, _, ordered, _, passes, failed⟩ := check_error verdict
    obtain ⟨declarations, outputs, warnings, used, _⟩ := failed.reads
    exact ⟨before, middle, ordered, passes, declarations,
      grows_of_declarations declarations used (outputs ▸ List.prefix_rfl)
        (warnings ▸ List.prefix_rfl)⟩

/-- A check, accepted or not, extends what was declared before it. -/
theorem extends_check {context : Context} (built : context.toDeclarations.Built)
    (warnUnused : Bool) (program : Program) :
    context.toDeclarations.Extends (context.check warnUnused program).context.toDeclarations := by
  obtain ⟨nodes, middle, ordered, passes, same, _⟩ := exists_passes_check context warnUnused program
  rw [same]
  exact passes.extends_start ordered built

/-- A check, accepted or not, leaves a context that only has more at its end. -/
theorem Reachable.grows_check {context : Context} (reachable : context.Reachable)
    (warnUnused : Bool) (program : Program) :
    context.Grows (context.check warnUnused program).context := by
  obtain ⟨nodes, middle, ordered, passes, same, later⟩ :=
    exists_passes_check context warnUnused program
  have gains := passes.gains
  have earlier : context.Grows middle :=
    { symbols := ⟨_, passes.symbols.symm⟩
      declarations := passes.extends_start ordered reachable.built
      used := fun name member => (gains.used name).mpr (.inl member)
      outputs := ⟨_, passes.outputs.symm⟩
      warnings := gains.warnings ▸ List.prefix_rfl }
  exact earlier.trans later

/-- A class with a field. -/
def animals : Program :=
  [.classDecl
    { name := ⟨"Animal", .zero⟩
      parent := none
      fields := [⟨⟨"$legs", .zero⟩, ⟨"chunk", .zero⟩⟩]
      methods := []
      span := .zero },
   .var
    { signature := ⟨⟨"$pet", .zero⟩, ⟨"Animal", .zero⟩⟩
      init := none
      span := .zero }]

/-- A class that inherits, whose method has the name of the class that it inherits from. -/
def misnamed : Program :=
  [.classDecl
    { name := ⟨"Dog", .zero⟩
      parent := some ⟨"Animal", .zero⟩
      fields := [⟨⟨"$tail", .zero⟩, ⟨"chunk", .zero⟩⟩]
      methods :=
        [{ name := ⟨"Animal", .zero⟩
           params := []
           returnType := ⟨"none", .zero⟩
           body := []
           result := none
           span := .zero }]
      span := .zero }]

theorem grows_check_misnamed :
    ((∅ : Context).check true animals).context.Reachable ∧
      (((∅ : Context).check true animals).context.check true misnamed).verdict =
        .error ⟨.redeclared (.symbol .method) "Animal", .zero⟩ ∧
      ((∅ : Context).check true animals).context.Grows
        (((∅ : Context).check true animals).context.check true misnamed).context :=
  ⟨.check .empty true animals, rfl,
    Reachable.grows_check (.check .empty true animals) true misnamed⟩

end Context

end Sigil
