import Sigil.Proofs.Members

/-! # Reachable contexts are coherent

A context keeps one declaration in up to four tables, and a check that fails leaves whatever it has
registered until then. `Coherent` is all that the tables promise each other, and every reachable
context has it, after any number of programs, accepted or not, and of typed expressions.
-/

namespace Sigil

open Relation (ReflTransGen)

namespace Context

/-- The tables of a context agree with its symbols. -/
structure Coherent (context : Context) : Prop where
  /-- No name is declared twice. -/
  distinct : (context.symbols.toList.map Symbol.name).Nodup
  valueNames : ∀ symbol ∈ context.symbols.toList, symbol.role.isValue = true →
    ∃ text, symbol.name.toList = sigil :: text ∧ isIdentifierText text = true
  plainNames : ∀ symbol ∈ context.symbols.toList,
    symbol.role = .method ∨ symbol.role = .classType → isIdentifier symbol.name = true
  classNames : ∀ symbol ∈ context.symbols.toList,
    symbol.role = .classType → symbol.name ∉ builtinTypeNames
  /-- Class entries, the hierarchy and the class symbols have the same names. -/
  classKeys : ∀ key, key ∈ context.classes ↔
    ∃ symbol ∈ context.symbols.toList, symbol.role = .classType ∧ symbol.name = key
  hierarchyKeys : ∀ key, key ∈ context.hierarchy.parents ↔ key ∈ context.classes
  classEntries : ∀ (key : String) (entry : ClassEntry), context.classes[key]? = some entry →
    entry.name = key ∧ entry.parent = context.hierarchy.parent? key ∧
      ∃ symbol, context.symbols.lookup? key = some symbol ∧ symbol.role = .classType ∧
        symbol.span = entry.span ∧ symbol.type = .object key
  parents : ∀ child parent, context.hierarchy.parent? child = some parent →
    parent ∈ context.classes
  fieldOwners : ∀ symbol ∈ context.symbols.toList, ∀ className,
    symbol.role = .field className → className ∈ context.classes
  /-- A class lists its own fields and methods, and nothing else, in the order of the symbols. -/
  members : ∀ (key : String) (entry : ClassEntry), context.classes[key]? = some entry →
    entry.fields = context.ownFields key ∧ entry.methods = context.ownMethods key
  methodKeys : ∀ key, key ∈ context.methods ↔
    ∃ symbol ∈ context.symbols.toList, symbol.role = .method ∧ symbol.name = key
  /-- A method entry is that of its symbol and of the parameters right before it. -/
  methodEntries : ∀ (key : String) (entry : MethodEntry), context.methods[key]? = some entry →
    entry.name = key ∧ entry.ListedIn context.symbols.toList ∧
      ∀ className, entry.owner = some className → className ∈ context.classes
  used : ∀ name ∈ context.used,
    ∃ symbol, context.symbols.lookup? name = some symbol ∧ symbol.role.isValue = true

/-- Only names of declared values have been read. -/
def UsedAreValues (context : Context) : Prop :=
  ∀ name ∈ context.used,
    ∃ symbol ∈ context.symbols.toList, symbol.name = name ∧ symbol.role.isValue = true

theorem Reads.usedAreValues {context left : Context} {names : List String}
    (reads : context.Reads names left) (built : context.toDeclarations.Built)
    (values : context.UsedAreValues) : left.UsedAreValues := by
  intro name member
  rw [reads.declarations]
  rcases reads.within name member with before | ⟨_, readable⟩
  · exact values name before
  · exact built.value_of_readable readable

end Context

theorem Node.Passed.usedAreValues {node : Node} {context left : Context}
    (passed : node.Passed context left) (built : context.toDeclarations.Built)
    (values : context.UsedAreValues) : left.UsedAreValues := by
  intro name member
  have earlier : ∃ symbol ∈ context.symbols.toList,
      symbol.name = name ∧ symbol.role.isValue = true := by
    rcases (passed.used name).mp member with before | here
    · exact values name before
    · exact built.value_of_readable (passed.readable name here)
  obtain ⟨symbol, declared, rest⟩ := earlier
  refine ⟨symbol, ?_, rest⟩
  rw [passed.declarations, Node.toList_declare]
  exact List.mem_append_left _ declared

theorem Check.Passes.usedAreValues {base context left : Context} {before nodes : List Node}
    (prior : Passes base before context) (passes : Passes context nodes left)
    (ordered : Node.Ordered before nodes) (built : context.toDeclarations.Built)
    (values : context.UsedAreValues) : left.UsedAreValues := by
  induction passes generalizing before with
  | nil => exact values
  | cons passed _ ih =>
    obtain ⟨follows, later⟩ := ordered
    have next : Declarations.Built _ := ReflTransGen.trans built (passed.step prior follows)
    exact ih (prior.append (.cons passed (.nil _))) later next (passed.usedAreValues built values)

namespace Context

theorem Reachable.usedAreValues {context : Context} (reachable : context.Reachable) :
    context.UsedAreValues := by
  induction reachable with
  | empty => intro name member; exact absurd member Std.ExtTreeSet.not_mem_empty
  | infer earlier expr ih =>
    rw [infer_eq]
    exact (reads_reading _ _).usedAreValues earlier.built ih
  | @check context earlier warnUnused program ih =>
    have nothing := Check.Passes.nil context
    cases verdict : (context.check warnUnused program).verdict with
    | ok _ =>
      obtain ⟨left, passes, result⟩ := check_ok verdict
      have values := nothing.usedAreValues passes (Node.ordered_nodes program) earlier.built ih
      rw [result]
      cases warnUnused <;> exact values
    | error error =>
      obtain ⟨before, node, after, middle, _, ordered, _, passes, failed⟩ := check_error verdict
      have values := nothing.usedAreValues passes ordered earlier.built ih
      have built : middle.toDeclarations.Built :=
        ReflTransGen.trans earlier.built (nothing.steps passes ordered)
      exact failed.reads.usedAreValues built values

/-- Every reachable context is coherent. -/
theorem Reachable.coherent {context : Context} (reachable : context.Reachable) :
    context.Coherent := by
  have built := reachable.built
  have known (key : String) : key ∈ context.classes ↔ context.knowsClass key = true := by
    rw [Declarations.knowsClass, Std.ExtTreeMap.contains_iff_mem]
  have isMethod (key : String) : key ∈ context.methods ↔ context.methods[key]?.isSome = true :=
    Std.ExtTreeMap.mem_iff_isSome_getElem?
  refine
    { distinct := built.indexed.nodup_names
      valueNames := fun symbol member holds =>
        (variableNameFault?_eq_none_iff _).mp (built.valueName symbol member holds)
      plainNames := fun symbol member plain => built.plainName symbol member ?_
      classNames := fun symbol member role => (built.className symbol member role).1
      classKeys := fun key => (known key).trans (built.knowsClass_iff key)
      hierarchyKeys := fun key => ?_
      classEntries := fun key entry found => ?_
      parents := fun child parent inherits =>
        (known parent).mpr (built.knowsClass_parent inherits)
      fieldOwners := fun symbol member className role =>
        (known className).mpr (built.knowsClass_of_field symbol member role)
      members := fun key entry found => ⟨built.fields_eq found, built.methods_eq found⟩
      methodKeys := fun key => (isMethod key).trans (built.isSome_method?_iff key)
      methodEntries := fun key entry found => ?_
      used := fun name member => ?_ }
  · rcases plain with role | role <;> rw [role] <;> rfl
  · rw [known key, ← built.contains_hierarchy key, Hierarchy.contains,
      Std.ExtTreeMap.contains_iff_mem]
  · obtain ⟨named, inherits, symbol, member, role, rfl, span⟩ := built.class_entry found
    exact ⟨named, inherits, symbol, built.indexed.lookup?_eq_some_iff_mem.mpr ⟨member, rfl⟩, role,
      span, (built.className symbol member role).2⟩
  · obtain ⟨named, listed⟩ := built.method_entry found
    exact ⟨named, listed, fun className owned =>
      (known className).mpr (built.knowsClass_of_method found owned)⟩
  · obtain ⟨symbol, member, named, holds⟩ := reachable.usedAreValues name member
    exact ⟨symbol, built.indexed.lookup?_eq_some_iff_mem.mpr ⟨member, named⟩, holds⟩

/-- A class whose method returns a type that nothing declares: the class, its field and the
parameter are registered, the method is not. -/
def interrupted : Program :=
  [.classDecl
    { name := ⟨"Animal", .zero⟩
      parent := none
      fields := [⟨⟨"$legs", .zero⟩, ⟨"chunk", .zero⟩⟩]
      methods :=
        [{ name := ⟨"speak", .zero⟩
           params := [⟨⟨"$times", .zero⟩, ⟨"chunk", .zero⟩⟩]
           returnType := ⟨"Sound", .zero⟩
           body := []
           result := none
           span := .zero }]
      span := .zero }]

theorem coherent_interrupted :
    ((∅ : Context).check true interrupted).verdict = .error ⟨.unknownType "Sound", .zero⟩ ∧
      ((∅ : Context).check true interrupted).context.symbols.toList.map Symbol.name =
        ["Animal", "$legs", "$times"] ∧
      ((∅ : Context).check true interrupted).context.Coherent :=
  ⟨rfl, rfl, Reachable.coherent (.check .empty true interrupted)⟩

end Context

end Sigil
