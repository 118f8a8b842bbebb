import Sigil.Proofs.KnownTypes

/-! # The class hierarchy is a forest

Nothing asks whether parents run in a circle. It follows from the order of three questions: the name
of a class is fresh, its parent is known, and only then is the class registered. So a parent stands
before its children among the symbols, also if a class is declared inside a method of its own parent
or is left without its members by an error. The position of a class then falls along every chain of
parents, and the walk along them ends at a root, never at a class that it has met before.
-/

namespace Sigil

open Relation (ReflTransGen TransGen)

namespace Hierarchy

variable {hierarchy : Hierarchy}

/-- No class is among its own proper ancestors. -/
def Acyclic (hierarchy : Hierarchy) : Prop :=
  ∀ className, ¬ TransGen hierarchy.ParentOf className className

/-- A rank that falls from every class to its parent leaves no room for a circle. -/
theorem acyclic_of_rank {rank : String → Nat}
    (falls : ∀ child parent, hierarchy.ParentOf child parent → rank parent < rank child) :
    hierarchy.Acyclic := by
  have below : ∀ {child ancestor : String}, TransGen hierarchy.ParentOf child ancestor →
      rank ancestor < rank child := by
    intro child ancestor path
    induction path with
    | single inherits => exact falls _ _ inherits
    | tail _ inherits ih =>
      have next := falls _ _ inherits
      omega
  intro className circle
  have absurd := below circle
  omega

/-- Without circles a walk ends at a root, as long as all it has met descends from its start. -/
theorem Acyclic.exists_root (acyclic : hierarchy.Acyclic) {start : String} {met : List String}
    (below : ∀ className ∈ met, TransGen hierarchy.ParentOf className start) :
    ∃ root, (hierarchy.walk start met).getLast? = some root ∧ hierarchy.parent? root = none := by
  induction start, met using Hierarchy.walk.induct hierarchy with
  | case1 start met again => exact absurd (below start again) (acyclic start)
  | case2 start met new ih =>
    rw [walk_eq, if_neg new]
    cases child : hierarchy.parent? start with
    | none => exact ⟨start, rfl, child⟩
    | some parent =>
      have inherits : hierarchy.ParentOf start parent := child
      have onward : ∀ className ∈ start :: met, TransGen hierarchy.ParentOf className parent := by
        intro className member
        rcases List.mem_cons.mp member with rfl | earlier
        · exact .single inherits
        · exact (below className earlier).tail inherits
      obtain ⟨root, last, top⟩ := ih parent child onward
      refine ⟨root, ?_, top⟩
      simp only [List.getLast?_cons, last, Option.getD_some]

/-- Two classes that each descend from the other are the same. -/
theorem Acyclic.antisymm (acyclic : hierarchy.Acyclic) {className other : String}
    (up : ReflTransGen hierarchy.ParentOf className other)
    (down : ReflTransGen hierarchy.ParentOf other className) : className = other := by
  rcases Relation.reflTransGen_iff_eq_or_transGen.mp up with same | path
  · exact same.symm
  · exact absurd (path.trans_left down) (acyclic className)

/-- The classes that one class descends from stand in one line. -/
theorem descends_total {className first second : String}
    (one : ReflTransGen hierarchy.ParentOf className first)
    (two : ReflTransGen hierarchy.ParentOf className second) :
    ReflTransGen hierarchy.ParentOf first second ∨
      ReflTransGen hierarchy.ParentOf second first := by
  refine one.total_of_right_unique ?_ two
  intro child parent other inherits also
  exact Option.some.inj (inherits.symm.trans also)

end Hierarchy

/-! ## Parents are declared first -/

namespace SymbolTable

/-- Among the symbols the class `earlier` stands before the class `later`. -/
def DeclaresBefore (table : SymbolTable) (earlier later : String) : Prop :=
  ∃ prior first between second rest,
    table.toList = prior ++ first :: between ++ second :: rest ∧
      first.role = .classType ∧ first.name = earlier ∧
      second.role = .classType ∧ second.name = later

variable {table : SymbolTable} {earlier later : String} {symbol : Symbol}

theorem DeclaresBefore.push (before : table.DeclaresBefore earlier later) :
    (table.push symbol).DeclaresBefore earlier later := by
  obtain ⟨prior, first, between, second, rest, split, classes⟩ := before
  refine ⟨prior, first, between, second, rest ++ [symbol], ?_, classes⟩
  simp only [toList_push, split, List.append_assoc, List.cons_append]

/-- A class that is declared now stands after every class of the table. -/
theorem declaresBefore_push {known : Symbol} (member : known ∈ table.toList)
    (role : known.role = .classType) (new : symbol.role = .classType) :
    (table.push symbol).DeclaresBefore known.name symbol.name := by
  obtain ⟨prior, between, split⟩ := List.append_of_mem member
  refine ⟨prior, known, between, symbol, [], ?_, role, rfl, new, rfl⟩
  rw [toList_push, split]

/-- The position of a name; a name that is not declared has the first one. -/
def position (table : SymbolTable) (name : String) : Nat := table.index[name]?.getD 0

theorem Indexed.position_eq (indexed : table.Indexed) {prior rest : List Symbol}
    (split : table.toList = prior ++ symbol :: rest) :
    table.position symbol.name = prior.length := by
  have entry : table.entries[prior.length]? = some symbol := by
    rw [← Array.getElem?_toList, ← toList, split, List.getElem?_append_right (Nat.le_refl _)]
    simp
  have found := (indexed symbol.name prior.length).mpr ⟨symbol, entry, rfl⟩
  rw [position, found, Option.getD_some]

theorem Indexed.position_lt (indexed : table.Indexed)
    (before : table.DeclaresBefore earlier later) :
    table.position earlier < table.position later := by
  obtain ⟨prior, first, between, second, rest, split, _, rfl, _, rfl⟩ := before
  have early := indexed.position_eq
    (split.trans (List.append_assoc prior (first :: between) (second :: rest)))
  have late := indexed.position_eq split
  simp only [List.length_append, List.length_cons] at late
  omega

end SymbolTable

namespace Declarations.Built

variable {decls : Declarations} {child parent className ancestor : String}

/-- The parent of a class was declared before the class. -/
theorem declaresBefore_parent (built : decls.Built)
    (inherits : decls.hierarchy.parent? child = some parent) :
    decls.symbols.DeclaresBefore parent child := by
  induction built with
  | refl => simp at inherits
  | tail earlier step ih =>
    cases step with
    | value _ _ _ _ _ _ => exact (ih inherits).push
    | method _ _ _ _ _ _ _ _ => exact (ih inherits).push
    | classDecl span _ _ _ known =>
      rw [addClass, Hierarchy.parent?_insert] at inherits
      split at inherits
      · next same =>
        subst same
        obtain ⟨symbol, member, role, rfl⟩ :=
          (knowsClass_iff earlier parent).mp (known parent inherits)
        exact SymbolTable.declaresBefore_push member role rfl
      · exact (ih inherits).push

/-- Along parents the position among the symbols falls. -/
theorem acyclic (built : decls.Built) : decls.hierarchy.Acyclic :=
  Hierarchy.acyclic_of_rank fun _ _ inherits =>
    built.indexed.position_lt (built.declaresBefore_parent inherits)

/-- A value fits where a class is declared that is its own or that its own descends from. -/
theorem accepts_object_iff (built : decls.Built) {declared found : String} :
    decls.hierarchy.accepts (.object declared) (.object found) = true ↔
      ReflTransGen decls.hierarchy.ParentOf found declared := by
  rw [Hierarchy.accepts_iff]
  constructor
  · rintro (same | ⟨target, start, same, also, _, path⟩)
    · cases same
      exact .refl
    · cases same
      cases also
      exact path
  · intro path
    rcases Relation.reflTransGen_iff_eq_or_transGen.mp path with rfl | proper
    · exact .inl rfl
    · -- What a class descends from is the parent of some class, and so recorded.
      obtain ⟨child, _, inherits⟩ := Relation.TransGen.tail'_iff.mp proper
      have recorded : decls.hierarchy.contains declared = true := by
        rw [built.contains_hierarchy]
        exact built.knowsClass_parent inherits
      exact .inr ⟨declared, found, rfl, rfl, recorded, path⟩

end Declarations.Built

namespace Context

variable {context : Context}

/-- An object of the class `found` may stand where the class `declared` is asked for. -/
def Fits (context : Context) (declared found : String) : Prop :=
  context.hierarchy.accepts (.object declared) (.object found) = true

/-- The classes form a forest, and fitting in the place of another class is the order along it. -/
structure Forest (context : Context) : Prop where
  /-- A parent is known, and its symbol stands before that of its child. -/
  parents : ∀ child parent, context.hierarchy.parent? child = some parent →
    parent ∈ context.classes ∧ context.symbols.DeclaresBefore parent child
  /-- A known class has known ancestors, of which the last has no parent. -/
  ancestors : ∀ className ∈ context.classes,
    (∀ ancestor ∈ context.hierarchy.ancestors className, ancestor ∈ context.classes) ∧
      ∃ root, (context.hierarchy.ancestors className).getLast? = some root ∧
        context.hierarchy.parent? root = none
  /-- No class is met again on the way up from it. -/
  acyclic : ∀ className, ¬ TransGen context.hierarchy.ParentOf className className
  fits_iff : ∀ declared found, context.Fits declared found ↔
    declared = found ∨ TransGen context.hierarchy.ParentOf found declared
  fits_refl : ∀ className, context.Fits className className
  fits_trans : ∀ first second third, context.Fits first second → context.Fits second third →
    context.Fits first third
  fits_antisymm : ∀ first second, context.Fits first second → context.Fits second first →
    first = second
  /-- Of two classes that one class fits, one fits the other. -/
  comparable : ∀ className first second, context.Fits first className →
    context.Fits second className → context.Fits first second ∨ context.Fits second first

/-- In every reachable context the classes form a forest. -/
theorem Reachable.forest (reachable : context.Reachable) : context.Forest := by
  have built := reachable.built
  have known (key : String) : key ∈ context.classes ↔ context.knowsClass key = true := by
    rw [Declarations.knowsClass, Std.ExtTreeMap.contains_iff_mem]
  have descends (declared found : String) : context.Fits declared found ↔
      ReflTransGen context.hierarchy.ParentOf found declared := built.accepts_object_iff
  refine
    { parents := fun child parent inherits => ?_
      ancestors := fun className member => ⟨fun ancestor above => ?_, ?_⟩
      acyclic := built.acyclic
      fits_iff := fun declared found => ?_
      fits_refl := fun className => ?_
      fits_trans := fun first second third => ?_
      fits_antisymm := fun first second => ?_
      comparable := fun className first second => ?_ }
  · exact ⟨(known parent).mpr (built.knowsClass_parent inherits),
      built.declaresBefore_parent inherits⟩
  · have path := Hierarchy.mem_ancestors_iff.mp above
    exact (known ancestor).mpr (built.knowsClass_of_descends ((known className).mp member) path)
  · exact built.acyclic.exists_root (by simp)
  · rw [descends, Relation.reflTransGen_iff_eq_or_transGen]
  · rw [descends]
  · simp only [descends]
    exact fun lower upper => upper.trans lower
  · simp only [descends]
    exact fun down up => built.acyclic.antisymm up down
  · simp only [descends]
    exact fun one two => (Hierarchy.descends_total one two).symm

/-- A class that is declared in a method of its own parent, and one below it that is left without
its method because the method has the name of the first class. -/
def nested : Program :=
  [.classDecl
    { name := ⟨"Animal", .zero⟩
      parent := none
      fields := []
      methods :=
        [{ name := ⟨"breed", .zero⟩
           params := []
           returnType := ⟨"none", .zero⟩
           body :=
            [.classDecl
              { name := ⟨"Dog", .zero⟩
                parent := some ⟨"Animal", .zero⟩
                fields := []
                methods := []
                span := .zero }]
           result := none
           span := .zero }]
      span := .zero },
   .classDecl
    { name := ⟨"Puppy", .zero⟩
      parent := some ⟨"Dog", .zero⟩
      fields := []
      methods :=
        [{ name := ⟨"Animal", .zero⟩
           params := []
           returnType := ⟨"none", .zero⟩
           body := []
           result := none
           span := .zero }]
      span := .zero }]

theorem forest_nested :
    let left := ((∅ : Context).check true nested).context
    ((∅ : Context).check true nested).verdict =
        .error ⟨.redeclared (.symbol .method) "Animal", .zero⟩ ∧
      left.hierarchy.ancestors "Puppy" = ["Puppy", "Dog", "Animal"] ∧
      left.symbols.DeclaresBefore "Animal" "Dog" ∧ left.symbols.DeclaresBefore "Dog" "Puppy" ∧
      left.Fits "Animal" "Puppy" ∧ ¬ left.Fits "Puppy" "Animal" := by
  intro left
  have forest : left.Forest := Reachable.forest (.check .empty true nested)
  have up : left.Fits "Animal" "Puppy" := by unfold Fits; decide +kernel
  refine ⟨rfl, by decide +kernel, (forest.parents _ _ (by decide +kernel)).2,
    (forest.parents _ _ (by decide +kernel)).2, up, fun down => ?_⟩
  have same := forest.fits_antisymm _ _ up down
  exact absurd same (by decide)

end Context

end Sigil
