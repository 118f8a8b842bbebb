import Mathlib.Data.List.Basic
import Sigil.Proofs.Growth
import Sigil.Proofs.KnownTypes

/-! # Types stay what they are

What later checks declare cannot change how an expression is typed. The class of an object is known,
so its ancestors and their entries stay as they are, and every search along them gives what it gave:
members cannot be shadowed, and a class cannot become the ancestor of one that is already known.
Only an error that something was not declared may be mended, by declaring it. `Persists` is this
relation between two answers; it is kept by sequencing, so each rule of inference is looked at once.
-/

namespace Sigil

open Relation (ReflTransGen)

namespace Hierarchy

/-- Where two hierarchies agree on the parents of the recorded classes of one, and that one records
all parents, they agree on the walks from its classes. -/
theorem walk_congr {hierarchy other : Hierarchy}
    (same : ∀ className, hierarchy.contains className = true →
      other.parent? className = hierarchy.parent? className)
    (closed : ∀ child parent, hierarchy.parent? child = some parent →
      hierarchy.contains parent = true)
    {start : String} (known : hierarchy.contains start = true) (met : List String) :
    other.walk start met = hierarchy.walk start met := by
  induction start, met using Hierarchy.walk.induct hierarchy with
  | case1 start met again => rw [walk_eq, walk_eq hierarchy, if_pos again, if_pos again]
  | case2 start met new ih =>
    rw [walk_eq, walk_eq hierarchy, if_neg new, if_neg new, same start known]
    cases child : hierarchy.parent? start with
    | none => rfl
    | some parent =>
      have onward := ih parent child (closed start parent child)
      simp only [onward]

end Hierarchy

namespace Declarations.Extends

variable {decls later : Declarations} {className : String}

theorem knowsClass (grows : decls.Extends later) (known : decls.knowsClass className = true) :
    later.knowsClass className = true := by
  obtain ⟨entry, found⟩ := exists_class known
  rw [Declarations.knowsClass, Std.ExtTreeMap.contains_eq_isSome_getElem?,
    grows.classes className entry found]
  rfl

theorem knowsType {type : Ty} (grows : decls.Extends later) (known : decls.KnowsType type) :
    later.KnowsType type :=
  fun className object => grows.knowsClass (known className object)

theorem class?_eq (grows : decls.Extends later) (known : decls.knowsClass className = true) :
    later.classes[className]? = decls.classes[className]? := by
  obtain ⟨entry, found⟩ := exists_class known
  rw [found, grows.classes className entry found]

theorem parent?_eq (grows : decls.Extends later)
    (recorded : decls.hierarchy.contains className = true) :
    later.hierarchy.parent? className = decls.hierarchy.parent? className := by
  rw [Hierarchy.contains, Std.ExtTreeMap.contains_eq_isSome_getElem?,
    Option.isSome_iff_exists] at recorded
  obtain ⟨parent, found⟩ := recorded
  rw [Hierarchy.parent?, Hierarchy.parent?, found, grows.parents className parent found]

/-! ## Questions about a known class -/

/-- The ancestors of a known class are final. -/
theorem ancestors_eq (grows : decls.Extends later) (built : decls.Built)
    (known : decls.knowsClass className = true) :
    later.hierarchy.ancestors className = decls.hierarchy.ancestors className := by
  refine Hierarchy.walk_congr (fun _ => grows.parent?_eq) (fun child parent inherits => ?_) ?_ []
  · rw [built.contains_hierarchy]
    exact built.knowsClass_parent inherits
  · rw [built.contains_hierarchy]
    exact known

theorem lineage_eq (grows : decls.Extends later) (built : decls.Built)
    (known : decls.knowsClass className = true) :
    later.lineage className = decls.lineage className := by
  rw [lineage, lineage, grows.ancestors_eq built known]
  refine List.filterMap_congr fun ancestor member => ?_
  have descends := Hierarchy.mem_ancestors_iff.mp member
  exact grows.class?_eq (built.knowsClass_of_descends known descends)

theorem field?_eq (grows : decls.Extends later) (built : decls.Built)
    (known : decls.knowsClass className = true) (field : String) :
    later.field? className field = decls.field? className field := by
  rw [field?, field?, grows.lineage_eq built known]

theorem method?_eq (grows : decls.Extends later) (built : decls.Built)
    (known : decls.knowsClass className = true) (method : String) :
    later.method? className method = decls.method? className method := by
  cases found : decls.method? className method with
  | some entry =>
    have present := (built.method?_eq_some_iff.mp found).1
    rw [method?, grows.lineage_eq built known]
    rw [method?] at found
    split at found
    · rw [if_pos ‹_›, grows.methods method entry present]
    · cases found
  | none =>
    -- No class of the lineage lists the method, for one that is listed has an entry.
    rw [method?, grows.lineage_eq built known, if_neg]
    intro listed
    rw [method?, if_pos listed] at found
    obtain ⟨entry, member, lists⟩ := List.any_eq_true.mp listed
    obtain ⟨ancestor, _, present⟩ := mem_lineage_iff.mp member
    rw [ClassEntry.hasMethod, List.contains_iff_mem, built.methods_eq present,
      built.mem_ownMethods_iff, found] at lists
    obtain ⟨_, absurd, _⟩ := lists
    cases absurd

/-- Whether a value of a known type fits somewhere is final. -/
theorem accepts_eq (grows : decls.Extends later) (built : decls.Built) {found : Ty}
    (known : decls.KnowsType found) (declared : Ty) :
    later.hierarchy.accepts declared found = decls.hierarchy.accepts declared found := by
  cases declared with
  | object target =>
    cases found with
    | object start =>
      have start := known start rfl
      simp only [Hierarchy.accepts, grows.ancestors_eq built start]
      congr 1
      cases member : (decls.hierarchy.ancestors _).contains target with
      | false => rw [Bool.and_false, Bool.and_false]
      | true =>
        -- An ancestor of a known class is recorded before and after.
        have descends := Hierarchy.mem_ancestors_iff.mp (List.contains_iff_mem.mp member)
        have recorded : decls.hierarchy.contains target = true := by
          rw [built.contains_hierarchy]
          exact built.knowsClass_of_descends start descends
        have still : later.hierarchy.contains target = true := by
          rw [Hierarchy.contains, Std.ExtTreeMap.contains_eq_isSome_getElem?,
            Option.isSome_iff_exists] at recorded ⊢
          exact recorded.imp (grows.parents target)
        rw [recorded, still]
    | _ => rfl
  | _ => rfl

end Declarations.Extends

/-! ## Answers that persist -/

/-- An error that a later declaration may mend: a name or a class was not declared. -/
def Error.Mendable (error : Error) : Prop :=
  error.kind = .undeclared ∨ error.kind = .unknownType

/-- `after` repeats the answer `before`, unless that was an error that may be mended. -/
def Persists {α : Type} (before after : Except Error α) : Prop :=
  after = before ∨ ∃ error, before = .error error ∧ error.Mendable

namespace Persists

variable {α β : Type} {before after : Except Error α}

theorem refl (answer : Except Error α) : Persists answer answer := .inl rfl

theorem undeclared {name : String} {span : Span} :
    Persists (.error ⟨.undeclared name, span⟩) after :=
  .inr ⟨_, rfl, .inl rfl⟩

theorem unknownType {name : String} {span : Span} :
    Persists (.error ⟨.unknownType name, span⟩) after :=
  .inr ⟨_, rfl, .inr rfl⟩

/-- A sequence persists if its parts do; the second part may rely on the answer of the first. -/
theorem bind {first second : α → Except Error β} (same : Persists before after)
    (next : ∀ value, before = .ok value → Persists (first value) (second value)) :
    Persists (before >>= first) (after >>= second) := by
  rcases same with rfl | ⟨error, rfl, mendable⟩
  · cases after with
    | error error => exact .inl rfl
    | ok value => exact next value rfl
  · exact .inr ⟨error, rfl, mendable⟩

/-- A success is repeated. -/
theorem ok (same : Persists before after) {value : α} (succeeded : before = .ok value) :
    after = .ok value := by
  rcases same with rfl | ⟨error, failed, _⟩
  · exact succeeded
  · rw [succeeded] at failed
    cases failed

/-- An error that cannot be mended is repeated. -/
theorem error (same : Persists before after) {error : Error} (failed : before = .error error)
    (lasting : ¬ error.Mendable) : after = .error error := by
  rcases same with rfl | ⟨raised, failed', mendable⟩
  · exact failed
  · rw [failed] at failed'
    cases failed'
    exact absurd mendable lasting

end Persists

namespace Declarations.Extends

variable {decls later : Declarations}

theorem persists_readValue (grows : decls.Extends later) (target : Ident) :
    Persists (verdict (decls.readValue target)) (verdict (later.readValue target)) := by
  rw [verdict_readValue, verdict_readValue]
  cases found : decls.symbols.lookup? target.name with
  | none => exact .undeclared
  | some symbol =>
    rw [grows.symbols target.name symbol found]
    exact .refl _

theorem persists_readObject (grows : decls.Extends later) (target : Ident) :
    Persists (verdict (decls.readObject target)) (verdict (later.readObject target)) := by
  rw [verdict_readObject, verdict_readObject]
  exact (grows.persists_readValue target).bind fun _ _ => .refl _

theorem persists_inferField (grows : decls.Extends later) (built : decls.Built)
    (object field : Ident) :
    Persists (verdict (decls.inferField object field))
      (verdict (later.inferField object field)) := by
  rw [verdict_inferField, verdict_inferField]
  refine (grows.persists_readObject object).bind fun className read => ?_
  have known := built.knowsClass_of_holds (verdict_readObject_eq_ok_iff.mp read)
  rw [grows.field?_eq built known]
  exact .refl _

theorem persists_callee (grows : decls.Extends later) (built : decls.Built)
    (receiver : Option Ident) (method : Ident) :
    Persists (verdict (decls.callee receiver method)) (verdict (later.callee receiver method)) := by
  cases receiver with
  | none =>
    rw [verdict_callee_bare, verdict_callee_bare]
    cases found : decls.freeMethod? method.name with
    | none => exact .undeclared
    | some entry =>
      obtain ⟨present, free⟩ := freeMethod?_eq_some_iff.mp found
      rw [freeMethod?_eq_some_iff.mpr ⟨grows.methods method.name entry present, free⟩]
      exact .refl _
  | some object =>
    rw [verdict_callee_on, verdict_callee_on]
    refine (grows.persists_readObject object).bind fun className read => ?_
    have known := built.knowsClass_of_holds (verdict_readObject_eq_ok_iff.mp read)
    rw [grows.method?_eq built known]
    exact .refl _

theorem persists_inferOperands {precedence : Precedence} {span : Span}
    {rest : List (Sign × Expr)}
    (operands : ∀ operand ∈ rest, Persists (decls.typeOf operand.2) (later.typeOf operand.2))
    (left : Ty) :
    Persists (verdict (decls.inferOperands precedence span left rest))
      (verdict (later.inferOperands precedence span left rest)) := by
  induction rest generalizing left with
  | nil => exact .refl _
  | cons operand rest ih =>
    obtain ⟨sign, operand⟩ := operand
    obtain ⟨here, further⟩ := List.forall_mem_cons.mp operands
    rw [verdict_inferOperands_cons, verdict_inferOperands_cons]
    exact here.bind fun right _ => (Persists.refl _).bind fun both _ => ih further both

theorem persists_inferArgs (grows : decls.Extends later) (built : decls.Built) {method : String}
    {params : List (String × Ty)} {args : List Expr}
    (given : ∀ arg ∈ args, Persists (decls.typeOf arg) (later.typeOf arg))
    (arity : args.length = params.length) :
    Persists (verdict (decls.inferArgs method params args))
      (verdict (later.inferArgs method params args)) := by
  induction args generalizing params with
  | nil =>
    obtain rfl : params = [] := List.length_eq_zero_iff.mp arity.symm
    exact .refl _
  | cons arg args ih =>
    obtain _ | ⟨⟨param, declared⟩, params⟩ := params
    · cases arity
    · obtain ⟨here, further⟩ := List.forall_mem_cons.mp given
      have rest := Nat.succ.inj arity
      rw [verdict_inferArgs_cons rest, verdict_inferArgs_cons rest]
      refine here.bind fun found typed => ?_
      rw [grows.accepts_eq built (built.knowsType_of_typeOf typed)]
      exact (Persists.refl _).bind fun _ _ => ih further rest

/-- The type of an expression persists, and so does every error that is not about something
undeclared. -/
theorem persists_typeOf (grows : decls.Extends later) (built : decls.Built) (expr : Expr) :
    Persists (decls.typeOf expr) (later.typeOf expr) := by
  induction expr with
  | literal value span => exact .refl _
  | var name span => exact grows.persists_readValue ⟨name, span⟩
  | paren inner span ih => exact ih
  | chain precedence first rest span ih ihs =>
    rw [typeOf_chain, typeOf_chain]
    exact ih.bind fun left _ => persists_inferOperands ihs left
  | field object field span => exact grows.persists_inferField built object field
  | call receiver method args span ihs =>
    rw [typeOf_call, typeOf_call]
    refine (grows.persists_callee built receiver method).bind fun entry _ => ?_
    refine (Persists.refl _).bind fun _ counted => ?_
    have arity := require_eq_ok_iff.mp counted
    exact (grows.persists_inferArgs built ihs arity).bind fun _ _ => .refl _
  | new ofClass span =>
    rw [typeOf, typeOf, infer, infer, verdict_inferNew, verdict_inferNew]
    cases known : decls.knowsClass ofClass.name with
    | false => exact .unknownType
    | true =>
      rw [grows.knowsClass known]
      exact .refl _
  | unsupported source span => exact .refl _

end Declarations.Extends

/-! ## Contexts that continue others -/

namespace Context

/-- A context that further checks and inferences lead to, whatever they answer. -/
inductive Continues (context : Context) : Context → Prop
  | refl : Continues context context
  | check {left : Context} (continues : Continues context left) (warnUnused : Bool)
      (program : Program) : Continues context (left.check warnUnused program).context
  | infer {left : Context} (continues : Continues context left) (expr : Expr) :
      Continues context (left.infer expr).2

variable {context left : Context}

theorem Continues.reachable (continues : context.Continues left) (reachable : context.Reachable) :
    left.Reachable := by
  induction continues with
  | refl => exact reachable
  | check _ warnUnused program ih => exact .check ih warnUnused program
  | infer _ expr ih => exact .infer ih expr

theorem Continues.extends_start (continues : context.Continues left)
    (reachable : context.Reachable) :
    context.toDeclarations.Extends left.toDeclarations := by
  induction continues with
  | refl => exact .refl _
  | check earlier warnUnused program ih =>
    exact ih.trans (extends_check (earlier.reachable reachable).built warnUnused program)
  | infer _ expr ih =>
    rw [infer_eq]
    exact ih

/-- Whatever is checked or typed later, an expression that has a type keeps it, and one that is
refused is refused for the same reason at the same place, unless something was not declared. -/
theorem Reachable.infer_stable (reachable : context.Reachable) (continues : context.Continues left)
    (expr : Expr) :
    (∀ type, (context.infer expr).1 = .ok type → (left.infer expr).1 = .ok type) ∧
      ∀ error, (context.infer expr).1 = .error error →
        error.kind ≠ .undeclared → error.kind ≠ .unknownType →
          (left.infer expr).1 = .error error := by
  have same := (continues.extends_start reachable).persists_typeOf reachable.built expr
  rw [infer_eq, infer_eq]
  refine ⟨fun type typed => same.ok typed, fun error failed declared known => ?_⟩
  refine same.error failed ?_
  rintro (undeclared | unknown)
  · exact declared undeclared
  · exact known unknown

/-- A field that an object has and one that it has not, asked before and after a subclass with that
field is declared in a program that is rejected. -/
theorem infer_stable_misnamed :
    let before := ((∅ : Context).check true animals).context
    let after := (before.check true misnamed).context
    let legs : Expr := .field ⟨"$pet", .zero⟩ ⟨"$legs", .zero⟩ .zero
    let tail : Expr := .field ⟨"$pet", .zero⟩ ⟨"$tail", .zero⟩ .zero
    before.Reachable ∧ before.Continues after ∧
      (before.infer legs).1 = .ok .chunk ∧ (after.infer legs).1 = .ok .chunk ∧
      (before.infer tail).1 = .error ⟨.unknownMember "Animal" "$tail", .zero⟩ ∧
      (after.infer tail).1 = .error ⟨.unknownMember "Animal" "$tail", .zero⟩ := by
  intro before after legs tail
  have reachable : before.Reachable := .check .empty true animals
  have continues : before.Continues after := .check .refl true misnamed
  have typed : (before.infer legs).1 = .ok .chunk := by decide +kernel
  have refused : (before.infer tail).1 = .error ⟨.unknownMember "Animal" "$tail", .zero⟩ := by
    decide +kernel
  exact ⟨reachable, continues, typed,
    (Reachable.infer_stable reachable continues legs).1 _ typed, refused,
    (Reachable.infer_stable reachable continues tail).2 _ refused (by decide) (by decide)⟩

end Context

end Sigil
