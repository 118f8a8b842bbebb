import Sigil.Proofs.Stability

/-! # Weakening for whole programs

Nodes that pass after some declarations also pass after declarations that extend these, and show the
same, as long as they declare no name that the larger ones have. If they do declare such a name, the
first of them is refused as declared again, because everything before it passes. Both follow from
what one node does, by induction over the nodes.
-/

namespace Sigil

open Relation (ReflTransGen)

namespace Declarations.Extends

variable {decls later : Declarations}

/-- What a node declares is declared on top of both. -/
theorem declare (grows : decls.Extends later) (indexed : decls.symbols.Indexed)
    (laterIndexed : later.symbols.Indexed) (node : Node) :
    (node.declare decls).Extends (node.declare later) where
  symbols name found := by
    rw [Node.symbols_declare, Node.symbols_declare]
    cases node.symbol? with
    | none => exact grows.symbols name found
    | some symbol =>
      simp only [indexed.lookup?_push, laterIndexed.lookup?_push]
      split
      · exact id
      · exact grows.symbols name found
  classes key found := by
    cases node with
    | value role signature span =>
      simp only [Node.declare, class?_addValue]
      split
      · simp only [Option.map_eq_some_iff]
        exact Exists.imp fun entry => And.imp_left (grows.classes key entry)
      · exact grows.classes key found
    | method owner name params returns span =>
      simp only [Node.declare, class?_addMethod]
      split
      · simp only [Option.map_eq_some_iff]
        exact Exists.imp fun entry => And.imp_left (grows.classes key entry)
      · exact grows.classes key found
    | classDecl name parent span =>
      simp only [Node.declare, class?_addClass]
      split
      · exact id
      · exact grows.classes key found
    | _ => exact grows.classes key found
  methods key found := by
    cases node with
    | method owner name params returns span =>
      simp only [Node.declare, method?_addMethod]
      split
      · exact id
      · exact grows.methods key found
    | _ => exact grows.methods key found
  parents key found := by
    cases node with
    | classDecl name parent span =>
      simp only [Node.declare, parents_addClass]
      split
      · exact id
      · exact grows.parents key found
    | _ => exact grows.parents key found

theorem valueType_eq_ok {written : TypeRef} {type : Ty} (grows : decls.Extends later)
    (known : decls.valueType written = .ok type) : later.valueType written = .ok type := by
  rw [valueType_eq_ok_iff] at known ⊢
  exact ⟨known.1, known.2.1, grows.knowsType known.2.2⟩

theorem returnType_eq_ok {written : TypeRef} {type : Ty} (grows : decls.Extends later)
    (known : decls.returnType written = .ok type) : later.returnType written = .ok type := by
  rw [returnType_eq_ok_iff] at known ⊢
  exact ⟨known.1, grows.knowsType known.2⟩

end Declarations.Extends

/-! ## One node -/

namespace Node

variable {decls later : Declarations} {node : Node}

/-- A node that passes also passes after more declarations, if its name is not among them. -/
theorem verdict_of_extends (grows : decls.Extends later) (built : decls.Built)
    (passed : node.verdict decls = .ok ())
    (fresh : ∀ symbol, node.symbol? = some symbol →
      later.symbols.contains symbol.name = false) :
    node.verdict later = .ok () := by
  have typeOf {expr : Expr} {type : Ty} (typed : decls.typeOf expr = .ok type) :
      later.typeOf expr = .ok type := (grows.persists_typeOf built expr).ok typed
  cases node with
  | value role signature span =>
    obtain ⟨named, _, known⟩ := verdict_value_eq_ok passed
    simp only [verdict, except_bind_eq_ok_iff, refuse_eq_ok_iff, refuseDeclared_eq_ok_iff]
    exact ⟨(), named, (), fresh _ rfl, _, grows.valueType_eq_ok known, rfl⟩
  | init signature expr span =>
    obtain ⟨found, typed, same⟩ := except_bind_eq_ok_iff.mp passed
    exact except_bind_eq_ok_iff.mpr ⟨found, typeOf typed, same⟩
  | methodName name => exact passed
  | method owner name params returns span =>
    obtain ⟨_, known⟩ := verdict_method_eq_ok passed
    simp only [verdict, except_bind_eq_ok_iff, refuseDeclared_eq_ok_iff]
    exact ⟨(), fresh _ rfl, _, grows.returnType_eq_ok known, rfl⟩
  | result name returns returned =>
    obtain ⟨found, typed, same⟩ := except_bind_eq_ok_iff.mp passed
    exact except_bind_eq_ok_iff.mpr ⟨found, typeOf typed, same⟩
  | classDecl name parent span =>
    simp only [verdict, except_bind_eq_ok_iff, refuseDeclared_eq_ok_iff] at passed ⊢
    obtain ⟨_, named, _, _, known⟩ := passed
    refine ⟨(), named, (), fresh _ rfl, ?_⟩
    cases parent with
    | none => rfl
    | some parent =>
      exact require_eq_ok_iff.mpr (grows.knowsClass (require_eq_ok_iff.mp known))
  | assign target expr span =>
    simp only [verdict, except_bind_eq_ok_iff, require_eq_ok_iff] at passed ⊢
    obtain ⟨declared, held, found, typed, fits⟩ := passed
    refine ⟨declared, typeOf held, found, typeOf typed, ?_⟩
    rw [grows.accepts_eq built (built.knowsType_of_typeOf typed)]
    exact fits
  | output expr span =>
    obtain ⟨found, typed, shown⟩ := except_bind_eq_ok_iff.mp passed
    exact except_bind_eq_ok_iff.mpr ⟨found, typeOf typed, shown⟩
  | eval expr =>
    obtain ⟨found, typed, _⟩ := except_bind_eq_ok_iff.mp passed
    exact except_bind_eq_ok_iff.mpr ⟨found, typeOf typed, rfl⟩

/-- A node that passes shows the same after more declarations. -/
theorem outputs_of_extends (grows : decls.Extends later) (built : decls.Built)
    (passed : node.verdict decls = .ok ()) : node.outputs later = node.outputs decls := by
  cases node with
  | output expr span =>
    obtain ⟨found, typed, _⟩ := except_bind_eq_ok_iff.mp passed
    rw [outputs, outputs, typed, (grows.persists_typeOf built expr).ok typed]
  | _ => rfl

/-- A node that passes is refused as declared again where its name is taken: no other check of it
comes before that one and depends on the declarations. -/
theorem redeclared_of_contains {symbol : Symbol} (passed : node.verdict decls = .ok ())
    (declares : node.symbol? = some symbol)
    (taken : later.symbols.contains symbol.name = true) :
    ∃ error, node.verdict later = .error error ∧ error.kind = .redeclared := by
  have refused (category : Category) (span : Span) :
      refuseDeclared later category symbol.name span =
        .error ⟨.redeclared (.symbol category) symbol.name, span⟩ :=
    refuseDeclared_eq_error_iff.mpr ⟨taken, rfl⟩
  cases node with
  | value role signature span =>
    cases declares
    obtain ⟨named, _, _⟩ := verdict_value_eq_ok passed
    refine ⟨⟨.redeclared (.symbol role.category) signature.name.name, span⟩, ?_, rfl⟩
    refine except_bind_eq_error_iff.mpr (.inr ⟨(), refuse_eq_ok_iff.mpr named, ?_⟩)
    exact except_bind_eq_error_iff.mpr (.inl (refused role.category span))
  | method owner name params returns span =>
    cases declares
    exact ⟨_, except_bind_eq_error_iff.mpr (.inl (refused .method span)), rfl⟩
  | classDecl name parent span =>
    cases declares
    obtain ⟨identifier, notBuiltin, _⟩ := verdict_classDecl_eq_ok passed
    have named := (classNameFault?_eq_none_iff _).mpr ⟨identifier, notBuiltin⟩
    refine ⟨⟨.redeclared (.symbol .classType) name.name, span⟩, ?_, rfl⟩
    refine except_bind_eq_error_iff.mpr (.inr ⟨(), refuse_eq_ok_iff.mpr named, ?_⟩)
    exact except_bind_eq_error_iff.mpr (.inl (refused .classType span))
  | _ => cases declares

end Node

/-! ## All nodes -/

namespace Check.Passes

variable {base context left : Context} {before nodes : List Node} {later : Declarations}

/-- Nodes that pass also pass after more declarations, and show the same, if they declare none of
the names that are among these. -/
theorem weaken (passes : Passes context nodes left) (prior : Passes base before context)
    (ordered : Node.Ordered before nodes) (built : context.toDeclarations.Built)
    (grows : context.toDeclarations.Extends later) (indexed : later.symbols.Indexed)
    (fresh : ∀ node ∈ nodes, ∀ symbol, node.symbol? = some symbol →
      later.symbols.contains symbol.name = false) :
    Node.verdictOf later nodes = .ok () ∧
      Node.outputsOf later nodes = Node.outputsOf context.toDeclarations nodes ∧
      left.toDeclarations.Extends (Node.declareAll later nodes) := by
  induction passes generalizing before later with
  | nil => exact ⟨rfl, rfl, grows⟩
  | @cons context middle left node rest passed passes ih =>
    obtain ⟨follows, ordered⟩ := ordered
    obtain ⟨freshHere, freshLater⟩ := List.forall_mem_cons.mp fresh
    have verdict := Node.verdict_of_extends grows built passed.verdict freshHere
    have grown : middle.toDeclarations.Extends (node.declare later) := by
      rw [passed.declarations]
      exact grows.declare built.indexed indexed node
    -- The names of later nodes stay fresh: they are not that of this node.
    have stillFresh : ∀ next ∈ rest, ∀ symbol, next.symbol? = some symbol →
        (node.declare later).symbols.contains symbol.name = false := by
      intro next member symbol declares
      have apart := Node.fresh_of_verdictOf passes.verdictOf member declares
      rw [passed.declarations, Node.contains_declare, Bool.or_eq_false_iff] at apart
      rw [Node.contains_declare, apart.1, freshLater next member symbol declares]
      rfl
    obtain ⟨accepted, shown, final⟩ := ih (prior.append (.cons passed (.nil _))) ordered
      (ReflTransGen.trans built (passed.step prior follows)) grown
      (Node.indexed_declare indexed verdict) stillFresh
    refine ⟨Node.verdictOf_cons_eq_ok_iff.mpr ⟨verdict, accepted⟩, ?_, final⟩
    rw [Node.outputsOf, Node.outputsOf, Node.outputs_of_extends grows built passed.verdict, shown,
      passed.declarations]

/-- Nodes that pass are refused as declared again after more declarations, if they declare one of
the names that are among these. -/
theorem redeclared (passes : Passes context nodes left) (prior : Passes base before context)
    (ordered : Node.Ordered before nodes) (built : context.toDeclarations.Built)
    (grows : context.toDeclarations.Extends later) (indexed : later.symbols.Indexed)
    {node : Node} {symbol : Symbol} (member : node ∈ nodes)
    (declares : node.symbol? = some symbol)
    (taken : later.symbols.contains symbol.name = true) :
    ∃ error, Node.verdictOf later nodes = .error error ∧ error.kind = .redeclared := by
  induction passes generalizing before later with
  | nil => cases member
  | @cons context middle left head rest passed passes ih =>
    obtain ⟨follows, ordered⟩ := ordered
    by_cases clash : ∃ own, head.symbol? = some own ∧ later.symbols.contains own.name = true
    · obtain ⟨own, here, again⟩ := clash
      obtain ⟨error, refused, kind⟩ := Node.redeclared_of_contains passed.verdict here again
      exact ⟨error, Node.verdictOf_cons_of_error refused, kind⟩
    · -- The first node passes, so the clash is further on.
      have fresh (own : Symbol) (here : head.symbol? = some own) :
          later.symbols.contains own.name = false :=
        Bool.eq_false_iff.mpr fun again => clash ⟨own, here, again⟩
      have verdict := Node.verdict_of_extends grows built passed.verdict fresh
      have further : node ∈ rest := by
        rcases List.mem_cons.mp member with rfl | further
        · exact absurd ⟨symbol, declares, taken⟩ clash
        · exact further
      have grown : middle.toDeclarations.Extends (head.declare later) := by
        rw [passed.declarations]
        exact grows.declare built.indexed indexed head
      rw [Node.verdictOf_cons_of_ok verdict]
      exact ih (prior.append (.cons passed (.nil _))) ordered
        (ReflTransGen.trans built (passed.step prior follows)) grown
        (Node.indexed_declare indexed verdict) further (Node.contains_declare_of_contains taken)

end Check.Passes

end Sigil
