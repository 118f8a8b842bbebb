import Mathlib.Data.List.Forall2
import Mathlib.Logic.Relation
import Sigil.Report
import Sigil.Syntax.Stmt
import Sigil.Name

/-! # Typing rules

The rules of the language over one flat list of declarations. Everything is asked by membership in
that list: there is no index, no table of classes or methods, no hierarchy and no set of names read.
A judgement on statements leads from the declarations before them to those after them, and lists
what they show.
-/

namespace Sigil

open Relation (ReflTransGen TransGen)

/-- A declaration as the rules see it. -/
inductive Decl where
  /-- A variable, a parameter or, if it belongs to a class, a field. -/
  | value (name : String) (type : Ty) (ofClass : Option String)
  | method (name : String) (params : List (String × Ty)) (returns : Ty) (owner : Option String)
  | classDecl (name : String) (parent : Option String)
  deriving DecidableEq

/-- The declared name. -/
def Decl.name : Decl → String
  | .value name _ _ | .method name _ _ _ | .classDecl name _ => name

/-- The declarations so far, in order. -/
abbrev Env := List Decl

namespace Env

/-- A class is declared. -/
def HasClass (env : Env) (className : String) : Prop :=
  ∃ parent, .classDecl className parent ∈ env

/-- A class is declared with a parent. -/
def Inherits (env : Env) (child parent : String) : Prop := .classDecl child (some parent) ∈ env

/-- A value of type `found` may stand where `declared` is asked for: the types are equal, or the
class of the value inherits from the declared one, in one or more steps. -/
def Fits (env : Env) (declared found : Ty) : Prop :=
  declared = found ∨
    ∃ target start, declared = .object target ∧ found = .object start ∧
      TransGen env.Inherits start target

/-- A name is not declared yet. -/
def Fresh (env : Env) (name : String) : Prop := ∀ decl ∈ env, decl.name ≠ name

/-- A type is built in, or of a declared class. -/
def Known (env : Env) (type : Ty) : Prop :=
  ∀ className, type = .object className → env.HasClass className

end Env

/-- The type of a chain of operands: the one that all have, or a fraction if they are numbers and
one of them is a fraction. -/
def Ty.Joins (types : List Ty) (type : Ty) : Prop :=
  (∀ operand ∈ types, operand = type) ∨
    type = .fraction ∧ (∀ operand ∈ types, operand = .chunk ∨ operand = .fraction) ∧
      .fraction ∈ types

/-- An expression has a type. -/
inductive HasType (env : Env) : Expr → Ty → Prop
  | chunk (value : Int) (span : Span) : HasType env (.literal (.chunk value) span) .chunk
  | fraction (value : Float) (span : Span) : HasType env (.literal (.fraction value) span) .fraction
  | text (value : String) (span : Span) : HasType env (.literal (.text value) span) .string
  | var {name : String} {type : Ty} {ofClass : Option String} (span : Span)
      (declared : .value name type ofClass ∈ env) : HasType env (.var name span) type
  | paren {inner : Expr} {type : Ty} (span : Span) (typed : HasType env inner type) :
      HasType env (.paren inner span) type
  | chain {first : Expr} {rest : List (Sign × Expr)} {types : List Ty} {type : Ty}
      (precedence : Precedence) (span : Span)
      (typed : List.Forall₂ (HasType env) (first :: rest.map Prod.snd) types)
      (joins : Ty.Joins types type) : HasType env (.chain precedence first rest span) type
  | field {object field : Ident} {className owner : String} {ofClass : Option String} {type : Ty}
      (span : Span) (holds : .value object.name (.object className) ofClass ∈ env)
      (inherits : ReflTransGen env.Inherits className owner)
      (declared : .value field.name type (some owner) ∈ env) :
      HasType env (.field object field span) type
  | call {method : Ident} {args : List Expr} {params : List (String × Ty)} {found : List Ty}
      {returns : Ty} (span : Span) (declared : .method method.name params returns none ∈ env)
      (typed : List.Forall₂ (HasType env) args found)
      (fits : List.Forall₂ (fun param type => env.Fits param.2 type) params found) :
      HasType env (.call none method args span) returns
  | callOn {object method : Ident} {className owner : String} {ofClass : Option String}
      {args : List Expr} {params : List (String × Ty)} {found : List Ty} {returns : Ty}
      (span : Span) (holds : .value object.name (.object className) ofClass ∈ env)
      (inherits : ReflTransGen env.Inherits className owner)
      (declared : .method method.name params returns (some owner) ∈ env)
      (typed : List.Forall₂ (HasType env) args found)
      (fits : List.Forall₂ (fun param type => env.Fits param.2 type) params found) :
      HasType env (.call (some object) method args span) returns
  | new {ofClass : Ident} (span : Span) (declared : env.HasClass ofClass.name) :
      HasType env (.new ofClass span) (.object ofClass.name)

/-! ## Declarations and statements -/

/-- What a signature declares, as a field of a class or not. -/
def Signature.decl (ofClass : Option String) (signature : Signature) : Decl :=
  .value signature.name.name (Ty.ofName signature.type.name) ofClass

/-- A signature may be declared: its name is the sigil and an identifier, it is fresh, and its type
is a known one that has values. -/
structure Signature.Admitted (env : Env) (signature : Signature) : Prop where
  named : ∃ text, signature.name.name.toList = sigil :: text ∧ isIdentifierText text = true
  fresh : env.Fresh signature.name.name
  value : Ty.ofName signature.type.name ≠ .none
  known : env.Known (Ty.ofName signature.type.name)

/-- Parameters or fields are declared one after the other. -/
inductive Signature.Declared (ofClass : Option String) : Env → List Signature → Env → Prop
  | nil (env : Env) : Declared ofClass env [] env
  | cons {env left : Env} {signature : Signature} {rest : List Signature}
      (admitted : signature.Admitted env)
      (declared : Declared ofClass (env ++ [signature.decl ofClass]) rest left) :
      Declared ofClass env (signature :: rest) left

/-- What a method declares. -/
def MethodDecl.decl (owner : Option String) (method : MethodDecl) : Decl :=
  .method method.name.name
    (method.params.map fun param => (param.name.name, Ty.ofName param.type.name))
    (Ty.ofName method.returnType.name) owner

/-- What a class declares. -/
def ClassDecl.decl (decl : ClassDecl) : Decl :=
  .classDecl decl.name.name (decl.parent.map Ident.name)

mutual

/-- A statement is well typed after the declarations `env`; it leaves those of `left` and shows the
given outputs. -/
inductive Stmt.Typed : Env → Stmt → Env → List Output → Prop
  | var {env : Env} {signature : Signature} (span : Span) (admitted : signature.Admitted env) :
      Stmt.Typed env (.var ⟨signature, none, span⟩) (env ++ [signature.decl none]) []
  /-- The initial value is of exactly the declared type, and may mention the variable. -/
  | init {env : Env} {signature : Signature} {value : Expr} (span : Span)
      (admitted : signature.Admitted env)
      (typed : HasType (env ++ [signature.decl none]) value (Ty.ofName signature.type.name)) :
      Stmt.Typed env (.var ⟨signature, some value, span⟩) (env ++ [signature.decl none]) []
  | assign {env : Env} {target : Ident} {value : Expr} {declared found : Ty}
      {ofClass : Option String} (span : Span) (holds : .value target.name declared ofClass ∈ env)
      (typed : HasType env value found) (fits : env.Fits declared found) :
      Stmt.Typed env (.assign target value span) env []
  | output {env : Env} {value : Expr} {type : Ty} (span : Span) (typed : HasType env value type)
      (shown : type ≠ .none) : Stmt.Typed env (.output value span) env [⟨type, span⟩]
  | eval {env : Env} {value : Expr} {type : Ty} (typed : HasType env value type) :
      Stmt.Typed env (.eval value) env []
  | method {env left : Env} {decl : MethodDecl} {shown : List Output}
      (typed : MethodDecl.Typed none env decl left shown) :
      Stmt.Typed env (.method decl) left shown
  | classDecl {env left : Env} {decl : ClassDecl} {shown : List Output}
      (typed : ClassDecl.Typed env decl left shown) : Stmt.Typed env (.classDecl decl) left shown

/-- A method is well typed. Its body follows its own declaration, and what it returns is of exactly
the return type. -/
inductive MethodDecl.Typed : Option String → Env → MethodDecl → Env → List Output → Prop
  | intro {owner : Option String} {env middle left : Env} {method : MethodDecl}
      {shown : List Output} (named : isIdentifier method.name.name = true)
      (params : Signature.Declared none env method.params middle)
      (fresh : Env.Fresh middle method.name.name)
      (known : Env.Known middle (Ty.ofName method.returnType.name))
      (body : Stmt.TypedList (middle ++ [method.decl owner]) method.body left shown)
      (result : ∀ returned, method.result = some returned →
        HasType left returned.value (Ty.ofName method.returnType.name)) :
      MethodDecl.Typed owner env method left shown

/-- A class is well typed. Its parent was declared before it. -/
inductive ClassDecl.Typed : Env → ClassDecl → Env → List Output → Prop
  | intro {env middle left : Env} {decl : ClassDecl} {shown : List Output}
      (named : isIdentifier decl.name.name = true) (notBuiltin : decl.name.name ∉ builtinTypeNames)
      (fresh : Env.Fresh env decl.name.name)
      (parent : ∀ parent, decl.parent = some parent → Env.HasClass env parent.name)
      (fields : Signature.Declared (some decl.name.name) (env ++ [decl.decl]) decl.fields middle)
      (methods : MethodDecl.TypedList decl.name.name middle decl.methods left shown) :
      ClassDecl.Typed env decl left shown

/-- Statements are well typed, one after the other. -/
inductive Stmt.TypedList : Env → List Stmt → Env → List Output → Prop
  | nil (env : Env) : Stmt.TypedList env [] env []
  | cons {env middle left : Env} {stmt : Stmt} {rest : List Stmt} {shown more : List Output}
      (typed : Stmt.Typed env stmt middle shown)
      (later : Stmt.TypedList middle rest left more) :
      Stmt.TypedList env (stmt :: rest) left (shown ++ more)

/-- The methods of a class are well typed, one after the other. -/
inductive MethodDecl.TypedList : String → Env → List MethodDecl → Env → List Output → Prop
  | nil (owner : String) (env : Env) : MethodDecl.TypedList owner env [] env []
  | cons {owner : String} {env middle left : Env} {method : MethodDecl} {rest : List MethodDecl}
      {shown more : List Output} (typed : MethodDecl.Typed (some owner) env method middle shown)
      (later : MethodDecl.TypedList owner middle rest left more) :
      MethodDecl.TypedList owner env (method :: rest) left (shown ++ more)

end

/-- A program is well typed after the declarations `env`. -/
def Program.Typed (env : Env) (program : Program) (left : Env) (shown : List Output) : Prop :=
  Stmt.TypedList env program left shown

end Sigil
