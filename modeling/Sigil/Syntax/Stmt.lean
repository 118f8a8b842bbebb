import Sigil.Syntax.Expr

/-! # Statements and declarations

A program is a list of statements. Methods and classes are statements too, so a method body may
declare further methods and classes.
-/

namespace Sigil

/-- A name with its type, as parameters, fields and variables are written. -/
structure Signature where
  name : Ident
  type : TypeRef
  deriving DecidableEq

/-- A signature spans its name and its type. -/
def Signature.span (signature : Signature) : Span := signature.name.span.join signature.type.span

/-- A variable declaration, `$x: chunk = 5;`. -/
structure VarDecl where
  signature : Signature
  init : Option Expr
  span : Span

/-- The return that may close a method body. -/
structure Return where
  value : Expr
  span : Span

mutual

/-- A statement. -/
inductive Stmt where
  | var (decl : VarDecl)
  | assign (target : Ident) (value : Expr) (span : Span)
  /-- Prints the value of an expression, `show value;`. -/
  | output (value : Expr) (span : Span)
  | method (decl : MethodDecl)
  | classDecl (decl : ClassDecl)
  /-- An expression evaluated for its calls. -/
  | eval (value : Expr)

/-- A method with its parameters, its statements and the value it returns. -/
structure MethodDecl where
  name : Ident
  params : List Signature
  returnType : TypeRef
  body : List Stmt
  result : Option Return
  span : Span

/-- A class with the class it inherits from, its fields and its methods. -/
structure ClassDecl where
  name : Ident
  parent : Option Ident
  fields : List Signature
  methods : List MethodDecl
  span : Span

end

/-- Where a statement stands; an evaluated expression stands where the expression does. -/
def Stmt.span : Stmt → Span
  | var decl => decl.span
  | assign _ _ s => s
  | output _ s => s
  | method decl => decl.span
  | classDecl decl => decl.span
  | eval value => value.span

/-- The statements of one source file. -/
abbrev Program := List Stmt

end Sigil
