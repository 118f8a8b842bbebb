import Sigil.Syntax.Stmt

/-! # Equality of trees

Two trees are equal when they have the same shape, names, spans and literals. Fractions compare as
floating-point numbers do: zero equals negative zero, and a number that is not a number differs from
itself. This is why the comparison is a Boolean of its own and not equality of terms.
-/

namespace Sigil

/-- Equality of literals, fractions as floating-point numbers. -/
def Literal.same : Literal → Literal → Bool
  | .chunk a, .chunk b => a == b
  | .fraction a, .fraction b => a == b
  | .text a, .text b => a == b
  | .other a, .other b => a == b
  | _, _ => false

instance : BEq Literal := ⟨Literal.same⟩

mutual

/-- Equality of expressions. -/
def Expr.same : Expr → Expr → Bool
  | .literal a s, .literal b t => a == b && s == t
  | .var a s, .var b t => a == b && s == t
  | .paren a s, .paren b t => Expr.same a b && s == t
  | .chain p a as s, .chain q b bs t =>
      p == q && Expr.same a b && Expr.sameOperands as bs && s == t
  | .field o f s, .field o' f' t => o == o' && f == f' && s == t
  | .call r m as s, .call r' m' bs t => r == r' && m == m' && Expr.sameList as bs && s == t
  | .new c s, .new c' t => c == c' && s == t
  | .unsupported a s, .unsupported b t => a == b && s == t
  | _, _ => false

/-- Equality of signed operands, in order. -/
def Expr.sameOperands : List (Sign × Expr) → List (Sign × Expr) → Bool
  | [], [] => true
  | (s, a) :: as, (t, b) :: bs => s == t && Expr.same a b && Expr.sameOperands as bs
  | _, _ => false

/-- Equality of arguments, in order. -/
def Expr.sameList : List Expr → List Expr → Bool
  | [], [] => true
  | a :: as, b :: bs => Expr.same a b && Expr.sameList as bs
  | _, _ => false

end

instance : BEq Expr := ⟨Expr.same⟩

/-- Equality of variable declarations. -/
def VarDecl.same (a b : VarDecl) : Bool :=
  a.signature == b.signature && a.init == b.init && a.span == b.span

instance : BEq VarDecl := ⟨VarDecl.same⟩

/-- Equality of returns. -/
def Return.same (a b : Return) : Bool := a.value == b.value && a.span == b.span

instance : BEq Return := ⟨Return.same⟩

mutual

/-- Equality of statements. -/
def Stmt.same : Stmt → Stmt → Bool
  | .var a, .var b => a == b
  | .assign x a s, .assign y b t => x == y && a == b && s == t
  | .output a s, .output b t => a == b && s == t
  | .method a, .method b => MethodDecl.same a b
  | .classDecl a, .classDecl b => ClassDecl.same a b
  | .eval a, .eval b => a == b
  | _, _ => false

/-- Equality of methods. -/
def MethodDecl.same : MethodDecl → MethodDecl → Bool
  | ⟨name, params, type, body, result, s⟩, ⟨name', params', type', body', result', t⟩ =>
      name == name' && params == params' && type == type' && Stmt.sameList body body' &&
        result == result' && s == t

/-- Equality of classes. -/
def ClassDecl.same : ClassDecl → ClassDecl → Bool
  | ⟨name, parent, fields, methods, s⟩, ⟨name', parent', fields', methods', t⟩ =>
      name == name' && parent == parent' && fields == fields' &&
        MethodDecl.sameList methods methods' && s == t

/-- Equality of statement lists, in order. -/
def Stmt.sameList : List Stmt → List Stmt → Bool
  | [], [] => true
  | a :: as, b :: bs => Stmt.same a b && Stmt.sameList as bs
  | _, _ => false

/-- Equality of method lists, in order. -/
def MethodDecl.sameList : List MethodDecl → List MethodDecl → Bool
  | [], [] => true
  | a :: as, b :: bs => MethodDecl.same a b && MethodDecl.sameList as bs
  | _, _ => false

end

instance : BEq Stmt := ⟨Stmt.same⟩

end Sigil
