import Std.Data.ExtTreeSet
import Sigil.Declarations

/-! # Types of expressions

Inference reads the declarations and writes one thing only: the set of names it has read. Both are
in its type, so an expression can neither declare anything nor depend on what was read before it.
Names read before a fault stay in the set.
-/

namespace Sigil

/-- A finite set of names; two sets with the same members are equal. -/
abbrev NameSet := Std.ExtTreeSet String

/-- A computation that may fail and that adds to the names read so far. -/
abbrev Infer := EStateM Error NameSet

/-- The type of a literal. -/
def Literal.type (value : Literal) (span : Span) : Except Error Ty :=
  match value with
  | .chunk _ => .ok .chunk
  | .fraction _ => .ok .fraction
  | .text _ => .ok .string
  | .other source => .error ⟨.unsupported (.literal source), span⟩

/-- The type of two operands of one chain. -/
def Ty.combine (precedence : Precedence) (left right : Ty) (span : Span) : Except Error Ty :=
  let operands := promote left right
  if operands.1 = operands.2 then .ok operands.1
  else .error ⟨.mismatch (.operands precedence operands.1 operands.2), span⟩

namespace Declarations

/-- Marks a name as read. -/
def markRead (name : String) : Infer Unit := modify fun read => read.insert name

@[simp] theorem markRead_run (name : String) (read : NameSet) :
    markRead name read = .ok () (read.insert name) := rfl

/-- Reads a name that holds a value and gives its type. -/
def readValue (decls : Declarations) (target : Ident) : Infer Ty :=
  match decls.symbols.lookup? target.name with
  | none => throw ⟨.undeclared target.name, target.span⟩
  | some symbol => do
      require symbol.role.isValue
        ⟨.misuse (.notAValue symbol.role.category target.name), target.span⟩
      markRead target.name
      return symbol.type

/-- Reads a name that holds an object and gives its class. -/
def readObject (decls : Declarations) (target : Ident) : Infer String := do
  match ← decls.readValue target with
  | .object className => return className
  | type => throw ⟨.misuse (.noMembers target.name type), target.span⟩

/-- The type of a field of the object that a name holds; both names are read. -/
def inferField (decls : Declarations) (object field : Ident) : Infer Ty := do
  let className ← decls.readObject object
  match decls.field? className field.name with
  | none => throw ⟨.unknownMember className field.name, field.span⟩
  | some type =>
      markRead field.name
      return type

/-- The method that a call reaches. -/
def callee (decls : Declarations) (receiver : Option Ident) (method : Ident) :
    Infer MethodEntry := do
  match receiver with
  | some object =>
      let className ← decls.readObject object
      match decls.method? className method.name with
      | none => throw ⟨.unknownMember className method.name, method.span⟩
      | some entry => return entry
  | none =>
      match decls.freeMethod? method.name with
      | none => throw ⟨.undeclared method.name, method.span⟩
      | some entry => return entry

/-- The type of a new object; its class must be known. -/
def inferNew (decls : Declarations) (ofClass : Ident) : Infer Ty := do
  require (decls.knowsClass ofClass.name) ⟨.unknownType ofClass.name, ofClass.span⟩
  return .object ofClass.name

mutual

/-- The type of an expression. -/
def infer (decls : Declarations) : Expr → Infer Ty
  | .literal value span => MonadExcept.ofExcept (value.type span)
  | .var name span => decls.readValue ⟨name, span⟩
  | .paren inner _ => infer decls inner
  | .chain precedence first rest span => do
      let left ← infer decls first
      inferOperands decls precedence span left rest
  | .field object field _ => decls.inferField object field
  | .call receiver method args span => do
      let entry ← decls.callee receiver method
      require (args.length = entry.params.length)
        ⟨.argumentCount entry.name entry.params.length args.length, span⟩
      inferArgs decls entry.name entry.params args
      return entry.returnType
  | .new ofClass _ => decls.inferNew ofClass
  | .unsupported source span => throw ⟨.unsupported (.term source), span⟩

/-- The type of a chain whose operands so far have type `left`. -/
def inferOperands (decls : Declarations) (precedence : Precedence) (span : Span) (left : Ty) :
    List (Sign × Expr) → Infer Ty
  | [] => return left
  | (_, operand) :: rest => do
      let right ← infer decls operand
      let both ← MonadExcept.ofExcept (left.combine precedence right span)
      inferOperands decls precedence span both rest

/-- Checks arguments against the parameters that take them, from left to right. -/
def inferArgs (decls : Declarations) (method : String) :
    List (String × Ty) → List Expr → Infer Unit
  | _, [] => return ()
  | [], _ :: _ => return ()
  | (param, declared) :: params, arg :: args => do
      let found ← infer decls arg
      require (decls.hierarchy.accepts declared found)
        ⟨.mismatch (.passed found declared param method), arg.span⟩
      inferArgs decls method params args

end

end Declarations

end Sigil
