import Sigil.Name
import Sigil.Symbol

/-! # Errors

A check stops at its first error: a fault and the span it was found at. Faults are causes, not
texts; `Error.message` words all of them in one place. Whoever reports an error of their own may
state a cause in words instead.
-/

namespace Sigil

/-- Why a type does not fit where it stands. -/
inductive Mismatch where
  /-- A value that its variable does not take. -/
  | stored (found declared : Ty) (target : String)
  /-- A returned value that is not of the return type of its method. -/
  | returned (expected found : Ty) (method : String)
  /-- Two operands of one chain that differ, after promotion. -/
  | operands (precedence : Precedence) (left right : Ty)
  /-- An argument that its parameter does not take. -/
  | passed (found declared : Ty) (param method : String)
  /-- A cause in words. -/
  | stated (text : String)
  deriving DecidableEq

/-- Why something cannot be done with what a name or an expression stands for. -/
inductive Misuse where
  /-- An output of no value. -/
  | showNone
  /-- A method or class read as if it held a value. -/
  | notAValue (category : Category) (name : String)
  /-- A member asked of a value that is no object. -/
  | noMembers (name : String) (type : Ty)
  /-- A cause in words. -/
  | stated (text : String)
  deriving DecidableEq

/-- What is declared a second time. -/
inductive Subject where
  /-- A symbol of a category. -/
  | symbol (category : Category)
  /-- A description in words. -/
  | stated (text : String)
  deriving DecidableEq

/-- What part of the grammar has no meaning here, with its source text. -/
inductive Construct where
  | term (source : String)
  | literal (source : String)
  /-- A description in words. -/
  | stated (text : String)
  deriving DecidableEq

/-- The cause of an error. -/
inductive Fault where
  | invalidName (name : String) (fault : NameFault)
  | redeclared (subject : Subject) (name : String)
  | undeclared (name : String)
  | unknownType (name : String)
  | unknownMember (ofClass member : String)
  | mismatch (cause : Mismatch)
  | argumentCount (method : String) (expected found : Nat)
  | misuse (cause : Misuse)
  | unsupported (construct : Construct)
  deriving DecidableEq

/-- The kind of a fault, without its details. -/
inductive Fault.Kind where
  | invalidName
  | redeclared
  | undeclared
  | unknownType
  | unknownMember
  | mismatch
  | argumentCount
  | misuse
  | unsupported
  deriving DecidableEq

/-- An error: what is wrong, and where. -/
structure Error where
  fault : Fault
  span : Span
  deriving DecidableEq

/-- The sentence part that explains a mismatch. -/
def Mismatch.text : Mismatch → String
  | .stored found declared target =>
      "Cannot assign " ++ found.name ++ " to " ++ declared.name ++ " for variable '" ++ target ++
        "'"
  | .returned expected found method =>
      "expected " ++ expected.name ++ " but got " ++ found.name ++ " in return statement of '" ++
        method ++ "'"
  | .operands precedence left right =>
      left.name ++ " and " ++ right.name ++ " are not the same in " ++ precedence.label ++
        " expression"
  | .passed found declared param method =>
      "cannot pass " ++ found.name ++ " as " ++ declared.name ++ " for parameter '" ++ param ++
        "' in call to '" ++ method ++ "'"
  | .stated text => text

/-- The sentence part that explains a misuse. -/
def Misuse.text : Misuse → String
  | .showNone => "cannot show a 'none' value"
  | .notAValue category name => category.label ++ " '" ++ name ++ "' is not a value"
  | .noMembers name type => "'" ++ name ++ "' has type " ++ type.name ++ " which has no members"
  | .stated text => text

/-- The words for what is declared a second time. -/
def Subject.text : Subject → String
  | .symbol category => category.label
  | .stated text => text

/-- The subject with a given text; the label of a category stands for that category. -/
def Subject.ofText (text : String) : Subject :=
  match Category.ofLabel? text with
  | some category => .symbol category
  | none => .stated text

/-- The words for a construct without meaning. -/
def Construct.text : Construct → String
  | .term source => "term: " ++ source
  | .literal source => "literal: " ++ source
  | .stated text => text

/-- The kind of a fault. -/
def Fault.kind : Fault → Fault.Kind
  | .invalidName _ _ => .invalidName
  | .redeclared _ _ => .redeclared
  | .undeclared _ => .undeclared
  | .unknownType _ => .unknownType
  | .unknownMember _ _ => .unknownMember
  | .mismatch _ => .mismatch
  | .argumentCount _ _ _ => .argumentCount
  | .misuse _ => .misuse
  | .unsupported _ => .unsupported

/-- The code that diagnostics show for a kind of fault. -/
def Fault.Kind.code : Fault.Kind → String
  | .invalidName => "InvalidNameError"
  | .redeclared => "RedeclarationError"
  | .undeclared => "UndeclaredVariableError"
  | .unknownType => "UnknownTypeError"
  | .unknownMember => "UnknownMemberError"
  | .mismatch => "TypeMismatchError"
  | .argumentCount => "ArgumentCountError"
  | .misuse => "InvalidOperationError"
  | .unsupported => "UnsupportedConstructError"

/-- The kind of an error. -/
def Error.kind (error : Error) : Fault.Kind := error.fault.kind

/-- The message of an error, which quotes its position. -/
def Error.message (error : Error) : String :=
  let place := error.span.text
  match error.fault with
  | .invalidName name fault =>
      s!"Invalid name: '{name}' at {place}. " ++ fault.reason name
  | .redeclared subject name => subject.text ++ s!" '{name}' already declared at {place}."
  | .undeclared name => s!"Variable '{name}' not declared at {place}."
  | .unknownType name => s!"Unknown type '{name}' at {place}."
  | .unknownMember ofClass member =>
      s!"Class '{ofClass}' has no member '{member}' at {place}."
  | .mismatch cause => "Type mismatch: " ++ cause.text ++ s!" at {place}."
  | .argumentCount method expected found =>
      s!"Method '{method}' expects {expected} argument(s) but got {found} at {place}."
  | .misuse cause => s!"Invalid operation at {place}: " ++ cause.text ++ "."
  | .unsupported construct => "Unsupported " ++ construct.text ++ s!" at {place}."

/-- Fails with an error unless a condition holds. -/
def require {m : Type → Type} [Monad m] [MonadExceptOf Error m] (condition : Prop)
    [Decidable condition] (error : Error) : m Unit :=
  if condition then pure () else throw error

theorem require_of_holds {m : Type → Type} [Monad m] [MonadExceptOf Error m] {condition : Prop}
    [Decidable condition] {error : Error} (holds : condition) :
    (require condition error : m Unit) = pure () := if_pos holds

theorem require_of_fails {m : Type → Type} [Monad m] [MonadExceptOf Error m] {condition : Prop}
    [Decidable condition] {error : Error} (fails : ¬ condition) :
    (require condition error : m Unit) = throw error := if_neg fails

end Sigil
