/-! # Naming rules

Variables, parameters and fields are written with a leading sigil, `$x`; methods and classes are
plain identifiers, and a class may not take the name of a built-in type. An identifier is a letter
or underscore followed by letters, digits and underscores, all of them ASCII.
-/

namespace Sigil

/-- The mark in front of every variable name. -/
def sigil : Char := '$'

/-- Whether a character may open an identifier. -/
def opensIdentifier (c : Char) : Bool := c.isAlpha || c == '_'

/-- Whether a character may follow inside an identifier. -/
def continuesIdentifier (c : Char) : Bool := c.isAlphanum || c == '_'

/-- Whether the whole text is one identifier. -/
def isIdentifierText : List Char → Bool
  | [] => false
  | c :: rest => opensIdentifier c && rest.all continuesIdentifier

/-- Whether a name is a plain identifier. -/
def isIdentifier (name : String) : Bool := isIdentifierText name.toList

/-- The names of the built-in types. -/
def builtinTypeNames : List String := ["chunk", "fraction", "string", "none"]

/-- Why a name is refused. -/
inductive NameFault where
  /-- A variable without the sigil. -/
  | noSigil
  /-- A variable whose sigil is not followed by an identifier. -/
  | variableForm
  /-- A method that is no identifier. -/
  | methodForm
  /-- A class that is no identifier. -/
  | classForm
  /-- A class named like a built-in type. -/
  | builtinType
  /-- A reason given in words by whoever reports the fault. -/
  | stated (reason : String)
  deriving DecidableEq

/-- The sentence that explains why `name` is refused. -/
def NameFault.reason (name : String) : NameFault → String
  | .noSigil => s!"Variable names must start with '{sigil}'."
  | .variableForm =>
      "Variable names must start with a letter or underscore and contain only alphanumeric " ++
        "characters."
  | .methodForm => "Method names must be plain identifiers."
  | .classForm => "Class names must be plain identifiers."
  | .builtinType => s!"'{name}' is a built-in type."
  | .stated reason => reason

/-- What is wrong with the name of a variable, parameter or field. -/
def variableNameFault? (name : String) : Option NameFault :=
  match name.toList with
  | [] => some .noSigil
  | c :: rest =>
      if c != sigil then some .noSigil
      else if isIdentifierText rest then none
      else some .variableForm

/-- What is wrong with the name of a method. -/
def methodNameFault? (name : String) : Option NameFault :=
  if isIdentifier name then none else some .methodForm

/-- What is wrong with the name of a class. -/
def classNameFault? (name : String) : Option NameFault :=
  if !isIdentifier name then some .classForm
  else if builtinTypeNames.contains name then some .builtinType
  else none

/-- A variable name is accepted exactly when it is the sigil followed by an identifier. -/
theorem variableNameFault?_eq_none_iff (name : String) :
    variableNameFault? name = none ↔
      ∃ rest, name.toList = sigil :: rest ∧ isIdentifierText rest = true := by
  unfold variableNameFault?
  split <;> rename_i shape
  · simp [shape]
  · split <;> rename_i first
    · simp_all
    · split <;> simp_all

/-- A method name is accepted exactly when it is an identifier. -/
@[simp] theorem methodNameFault?_eq_none_iff (name : String) :
    methodNameFault? name = none ↔ isIdentifier name = true := by
  simp [methodNameFault?]

/-- A class name is accepted exactly when it is an identifier and no built-in type. -/
@[simp] theorem classNameFault?_eq_none_iff (name : String) :
    classNameFault? name = none ↔ isIdentifier name = true ∧ name ∉ builtinTypeNames := by
  unfold classNameFault?
  split <;> simp_all

end Sigil
