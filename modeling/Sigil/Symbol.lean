import Sigil.Ty

/-! # Symbols

Everything a program declares is a symbol of one flat namespace: variables, parameters, fields,
methods and classes. The first three hold values.
-/

namespace Sigil

/-- What sort of thing a name was declared as. -/
inductive Category where
  | var
  | param
  | field
  | method
  | classType
  deriving DecidableEq

/-- The word for a category in messages and listings. -/
def Category.label : Category → String
  | .var => "Variable"
  | .param => "Parameter"
  | .field => "Field"
  | .method => "Method"
  | .classType => "Class"

/-- All categories, in the order in which they are declared above. -/
def Category.all : List Category := [.var, .param, .field, .method, .classType]

/-- The category with a given label. -/
def Category.ofLabel? (label : String) : Option Category :=
  Category.all.find? fun category => category.label = label

/-- Whether things of this category hold a value and can be read. -/
def Category.isValue : Category → Bool
  | .var | .param | .field => true
  | .method | .classType => false

/-- What a symbol is, and what it belongs to. -/
inductive Role where
  | var
  | param (method : String)
  | field (ofClass : String)
  | method
  | classType
  deriving DecidableEq

namespace Role

/-- The category of a role. -/
def category : Role → Category
  | var => .var
  | param _ => .param
  | field _ => .field
  | method => .method
  | classType => .classType

/-- The method of a parameter or the class of a field. -/
def owner? : Role → Option String
  | param owner | field owner => some owner
  | var | method | classType => none

/-- Whether symbols in this role hold a value and can be read. -/
def isValue (role : Role) : Bool := role.category.isValue

end Role

/-- A declared name with its role, its type and the place of its declaration. -/
structure Symbol where
  name : String
  role : Role
  type : Ty
  /-- The line that warnings and listings quote. -/
  line : Nat
  span : Span
  deriving DecidableEq

/-- A symbol that quotes the line of its span. -/
def Symbol.declaredAt (name : String) (role : Role) (type : Ty) (span : Span) : Symbol :=
  ⟨name, role, type, span.line, span⟩

@[simp] theorem Category.ofLabel?_label (category : Category) :
    Category.ofLabel? category.label = some category := by
  cases category <;> decide

end Sigil
