import Sigil.Error
import Sigil.Hierarchy
import Sigil.SymbolTable

/-! # What has been declared

Beside the symbols in their order a check keeps the class hierarchy, the shape of each class and the
signature of each method. The four tables are independent values: nothing here forces them to agree,
and every query is total on tables that do not.
-/

namespace Sigil

/-- A class: its parent, its own fields with their types and the names of its own methods. -/
structure ClassEntry where
  name : String
  parent : Option String
  fields : List (String × Ty) := []
  methods : List String := []
  span : Span
  deriving DecidableEq

namespace ClassEntry

/-- The type of a field that the class itself declares. -/
def fieldType? (entry : ClassEntry) (field : String) : Option Ty := entry.fields.lookup field

/-- Whether the class itself declares a method. -/
def hasMethod (entry : ClassEntry) (method : String) : Bool := entry.methods.contains method

/-- The class with one more field. -/
def addField (entry : ClassEntry) (field : String) (type : Ty) : ClassEntry :=
  { entry with fields := entry.fields ++ [(field, type)] }

/-- The class with one more method. -/
def addMethod (entry : ClassEntry) (method : String) : ClassEntry :=
  { entry with methods := entry.methods ++ [method] }

end ClassEntry

/-- A method: its parameters, its return type and the class that declares it, if one does. -/
structure MethodEntry where
  name : String
  params : List (String × Ty)
  returnType : Ty
  owner : Option String
  deriving DecidableEq

/-- The declared symbols, classes and methods. -/
structure Declarations where
  symbols : SymbolTable := ∅
  hierarchy : Hierarchy := ∅
  classes : Std.ExtTreeMap String ClassEntry := ∅
  methods : Std.ExtTreeMap String MethodEntry := ∅

namespace Declarations

instance : Inhabited Declarations := ⟨{}⟩

/-- Whether a class is known by a name. -/
def knowsClass (decls : Declarations) (className : String) : Bool :=
  decls.classes.contains className

/-- A type as it is, unless it is of a class that is not known. -/
def requireKnown (decls : Declarations) (type : Ty) (span : Span) : Except Error Ty :=
  match type.className? with
  | some className =>
      if decls.knowsClass className then .ok type else .error ⟨.unknownType className, span⟩
  | none => .ok type

/-- The type of something that holds a value; `none` names no such type. -/
def valueType (decls : Declarations) (written : TypeRef) : Except Error Ty :=
  match Ty.ofName written.name with
  | .none => .error ⟨.unknownType written.name, written.span⟩
  | type => decls.requireKnown type written.span

/-- The type that a method returns; `none` stands for a method without a value. -/
def returnType (decls : Declarations) (written : TypeRef) : Except Error Ty :=
  decls.requireKnown (Ty.ofName written.name) written.span

/-- The known classes from a class up along its parents, nearest first. -/
def lineage (decls : Declarations) (className : String) : List ClassEntry :=
  (decls.hierarchy.ancestors className).filterMap fun ancestor => decls.classes[ancestor]?

/-- The type of a field of a class, as the nearest class of its lineage declares it. -/
def field? (decls : Declarations) (className field : String) : Option Ty :=
  (decls.lineage className).findSome? fun entry => entry.fieldType? field

/-- The method that a class has, by itself or by its lineage. -/
def method? (decls : Declarations) (className method : String) : Option MethodEntry :=
  if (decls.lineage className).any fun entry => entry.hasMethod method then
    decls.methods[method]?
  else none

/-- The method that a call without a receiver reaches: one that no class declares. -/
def freeMethod? (decls : Declarations) (method : String) : Option MethodEntry :=
  decls.methods[method]?.filter fun entry => entry.owner.isNone

end Declarations

end Sigil
