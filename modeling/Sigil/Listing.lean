import Sigil.Context
import Sigil.Text.Align

/-! # The listing of a context

One row for each symbol in declaration order, in columns, followed by one row for each class with
its parent.
-/

namespace Sigil

open Text (pad)

/-- Whether a name was read, in the word of the listing. -/
def Context.usageLabel (context : Context) (name : String) : String :=
  if context.isUsed name then "used" else "unused"

/-- The row of a symbol: category, name, type, line and whether it was read. -/
def Symbol.row (symbol : Symbol) (usage : String) : String :=
  pad .left 10 symbol.role.category.label ++ " " ++ pad .left 16 symbol.name ++ " " ++
    pad .left 10 symbol.type.name ++ " line " ++ pad .left 4 (toString symbol.line) ++ " " ++
    usage ++ "\n"

/-- The row of a class, with its parent if it has one. -/
def ClassEntry.row (entry : ClassEntry) : String :=
  "class " ++ entry.name ++
    (match entry.parent with
      | none => ""
      | some parent => " <: " ++ parent) ++
    " (line " ++ toString entry.span.line ++ ")\n"

/-- The classes known by the names of the symbols, in declaration order. -/
def Declarations.declaredClasses (decls : Declarations) : List ClassEntry :=
  decls.symbols.toList.filterMap fun symbol => decls.classes[symbol.name]?

/-- The listing of all symbols and of the class hierarchy. -/
def Context.listing (context : Context) : String :=
  String.join (context.symbols.toList.map fun symbol =>
    symbol.row (context.usageLabel symbol.name)) ++
  String.join (context.declaredClasses.map ClassEntry.row)

end Sigil
