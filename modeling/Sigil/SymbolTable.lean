import Std.Data.ExtTreeMap
import Sigil.Symbol

/-! # The symbol table

Symbols in the order of their declaration, with an index from names to positions. A name is defined
once: a later definition of the same name is refused and changes nothing. `Indexed` states that the
index describes the entries; the empty table has it and every definition keeps it, so in a table
built by definitions alone `lookup?` never misses a position it finds in the index.
-/

namespace Sigil

/-- Symbols in declaration order, and the position of each name. -/
structure SymbolTable where
  entries : Array Symbol := #[]
  index : Std.ExtTreeMap String Nat := ∅

namespace SymbolTable

/-- The table without symbols. -/
def empty : SymbolTable := {}

instance : EmptyCollection SymbolTable := ⟨empty⟩

instance : Inhabited SymbolTable := ⟨empty⟩

/-- The symbols in declaration order. -/
def toList (table : SymbolTable) : List Symbol := table.entries.toList

/-- The number of symbols. -/
def size (table : SymbolTable) : Nat := table.entries.size

/-- Whether nothing is declared. -/
def isEmpty (table : SymbolTable) : Bool := table.entries.isEmpty

/-- Whether a name is declared. -/
def contains (table : SymbolTable) (name : String) : Bool := table.index.contains name

/-- The symbol of a name. -/
def lookup? (table : SymbolTable) (name : String) : Option Symbol :=
  table.index[name]?.bind fun position => table.entries[position]?

/-- Appends a symbol, whatever its name. -/
def push (table : SymbolTable) (symbol : Symbol) : SymbolTable where
  entries := table.entries.push symbol
  index := table.index.insert symbol.name table.entries.size

/-- Appends a symbol, unless its name is already declared. -/
def define? (table : SymbolTable) (symbol : Symbol) : Option SymbolTable :=
  if table.contains symbol.name then none else some (table.push symbol)

/-- Appends a symbol, or keeps the table if its name is already declared. -/
def define (table : SymbolTable) (symbol : Symbol) : SymbolTable :=
  (table.define? symbol).getD table

/-- Why a definition was refused. -/
def duplicateMessage (name : String) : String := s!"symbol '{name}' already defined"

/-- The index finds exactly the positions of the entries, under their names. -/
def Indexed (table : SymbolTable) : Prop :=
  ∀ (name : String) (position : Nat), table.index[name]? = some position ↔
    ∃ symbol : Symbol, table.entries[position]? = some symbol ∧ symbol.name = name

@[simp] theorem toList_empty : (∅ : SymbolTable).toList = [] := rfl

@[simp] theorem toList_push (table : SymbolTable) (symbol : Symbol) :
    (table.push symbol).toList = table.toList ++ [symbol] := by
  simp [toList, push]

@[simp] theorem contains_push (table : SymbolTable) (symbol : Symbol) (name : String) :
    (table.push symbol).contains name = (symbol.name == name || table.contains name) := by
  grind [contains, push]

theorem define?_eq_none_iff (table : SymbolTable) (symbol : Symbol) :
    table.define? symbol = none ↔ table.contains symbol.name = true := by
  simp [define?]

theorem define_of_fresh {table : SymbolTable} {symbol : Symbol}
    (fresh : table.contains symbol.name = false) : table.define symbol = table.push symbol := by
  simp [define, define?, fresh]

theorem define_of_contains {table : SymbolTable} {symbol : Symbol}
    (declared : table.contains symbol.name = true) : table.define symbol = table := by
  simp [define, define?, declared]

theorem indexed_empty : (∅ : SymbolTable).Indexed := by
  intro name position
  change (∅ : Std.ExtTreeMap String Nat)[name]? = some position ↔
    ∃ symbol : Symbol, (#[] : Array Symbol)[position]? = some symbol ∧ symbol.name = name
  simp

/-- A symbol with a fresh name keeps the index exact. -/
theorem Indexed.push {table : SymbolTable} (indexed : table.Indexed) {symbol : Symbol}
    (fresh : table.contains symbol.name = false) : (table.push symbol).Indexed := by
  intro name position
  have absent : table.index[symbol.name]? = none := by
    grind [contains]
  change (table.index.insert symbol.name table.entries.size)[name]? = some position ↔
    ∃ found, (table.entries.push symbol)[position]? = some found ∧ found.name = name
  rw [Std.ExtTreeMap.getElem?_insert, Array.getElem?_push]
  by_cases last : position = table.entries.size
  · subst last
    by_cases same : symbol.name = name
    · simp [same]
    · have missing : table.index[name]? ≠ some table.entries.size := by
        intro found
        obtain ⟨entry, present, _⟩ := (indexed name _).mp found
        simp at present
      simp [same, missing]
  · by_cases same : symbol.name = name
    · subst same
      have elsewhere : ¬ ∃ entry : Symbol, table.entries[position]? = some entry ∧
          entry.name = symbol.name := by
        rw [← indexed symbol.name position, absent]
        simp
      simp only [Std.compare_self, ↓reduceIte, Option.some.injEq, last]
      exact ⟨fun h => absurd h.symm last, fun h => absurd h elsewhere⟩
    · simp [same, last, indexed name position]

/-- Every definition keeps the index exact, whether it is refused or not. -/
theorem Indexed.define {table : SymbolTable} (indexed : table.Indexed) (symbol : Symbol) :
    (table.define symbol).Indexed := by
  cases declared : table.contains symbol.name with
  | false => rw [define_of_fresh declared]; exact indexed.push declared
  | true => rw [define_of_contains declared]; exact indexed

/-- In an indexed table the symbol found under a name is an entry of that name. -/
theorem Indexed.lookup?_eq_some_iff {table : SymbolTable} (indexed : table.Indexed)
    {name : String} {symbol : Symbol} :
    table.lookup? name = some symbol ↔
      ∃ position, table.index[name]? = some position ∧
        table.entries[position]? = some symbol ∧ symbol.name = name := by
  simp only [lookup?, Option.bind_eq_some_iff]
  constructor
  · rintro ⟨position, found, entry⟩
    obtain ⟨other, present, named⟩ := (indexed name position).mp found
    rw [entry] at present
    cases present
    exact ⟨position, found, entry, named⟩
  · rintro ⟨position, found, entry, _⟩
    exact ⟨position, found, entry⟩

end SymbolTable

end Sigil
