import Mathlib.Data.Finset.Card
import Sigil.Proofs.Lookup

/-! # The first definition of a name wins

A table keeps two things in step: its entries in order, and an index from names to their positions.
Whatever symbols are defined and however refused definitions mix with accepted ones, the entries are
the first symbols of their names, in order, and every question that goes through the index has the
answer that a search of all definitions gives. `FirstWins` lists these answers; they all follow from
an exact index and from what one more definition does to the entries.
-/

namespace Sigil

namespace Symbol

/-- Of symbols in order, those whose name no earlier one has. -/
def firsts : List Symbol → List Symbol
  | [] => []
  | symbol :: later => symbol :: (firsts later).filter fun other => other.name ≠ symbol.name

/-- The first symbol of a name. -/
def first? (symbols : List Symbol) (name : String) : Option Symbol :=
  symbols.find? fun symbol => symbol.name = name

theorem isSome_first?_iff {symbols : List Symbol} {name : String} :
    (first? symbols name).isSome = true ↔ name ∈ symbols.map Symbol.name := by
  simp [first?, List.find?_isSome, List.mem_map]

/-- A symbol is kept exactly when it is the first of its name. -/
theorem mem_firsts_iff {symbols : List Symbol} {symbol : Symbol} :
    symbol ∈ firsts symbols ↔ first? symbols symbol.name = some symbol := by
  induction symbols with
  | nil => simp [firsts, first?]
  | cons head later ih =>
    simp only [firsts, List.mem_cons, List.mem_filter, ih, decide_eq_true_eq, first?,
      List.find?_cons]
    by_cases same : head.name = symbol.name
    · simp [same, eq_comm]
    · have other : symbol ≠ head := fun equal => same (congrArg Symbol.name equal.symm)
      simp [same, other, Ne.symm same]

/-- Every name keeps a symbol. -/
theorem mem_names_firsts_iff {symbols : List Symbol} {name : String} :
    name ∈ (firsts symbols).map Symbol.name ↔ name ∈ symbols.map Symbol.name := by
  rw [List.mem_map, ← isSome_first?_iff, Option.isSome_iff_exists]
  constructor
  · rintro ⟨symbol, kept, rfl⟩
    exact ⟨symbol, mem_firsts_iff.mp kept⟩
  · rintro ⟨symbol, found⟩
    have named : symbol.name = name := by simpa using List.find?_some found
    exact ⟨symbol, mem_firsts_iff.mpr (named ▸ found), named⟩

/-- One more symbol is kept at the end, unless its name has a symbol already. -/
theorem firsts_append_singleton (symbols : List Symbol) (symbol : Symbol) :
    firsts (symbols ++ [symbol]) =
      if symbol.name ∈ symbols.map Symbol.name then firsts symbols
      else firsts symbols ++ [symbol] := by
  induction symbols with
  | nil => rfl
  | cons head later ih =>
    simp only [List.cons_append, firsts, ih, List.map_cons, List.mem_cons]
    by_cases same : symbol.name = head.name
    · -- Whether the name comes again later makes no difference: the head drops it.
      split <;> simp [same]
    · simp only [same, false_or]
      split <;> simp [same]

end Symbol

namespace SymbolTable

open Sigil.Symbol (firsts first?)

/-- The table after symbols are defined in turn; those that are refused leave it as it is. -/
def ofDefinitions (defined : List Symbol) : SymbolTable := defined.foldl define ∅

theorem ofDefinitions_append_singleton (defined : List Symbol) (symbol : Symbol) :
    ofDefinitions (defined ++ [symbol]) = (ofDefinitions defined).define symbol := by
  simp [ofDefinitions]

/-- The table holds the first of the defined symbols for each name, in order, and answers as a
search of all the definitions does. -/
structure FirstWins (table : SymbolTable) (defined : List Symbol) : Prop where
  toList_eq : table.toList = firsts defined
  lookup?_eq : ∀ name, table.lookup? name = first? defined name
  contains_iff : ∀ name, table.contains name = true ↔ (table.lookup? name).isSome = true
  /-- The size is the number of different names. -/
  size_eq : table.size = (defined.map Symbol.name).toFinset.card
  isEmpty_iff : table.isEmpty = true ↔ table.size = 0
  /-- A recorded position is that of an entry, and the entry has the recorded name. -/
  position : ∀ name position, table.index[name]? = some position →
    ∃ inside : position < table.entries.size, table.entries[position].name = name
  refused_iff : ∀ symbol, table.define? symbol = none ↔ symbol.name ∈ defined.map Symbol.name
  /-- A refused definition leaves every answer as it was. -/
  unchanged : ∀ symbol, table.define? symbol = none →
    (table.define symbol).toList = table.toList ∧
      (∀ name, (table.define symbol).lookup? name = table.lookup? name) ∧
      (table.define symbol).size = table.size

theorem indexed_ofDefinitions (defined : List Symbol) : (ofDefinitions defined).Indexed := by
  induction defined using List.reverseRecOn with
  | nil => exact indexed_empty
  | append_singleton earlier symbol ih =>
    rw [ofDefinitions_append_singleton]
    exact ih.define symbol

/-- A name is taken exactly if an entry has it. -/
theorem Indexed.contains_iff_mem_names {table : SymbolTable} (indexed : table.Indexed)
    {name : String} : table.contains name = true ↔ name ∈ table.toList.map Symbol.name := by
  rw [indexed.contains_iff, List.mem_map]

/-- If the entries are the first symbols of their names, they are so after one more definition. -/
theorem Indexed.toList_define {table : SymbolTable} (indexed : table.Indexed)
    {defined : List Symbol} (kept : table.toList = firsts defined) (symbol : Symbol) :
    (table.define symbol).toList = firsts (defined ++ [symbol]) := by
  have taken : table.contains symbol.name = true ↔ symbol.name ∈ defined.map Symbol.name := by
    rw [indexed.contains_iff_mem_names, kept, Symbol.mem_names_firsts_iff]
  rw [Symbol.firsts_append_singleton]
  cases declared : table.contains symbol.name with
  | true => rw [define_of_contains declared, if_pos (taken.mp declared), kept]
  | false =>
    have fresh : symbol.name ∉ defined.map Symbol.name := by
      rw [← taken, declared]
      exact Bool.false_ne_true
    rw [define_of_fresh declared, if_neg fresh, toList_push, kept]

theorem toList_ofDefinitions (defined : List Symbol) :
    (ofDefinitions defined).toList = firsts defined := by
  induction defined using List.reverseRecOn with
  | nil => rfl
  | append_singleton earlier symbol ih =>
    rw [ofDefinitions_append_singleton]
    exact (indexed_ofDefinitions earlier).toList_define ih symbol

/-- An indexed table finds a symbol under a name exactly if it is the first of that name. -/
theorem Indexed.lookup?_eq_first? {table : SymbolTable} (indexed : table.Indexed)
    {defined : List Symbol} (kept : table.toList = firsts defined) (name : String) :
    table.lookup? name = first? defined name := by
  refine Option.ext fun symbol => ?_
  rw [indexed.lookup?_eq_some_iff_mem, kept, Symbol.mem_firsts_iff]
  constructor
  · rintro ⟨found, rfl⟩
    exact found
  · intro found
    have named : symbol.name = name := by simpa using List.find?_some found
    exact ⟨named ▸ found, named⟩

/-- Each name has one entry, so the size counts the names. -/
theorem Indexed.size_eq_card {table : SymbolTable} (indexed : table.Indexed)
    {defined : List Symbol} (kept : table.toList = firsts defined) :
    table.size = (defined.map Symbol.name).toFinset.card := by
  have same : (defined.map Symbol.name).toFinset = (table.toList.map Symbol.name).toFinset := by
    ext name
    rw [List.mem_toFinset, List.mem_toFinset, kept, Symbol.mem_names_firsts_iff]
  rw [same, List.toFinset_card_of_nodup indexed.nodup_names, List.length_map]
  rfl

/-- Whatever is defined, in whatever order and however often, the first definition of a name
wins. -/
theorem firstWins_ofDefinitions (defined : List Symbol) :
    (ofDefinitions defined).FirstWins defined := by
  have indexed := indexed_ofDefinitions defined
  have kept := toList_ofDefinitions defined
  refine
    { toList_eq := kept
      lookup?_eq := indexed.lookup?_eq_first? kept
      contains_iff := fun name => ?_
      size_eq := indexed.size_eq_card kept
      isEmpty_iff := ?_
      position := fun name position found => ?_
      refused_iff := fun symbol => ?_
      unchanged := fun symbol refused => ?_ }
  · rw [indexed.contains_iff_mem_names, kept, Symbol.mem_names_firsts_iff,
      indexed.lookup?_eq_first? kept, Symbol.isSome_first?_iff]
  · simp [isEmpty, size]
  · obtain ⟨symbol, entry, named⟩ := (indexed name position).mp found
    obtain ⟨inside, rfl⟩ := Array.getElem?_eq_some_iff.mp entry
    exact ⟨inside, named⟩
  · rw [define?_eq_none_iff, indexed.contains_iff_mem_names, kept, Symbol.mem_names_firsts_iff]
  · rw [define_of_contains ((define?_eq_none_iff _ _).mp refused)]
    exact ⟨rfl, fun _ => rfl, rfl⟩

end SymbolTable

end Sigil
