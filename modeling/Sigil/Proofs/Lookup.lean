import Sigil.Name
import Sigil.SymbolTable

/-! # Looking up names

In a table whose index is exact a name stands for one entry, so looking it up is the same as
searching the entries. Names of values begin with the sigil and other names do not, so the two sorts
never clash.
-/

namespace Sigil

theorem SymbolTable.forall_push {P : Symbol → Prop} {table : SymbolTable} {symbol : Symbol} :
    (∀ entry ∈ (table.push symbol).toList, P entry) ↔
      (∀ entry ∈ table.toList, P entry) ∧ P symbol := by
  simp [or_imp, forall_and]

theorem SymbolTable.exists_push {P : Symbol → Prop} {table : SymbolTable} {symbol : Symbol} :
    (∃ entry ∈ (table.push symbol).toList, P entry) ↔
      (∃ entry ∈ table.toList, P entry) ∨ P symbol := by
  simp [or_and_right, exists_or]

namespace SymbolTable.Indexed

variable {table : SymbolTable} {name : String} {symbol : Symbol}

/-- The symbol found under a name is the entry of that name. -/
theorem lookup?_eq_some_iff_mem (indexed : table.Indexed) :
    table.lookup? name = some symbol ↔ symbol ∈ table.toList ∧ symbol.name = name := by
  rw [indexed.lookup?_eq_some_iff]
  constructor
  · rintro ⟨position, _, entry, named⟩
    exact ⟨List.mem_of_getElem? (by simpa [toList] using entry), named⟩
  · rintro ⟨member, named⟩
    obtain ⟨position, bound, entry⟩ := List.getElem_of_mem member
    have present : table.entries[position]? = some symbol := by
      simpa [toList, Array.getElem?_eq_some_iff] using ⟨bound, entry⟩
    exact ⟨position, (indexed name position).mpr ⟨symbol, present, named⟩, present, named⟩

theorem contains_iff (indexed : table.Indexed) :
    table.contains name = true ↔ ∃ symbol ∈ table.toList, symbol.name = name := by
  rw [contains, Std.ExtTreeMap.contains_eq_isSome_getElem?, Option.isSome_iff_exists]
  constructor
  · rintro ⟨position, found⟩
    obtain ⟨symbol, entry, named⟩ := (indexed name position).mp found
    exact ⟨symbol, List.mem_of_getElem? (by simpa [toList] using entry), named⟩
  · rintro ⟨symbol, member, named⟩
    obtain ⟨position, found, _⟩ := indexed.lookup?_eq_some_iff.mp
      (indexed.lookup?_eq_some_iff_mem.mpr ⟨member, named⟩)
    exact ⟨position, found⟩

theorem lookup?_eq_none_iff (indexed : table.Indexed) :
    table.lookup? name = none ↔ table.contains name = false := by
  rw [← Bool.not_eq_true, indexed.contains_iff, Option.eq_none_iff_forall_ne_some]
  constructor
  · rintro missing ⟨symbol, member, named⟩
    exact missing symbol (indexed.lookup?_eq_some_iff_mem.mpr ⟨member, named⟩)
  · rintro missing symbol found
    obtain ⟨member, named⟩ := indexed.lookup?_eq_some_iff_mem.mp found
    exact missing ⟨symbol, member, named⟩

/-- Two entries of one name are the same entry. -/
theorem eq_of_name_eq (indexed : table.Indexed) {other : Symbol} (member : symbol ∈ table.toList)
    (also : other ∈ table.toList) (same : symbol.name = other.name) : symbol = other := by
  have found := indexed.lookup?_eq_some_iff_mem.mpr ⟨member, same⟩
  have again := indexed.lookup?_eq_some_iff_mem.mpr ⟨also, rfl⟩
  exact Option.some.inj (found.symm.trans again)

theorem name_ne_of_fresh (indexed : table.Indexed) (fresh : table.contains name = false)
    (member : symbol ∈ table.toList) : symbol.name ≠ name := by
  intro named
  have declared := indexed.contains_iff.mpr ⟨symbol, member, named⟩
  rw [fresh] at declared
  cases declared

/-- A new symbol is found under its name, and every other name stands for what it stood for. -/
theorem lookup?_push (indexed : table.Indexed) :
    (table.push symbol).lookup? name =
      if symbol.name = name then some symbol else table.lookup? name := by
  change ((table.index.insert symbol.name table.entries.size)[name]?.bind fun position =>
    (table.entries.push symbol)[position]?) = _
  by_cases same : symbol.name = name
  · simp [same]
  · rw [Std.ExtTreeMap.getElem?_insert, if_neg (by simpa using same), if_neg same, lookup?]
    -- The index has positions of entries only, and they lie before the new one.
    refine Option.bind_congr fun position found => ?_
    obtain ⟨entry, present, _⟩ := (indexed name position).mp found
    obtain ⟨bound, _⟩ := Array.getElem?_eq_some_iff.mp present
    rw [Array.getElem?_push_lt bound, Array.getElem?_eq_getElem bound]

/-- No name is declared twice. -/
theorem nodup_names (indexed : table.Indexed) : (table.toList.map Symbol.name).Nodup := by
  rw [List.Nodup, List.pairwise_map, List.pairwise_iff_getElem]
  intro i j boundI boundJ before same
  have entryI : table.entries[i]? = some table.toList[i] := by simp [toList]
  have entryJ : table.entries[j]? = some table.toList[j] := by simp [toList]
  have foundI := (indexed _ i).mpr ⟨_, entryI, same⟩
  have foundJ := (indexed _ j).mpr ⟨_, entryJ, rfl⟩
  rw [foundI] at foundJ
  exact absurd (Option.some.inj foundJ) (Nat.ne_of_lt before)

end SymbolTable.Indexed

/-- A name that may be given to a variable may not be given to a method or a class. -/
theorem not_isIdentifier_of_variable {name : String} (named : variableNameFault? name = none) :
    isIdentifier name = false := by
  obtain ⟨rest, text, _⟩ := (variableNameFault?_eq_none_iff name).mp named
  simp [isIdentifier, text, isIdentifierText, sigil, opensIdentifier]

end Sigil
