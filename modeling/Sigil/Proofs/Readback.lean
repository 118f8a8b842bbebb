import Mathlib.Data.List.Basic
import Std.Data.String.ToNat
import Sigil.Listing
import Sigil.Proofs.KnownTypes

/-! # Reading a listing back

The columns of a listing have no fixed width: a long name pushes the rest of its row to the right,
and the rows of symbols and of classes share one text. Nothing is lost all the same. Names are
identifiers, so the spaces between the words of a row are all the spaces that it has; the first word
says what the row is about; and a type is named by a word that names no other type, because no class
takes the name of a built-in one.
-/

namespace Sigil

open Text (pad spaces)

/-! ## Words and lines -/

/-- What stands between the spaces of a line. -/
def words (line : List Char) : List String :=
  ((line.splitOn ' ').filter fun word => word ≠ []).map String.ofList

/-- The words of each line of a text. -/
def wordRows (text : String) : List (List String) := (text.toList.splitOn '\n').map words

/-- A text that neither a space nor a line break divides. -/
def IsWord (text : String) : Prop :=
  text.toList ≠ [] ∧ ∀ c ∈ text.toList, c ≠ ' ' ∧ c ≠ '\n'

instance (text : String) : Decidable (IsWord text) :=
  decidable_of_iff
    ((!text.toList.isEmpty && text.toList.all fun c => c != ' ' && c != '\n') = true)
    (by simp [IsWord])

/-- A line is made of the given words, with a space and possibly more after each but the last. -/
inductive Spells : List String → String → Prop
  | last {word : String} (isWord : IsWord word) : Spells [word] word
  | cons {word : String} {rest : List String} {line : String} (gap : Nat) (isWord : IsWord word)
      (spells : Spells rest line) : Spells (word :: rest) (word ++ spaces gap ++ " " ++ line)

/-- A row is a line made of the given words and a line break. -/
def IsRow (spelt : List String) (row : String) : Prop :=
  ∃ line, row = line ++ "\n" ∧ Spells spelt line

theorem words_space (line : List Char) : words (' ' :: line) = words line := by
  have split := List.splitOn_append_cons_self_of_not_mem (List.not_mem_nil : ' ' ∉ []) line
  rw [List.nil_append] at split
  simp [words, split]

theorem words_spaces (gap : Nat) (line : List Char) :
    words (List.replicate gap ' ' ++ line) = words line := by
  induction gap with
  | zero => rfl
  | succ gap ih => rw [List.replicate_succ, List.cons_append, words_space, ih]

namespace IsWord

variable {word : String}

theorem space_not_mem (isWord : IsWord word) : ' ' ∉ word.toList :=
  fun member => (isWord.2 ' ' member).1 rfl

theorem break_not_mem (isWord : IsWord word) : '\n' ∉ word.toList :=
  fun member => (isWord.2 '\n' member).2 rfl

theorem words_eq (isWord : IsWord word) : words word.toList = [word] := by
  simp [words, List.splitOn_eq_singleton isWord.space_not_mem, isWord.1]

theorem words_append (isWord : IsWord word) (line : List Char) :
    words (word.toList ++ ' ' :: line) = word :: words line := by
  simp [words, List.splitOn_append_cons_self_of_not_mem isWord.space_not_mem, isWord.1]

end IsWord

namespace Spells

variable {spelt : List String} {line : String}

theorem words_eq (spells : Spells spelt line) : words line.toList = spelt := by
  induction spells with
  | last isWord => exact isWord.words_eq
  | @cons word rest line gap isWord _ ih =>
    -- The space of the constructor stands after the gap; one space has to follow the word itself.
    have shift : (word ++ spaces gap ++ " " ++ line).toList =
        word.toList ++ ' ' :: (List.replicate gap ' ' ++ line.toList) := by
      simp [List.append_assoc, ← List.cons_append, ← List.replicate_succ, List.replicate_succ']
    rw [shift, isWord.words_append, words_spaces, ih]

theorem break_not_mem (spells : Spells spelt line) : '\n' ∉ line.toList := by
  induction spells with
  | last isWord => exact isWord.break_not_mem
  | cons gap isWord _ ih => simp [isWord.break_not_mem, ih]

/-- A word padded to a column, before the other words of its line. -/
theorem column (width : Nat) {word : String} (isWord : IsWord word) (spells : Spells spelt line) :
    Spells (word :: spelt) (pad .left width word ++ " " ++ line) := by
  have padded : pad .left width word = word ++ spaces (width - word.length) := by
    simp [pad, Text.Alignment.margins, spaces]
  rw [padded]
  exact .cons _ isWord spells

/-- A word as it is, before the other words of its line. -/
theorem word {word : String} (isWord : IsWord word) (spells : Spells spelt line) :
    Spells (word :: spelt) (word ++ " " ++ line) := by
  have alone : word ++ spaces 0 = word := by simp [spaces]
  simpa only [alone] using Spells.cons 0 isWord spells

end Spells

theorem wordRows_append {spelt : List String} {row : String} (isRow : IsRow spelt row)
    (rest : String) : wordRows (row ++ rest) = spelt :: wordRows rest := by
  obtain ⟨line, rfl, spells⟩ := isRow
  have split := List.splitOn_append_cons_self_of_not_mem spells.break_not_mem rest.toList
  simp [wordRows, split, spells.words_eq]

/-- The rows of a list of things, read up to the text that follows them. -/
theorem wordRows_join {α : Type} {row : α → String} {spelt : α → List String} {items : List α}
    (areRows : ∀ item ∈ items, IsRow (spelt item) (row item)) (rest : String) :
    wordRows (String.join (items.map row) ++ rest) = items.map spelt ++ wordRows rest := by
  induction items with
  | nil => simp
  | cons item items ih =>
    obtain ⟨isRow, areRows⟩ := List.forall_mem_cons.mp areRows
    rw [List.map_cons, String.join_cons, String.append_assoc, wordRows_append isRow, ih areRows,
      List.map_cons, List.cons_append]

/-! ## What is a word -/

theorem continuesIdentifier_of_mem {text : List Char} (named : isIdentifierText text = true) :
    ∀ c ∈ text, continuesIdentifier c = true := by
  cases text with
  | nil => simp
  | cons first rest =>
    simp only [isIdentifierText, Bool.and_eq_true, List.all_eq_true] at named
    refine List.forall_mem_cons.mpr ⟨?_, named.2⟩
    have opens := named.1
    simp only [opensIdentifier, Bool.or_eq_true] at opens
    rcases opens with letter | underscore
    · simp [continuesIdentifier, Char.isAlphanum, letter]
    · simp [continuesIdentifier, underscore]

theorem not_blank_of_continuesIdentifier {c : Char} (continues : continuesIdentifier c = true) :
    c ≠ ' ' ∧ c ≠ '\n' := by
  constructor <;> rintro rfl <;> exact absurd continues (by decide)

theorem isWord_of_isIdentifier {name : String} (named : isIdentifier name = true) :
    IsWord name := by
  refine ⟨fun empty => ?_, fun c member => ?_⟩
  · rw [isIdentifier, empty] at named
    cases named
  · exact not_blank_of_continuesIdentifier (continuesIdentifier_of_mem named c member)

theorem isWord_of_variable {name : String} (named : variableNameFault? name = none) :
    IsWord name := by
  obtain ⟨rest, text, identifier⟩ := (variableNameFault?_eq_none_iff name).mp named
  rw [IsWord, text]
  refine ⟨List.cons_ne_nil _ _, List.forall_mem_cons.mpr ⟨by decide, fun c member => ?_⟩⟩
  exact not_blank_of_continuesIdentifier (continuesIdentifier_of_mem identifier c member)

theorem isWord_toString (n : Nat) : IsWord (toString n) := by
  rw [Nat.toString_eq_repr, IsWord, Nat.toList_repr]
  refine ⟨Nat.toDigits_ne_nil, fun c member => ?_⟩
  have digit := Nat.isDigit_of_mem_toDigits (by decide) (by decide) member
  constructor <;> rintro rfl <;> exact absurd digit (by decide)

theorem isWord_label (category : Category) : IsWord category.label := by
  cases category <;> decide

theorem IsWord.append {word more : String} (isWord : IsWord word) (isMore : IsWord more) :
    IsWord (word ++ more) := by
  rw [IsWord, String.toList_append]
  exact ⟨fun empty => isWord.1 (List.append_eq_nil_iff.mp empty).1,
    List.forall_mem_append.mpr ⟨isWord.2, isMore.2⟩⟩

/-! ## Rows -/

/-- What a listing says of a symbol. -/
structure SymbolRow where
  category : Category
  name : String
  type : Ty
  line : Nat
  used : Bool
  deriving DecidableEq

namespace SymbolRow

/-- The words of a row, from left to right. -/
def words (row : SymbolRow) : List String :=
  [row.category.label, row.name, row.type.name, "line", toString row.line,
    if row.used then "used" else "unused"]

/-- The row that some words make up. -/
def ofWords? : List String → Option SymbolRow
  | [label, name, type, _, line, usage] => do
      return ⟨← Category.ofLabel? label, name, Ty.ofName type, ← line.toNat?, usage = "used"⟩
  | _ => none

/-- A row is read back if its type is the one that its type's name denotes. -/
theorem ofWords?_words {row : SymbolRow} (named : Ty.ofName row.type.name = row.type) :
    ofWords? row.words = some row := by
  obtain ⟨category, name, type, line, used⟩ := row
  cases used <;> simp_all [words, ofWords?]

end SymbolRow

/-- What a listing says of a class. -/
structure ClassRow where
  name : String
  parent : Option String
  line : Nat
  deriving DecidableEq

namespace ClassRow

/-- The words of a row, from left to right. -/
def words (row : ClassRow) : List String :=
  match row.parent with
  | none => ["class", row.name, "(line", toString row.line ++ ")"]
  | some parent => ["class", row.name, "<:", parent, "(line", toString row.line ++ ")"]

/-- The number in front of a closing parenthesis. -/
def closed? (word : String) : Option Nat := (String.ofList word.toList.dropLast).toNat?

/-- The row that some words make up. -/
def ofWords? : List String → Option ClassRow
  | ["class", name, _, line] => (closed? line).map fun line => ⟨name, none, line⟩
  | ["class", name, _, parent, _, line] => (closed? line).map fun line => ⟨name, some parent, line⟩
  | _ => none

theorem closed?_repr (n : Nat) : closed? (n.repr ++ ")") = some n := by
  have number : (n.repr ++ ")").toList.dropLast = n.repr.toList := by simp
  rw [closed?, number, String.ofList_toList, Nat.toNat?_repr]

theorem ofWords?_words (row : ClassRow) : ofWords? row.words = some row := by
  obtain ⟨name, parent, line⟩ := row
  cases parent <;> simp [words, ofWords?, closed?_repr]

/-- No label of a symbol is the word in front of a class. -/
theorem ofWords?_symbolRow (row : SymbolRow) : ofWords? row.words = none := by
  obtain ⟨category, name, type, line, used⟩ := row
  cases category <;> rfl

end ClassRow

theorem SymbolRow.ofWords?_classRow (row : ClassRow) : ofWords? row.words = none := by
  obtain ⟨name, parent, line⟩ := row
  cases parent <;> rfl

/-- What a listing says: its rows of symbols and its rows of classes. -/
def readListing (text : String) : List SymbolRow × List ClassRow :=
  ((wordRows text).filterMap SymbolRow.ofWords?, (wordRows text).filterMap ClassRow.ofWords?)

/-- Rows of symbols and then of classes are read back, each by the reader of its sort. -/
theorem readListing_of_wordRows {text : String} {symbols : List SymbolRow}
    {classes : List ClassRow} (named : ∀ row ∈ symbols, Ty.ofName row.type.name = row.type)
    (rows : wordRows text = symbols.map SymbolRow.words ++ classes.map ClassRow.words ++ [[]]) :
    readListing text = (symbols, classes) := by
  have symbolsRead : (symbols.map SymbolRow.words).filterMap SymbolRow.ofWords? = symbols := by
    rw [List.filterMap_map]
    refine Eq.trans (List.filterMap_congr fun row member => ?_) List.filterMap_some
    exact SymbolRow.ofWords?_words (named row member)
  have classesRead : (classes.map ClassRow.words).filterMap ClassRow.ofWords? = classes := by
    simp [List.filterMap_map, ClassRow.ofWords?_words]
  have noSymbol : (classes.map ClassRow.words).filterMap SymbolRow.ofWords? = [] := by
    simp [SymbolRow.ofWords?_classRow]
  have noClass : (symbols.map SymbolRow.words).filterMap ClassRow.ofWords? = [] := by
    simp [ClassRow.ofWords?_symbolRow]
  simp [readListing, rows, symbolsRead, classesRead, noSymbol, noClass, SymbolRow.ofWords?,
    ClassRow.ofWords?]

/-- The row of a class. -/
def ClassEntry.toRow (entry : ClassEntry) : ClassRow := ⟨entry.name, entry.parent, entry.span.line⟩

namespace Context

/-- The row of a symbol. -/
def toRow (context : Context) (symbol : Symbol) : SymbolRow :=
  ⟨symbol.role.category, symbol.name, symbol.type, symbol.line, context.isUsed symbol.name⟩

/-- The rows of the symbols, in declaration order. -/
def symbolRows (context : Context) : List SymbolRow := context.symbols.toList.map context.toRow

/-- The rows of the classes, in the order of the listing. -/
def classRows (context : Context) : List ClassRow := context.declaredClasses.map ClassEntry.toRow

end Context

/-- A symbol is written as its row. -/
theorem Symbol.isRow (context : Context) {symbol : Symbol} (name : IsWord symbol.name)
    (type : IsWord symbol.type.name) :
    IsRow (context.toRow symbol).words (symbol.row (context.usageLabel symbol.name)) := by
  have usage : IsWord (context.usageLabel symbol.name) := by
    unfold Context.usageLabel
    split <;> decide
  have spells := Spells.column 10 (isWord_label symbol.role.category) <| .column 16 name <|
    .column 10 type <| .word (by decide : IsWord "line") <|
    .column 4 (isWord_toString symbol.line) <| .last usage
  refine ⟨_, ?_, spells⟩
  have keyword : " line " = " " ++ ("line" ++ " ") := rfl
  simp only [row, keyword, String.append_assoc]

/-- A class is written as its row. -/
theorem ClassEntry.isRow {entry : ClassEntry} (name : IsWord entry.name)
    (parent : ∀ parent, entry.parent = some parent → IsWord parent) :
    IsRow entry.toRow.words entry.row := by
  have keyword : IsWord "class" := by decide
  have line : Spells ["(line", toString entry.span.line ++ ")"]
      ("(line" ++ " " ++ (toString entry.span.line ++ ")")) :=
    .word (by decide) (.last ((isWord_toString _).append (by decide)))
  have opening : "class " = "class" ++ " " := rfl
  have number : " (line " = " " ++ ("(line" ++ " ") := rfl
  have closing : ")\n" = ")" ++ "\n" := rfl
  cases inherits : entry.parent with
  | none =>
    simp only [ClassRow.words, toRow, inherits]
    refine ⟨_, ?_, Spells.word keyword (.word name line)⟩
    simp only [row, inherits, opening, number, closing, String.append_assoc, String.empty_append]
  | some above =>
    have relation : " <: " = " " ++ ("<:" ++ " ") := rfl
    simp only [ClassRow.words, toRow, inherits]
    refine ⟨_, ?_, Spells.word keyword (.word name
      (.word (by decide : IsWord "<:") (.word (parent above inherits) line)))⟩
    simp only [row, inherits, opening, relation, number, closing, String.append_assoc]

/-! ## What reachable contexts list -/

namespace Declarations.Built

variable {decls : Declarations}

theorem isWord_name (built : decls.Built) :
    ∀ symbol ∈ decls.symbols.toList, IsWord symbol.name := by
  intro symbol member
  cases holds : symbol.role.isValue with
  | true => exact isWord_of_variable (built.valueName symbol member holds)
  | false => exact isWord_of_isIdentifier (built.plainName symbol member holds)

theorem isWord_className (built : decls.Built) {className : String}
    (known : decls.knowsClass className = true) : IsWord className := by
  obtain ⟨symbol, member, _, rfl⟩ := (built.knowsClass_iff className).mp known
  exact built.isWord_name symbol member

theorem isWord_typeName (built : decls.Built) {type : Ty} (known : decls.KnowsType type) :
    IsWord type.name := by
  cases type with
  | object className => exact built.isWord_className (known className rfl)
  | _ => decide

/-- A known type is the one that its name denotes: no class has the name of a built-in type. -/
theorem ofName_name (built : decls.Built) {type : Ty} (known : decls.KnowsType type) :
    Ty.ofName type.name = type := by
  cases type with
  | object className =>
    obtain ⟨symbol, member, role, rfl⟩ := (built.knowsClass_iff className).mp (known className rfl)
    exact Ty.ofName_eq_object_iff.mpr ⟨rfl, (built.className symbol member role).1⟩
  | _ => rfl

/-- The listed classes are all the entries. -/
theorem mem_declaredClasses_iff (built : decls.Built) {entry : ClassEntry} :
    entry ∈ decls.declaredClasses ↔ ∃ key : String, decls.classes[key]? = some entry := by
  rw [declaredClasses, List.mem_filterMap]
  constructor
  · rintro ⟨symbol, _, found⟩
    exact ⟨symbol.name, found⟩
  · rintro ⟨key, found⟩
    obtain ⟨_, _, symbol, member, _, rfl, _⟩ := built.class_entry found
    exact ⟨symbol, member, found⟩

/-- A symbol finds the entry of a class if it is the symbol of that class, and none otherwise. -/
theorem name_class? (built : decls.Built) {symbol : Symbol}
    (member : symbol ∈ decls.symbols.toList) :
    decls.classes[symbol.name]?.map ClassEntry.name =
      if symbol.role = .classType then some symbol.name else none := by
  cases found : decls.classes[symbol.name]? with
  | some entry =>
    obtain ⟨named, _, other, declared, role, sameName, _⟩ := built.class_entry found
    obtain rfl := built.indexed.eq_of_name_eq declared member sameName
    rw [if_pos role, Option.map_some, named]
  | none =>
    rw [Option.map_none, if_neg]
    intro role
    obtain ⟨entry, present⟩ :=
      exists_class ((built.knowsClass_iff symbol.name).mpr ⟨symbol, member, role, rfl⟩)
    rw [found] at present
    cases present

/-- The classes come in the order of their symbols. -/
theorem names_declaredClasses (built : decls.Built) :
    decls.declaredClasses.map ClassEntry.name =
      (decls.symbols.toList.filter (·.role = .classType)).map Symbol.name := by
  rw [declaredClasses, List.map_filterMap,
    List.filterMap_congr fun symbol member => built.name_class? member, ← List.filterMap_eq_map',
    List.filterMap_filter]
  simp only [decide_eq_true_eq]

end Declarations.Built

namespace Context

variable {context : Context}

/-- Rows list the classes of a context: one row for each entry, in declaration order. -/
structure ListsClasses (context : Context) (rows : List ClassRow) : Prop where
  mem_iff : ∀ row, row ∈ rows ↔ ∃ (key : String) (entry : ClassEntry),
    context.classes[key]? = some entry ∧ row = ⟨key, entry.parent, entry.span.line⟩
  inOrder : rows.map ClassRow.name =
    (context.symbols.toList.filter (·.role = .classType)).map Symbol.name
  once : (rows.map ClassRow.name).Nodup

theorem listsClasses_classRows (built : context.toDeclarations.Built) :
    context.ListsClasses context.classRows := by
  have names : context.classRows.map ClassRow.name =
      (context.symbols.toList.filter (·.role = .classType)).map Symbol.name := by
    rw [← built.names_declaredClasses, classRows, List.map_map]
    rfl
  refine ⟨fun row => ?_, names, ?_⟩
  · rw [classRows, List.mem_map]
    constructor
    · rintro ⟨entry, listed, rfl⟩
      obtain ⟨key, found⟩ := built.mem_declaredClasses_iff.mp listed
      exact ⟨key, entry, found, by rw [ClassEntry.toRow, (built.class_entry found).1]⟩
    · rintro ⟨key, entry, found, rfl⟩
      refine ⟨entry, built.mem_declaredClasses_iff.mpr ⟨key, found⟩, ?_⟩
      rw [ClassEntry.toRow, (built.class_entry found).1]
  · rw [names]
    exact built.indexed.nodup_names.sublist (List.filter_sublist.map Symbol.name)

theorem wordRows_listing (built : context.toDeclarations.Built) :
    wordRows context.listing =
      context.symbolRows.map SymbolRow.words ++ context.classRows.map ClassRow.words ++ [[]] := by
  have symbols : ∀ symbol ∈ context.symbols.toList,
      IsRow (context.toRow symbol).words (symbol.row (context.usageLabel symbol.name)) :=
    fun symbol member => Symbol.isRow context (built.isWord_name symbol member)
      (built.isWord_typeName (built.knowsType_of_mem symbol member))
  have classes : ∀ entry ∈ context.declaredClasses, IsRow entry.toRow.words entry.row := by
    intro entry listed
    obtain ⟨key, found⟩ := built.mem_declaredClasses_iff.mp listed
    obtain ⟨named, inherits, symbol, member, _, rfl, _⟩ := built.class_entry found
    refine ClassEntry.isRow (named ▸ built.isWord_name symbol member) fun parent above => ?_
    exact built.isWord_className (built.knowsClass_parent (inherits.symm.trans above))
  have rows := wordRows_join classes ""
  rw [String.append_empty] at rows
  rw [listing, wordRows_join symbols, rows, symbolRows, classRows, List.map_map, List.map_map,
    List.append_assoc]
  rfl

theorem Reachable.readListing_eq (reachable : context.Reachable) :
    readListing context.listing = (context.symbolRows, context.classRows) := by
  have built := reachable.built
  refine readListing_of_wordRows ?_ (wordRows_listing built)
  rw [symbolRows, List.forall_mem_map]
  exact fun symbol member => built.ofName_name (built.knowsType_of_mem symbol member)

/-- From the text of a listing alone one reads every symbol with its category, name, type, line and
use, and every class once with its parent and line, both in declaration order. So two contexts with
one listing agree on all of these. -/
theorem Reachable.readListing_listing (reachable : context.Reachable) :
    readListing context.listing = (context.symbolRows, context.classRows) ∧
      context.ListsClasses context.classRows ∧
      ∀ other : Context, other.Reachable → other.listing = context.listing →
        other.symbolRows = context.symbolRows ∧ other.classRows = context.classRows := by
  have read := reachable.readListing_eq
  refine ⟨read, listsClasses_classRows reachable.built, fun other also same => ?_⟩
  rw [← same, also.readListing_eq, Prod.mk.injEq] at read
  exact read

/-- Classes with names that are words of a listing, a name and a line number too long for their
columns, and a declaration that is refused. -/
def mimics : Program :=
  [.classDecl
    { name := ⟨"line", .zero⟩
      parent := none
      fields := []
      methods := []
      span := .ofPosition 1 0 },
   .classDecl
    { name := ⟨"used", .zero⟩
      parent := some ⟨"line", .zero⟩
      fields := [⟨⟨"$wider_than_its_column", .ofPosition 3 0⟩, ⟨"line", .ofPosition 3 30⟩⟩]
      methods := []
      span := .ofPosition 2 0 },
   .var
    { signature := ⟨⟨"$x", .zero⟩, ⟨"used", .zero⟩⟩
      init := some (.newOf "used" .zero)
      span := .ofPosition 12345 0 },
   .output (.var "$x" .zero) .zero,
   .var
    { signature := ⟨⟨"$y", .zero⟩, ⟨"missing", .zero⟩⟩
      init := none
      span := .zero }]

/-- Showing a value once more changes a context, but not its listing. -/
theorem readListing_listing_mimics :
    let left := ((∅ : Context).check true mimics).context
    let later := (left.check true [.output (.var "$x" .zero) .zero]).context
    ((∅ : Context).check true mimics).verdict = .error ⟨.unknownType "missing", .zero⟩ ∧
      left.listing =
        "Class      line             line       line 1    unused\n" ++
        "Class      used             used       line 2    unused\n" ++
        "Field      $wider_than_its_column line       line 3    unused\n" ++
        "Variable   $x               used       line 12345 used\n" ++
        "class line (line 1)\n" ++
        "class used <: line (line 2)\n" ∧
      readListing left.listing =
        ([⟨.classType, "line", .object "line", 1, false⟩,
          ⟨.classType, "used", .object "used", 2, false⟩,
          ⟨.field, "$wider_than_its_column", .object "line", 3, false⟩,
          ⟨.var, "$x", .object "used", 12345, true⟩],
         [⟨"line", none, 1⟩, ⟨"used", some "line", 2⟩]) ∧
      later.outputs.length = 2 ∧ later.listing = left.listing ∧
      later.symbolRows = left.symbolRows ∧ later.classRows = left.classRows := by
  intro left later
  have reachable : left.Reachable := .check .empty true mimics
  obtain ⟨read, _, same⟩ := Reachable.readListing_listing reachable
  have again : later.listing = left.listing := by decide +kernel
  refine ⟨rfl, by decide +kernel, read.trans (by decide +kernel), rfl, again, ?_⟩
  exact same later (.check reachable true _) again

end Context

end Sigil
