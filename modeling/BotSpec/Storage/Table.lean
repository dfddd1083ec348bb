import BotSpec.Storage.Tree
import BotSpec.Text.Blank
import BotSpec.Text.Fold

/-!
# Tables

The first page of a database file lists its tables, each with the statement that made it. The
statement names the columns in the order in which records hold them.
-/

namespace BotSpec.Storage

/-- A table: the page its tree starts at, and the names of its columns. -/
structure Table where
  root : Nat
  columns : List String

/-- The definitions between the outer brackets of a statement, cut at commas outside inner brackets
and quotes. -/
def definitionsFrom (depth : Nat) (quote : Option Char) (current : List Char) :
    List Char → List (List Char)
  | [] => []
  | c :: cs =>
    match quote with
    | some q =>
      definitionsFrom depth (if c = q then none else some q) (if depth = 0 then current else current ++ [c]) cs
    | none =>
      if c = '(' then
        definitionsFrom (depth + 1) none (if depth = 0 then [] else current ++ [c]) cs
      else if c = ')' then
        if depth ≤ 1 then [current] else definitionsFrom (depth - 1) none (current ++ [c]) cs
      else if c = ',' ∧ depth = 1 then current :: definitionsFrom depth none [] cs
      else
        let quote := if c = '"' ∨ c = '\x60' ∨ c = '\x27' then some c else none
        definitionsFrom depth quote (if depth = 0 then current else current ++ [c]) cs

/-- Words that a definition starts with when it defines no column. -/
def constraintWords : List String := ["constraint", "primary", "unique", "check", "foreign"]

/-- The characters that may stand around a name. -/
def isNameQuote (c : Char) : Bool := c = '"' || c = '\x60' || c = '[' || c = ']'

/-- The column that a definition defines. -/
def columnOf? (definition : List Char) : Option String :=
  let word := (Text.dropBlanks definition).takeWhile fun c => !Text.isBlank c
  let name := String.ofList (word.filter fun c => !isNameQuote c)
  if name = "" ∨ constraintWords.contains (Text.lowerText name) then none else some name

/-- The columns that a statement defines. -/
def columnsOf (statement : String) : List String :=
  (definitionsFrom 0 none [] statement.toList).filterMap columnOf?

/-- The table of a name in an entry of the list of tables. -/
def tableOf? (name : String) (entry : List Value) : Option Table :=
  match entry with
  | [.text kind, .text given, _, .whole root, .text statement] =>
    if kind = "table" ∧ Text.lowerText given = name then
      some ⟨root.toNat, columnsOf statement⟩
    else none
  | _ => none

/-- The table of a name, which is given in lower case. -/
def Pages.table? (p : Pages) (name : String) : Option Table :=
  (p.rows 1).findSome? fun entry => tableOf? name entry.2

/-- The records of a table, by the names of its columns. -/
def Pages.tableRows (p : Pages) (t : Table) : List (Int × List (String × Value)) :=
  (p.rows t.root).map fun row => (row.1, t.columns.zip row.2)

end BotSpec.Storage
