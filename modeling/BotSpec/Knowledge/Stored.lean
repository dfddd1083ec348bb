import BotSpec.Knowledge.Base
import BotSpec.Storage.Table

/-!
# Stored knowledge bases

A knowledge base is read from the bytes of a database file. A row that lacks a required column is
left out.
-/

namespace BotSpec

/-- What stands at the path of a knowledge base. -/
inductive StoredBase where
  | absent
  | directory
  /-- A file of another format. -/
  | foreign
  /-- A database without the table of backtests. -/
  | bare
  | found (base : KnowledgeBase)

namespace StoredBase

/-- The knowledge base at a path, or what is said if there is none. -/
def read (path : String) : StoredBase → Except String KnowledgeBase
  | absent => .error (absentBaseMessage path)
  | directory =>
    .error "Database connection error: error returned from database: (code: 14) unable to open database file"
  | foreign => .error "error returned from database: (code: 26) file is not a database"
  | bare => .error "error returned from database: (code: 1) no such table: discovery_backtests"
  | found kb => .ok kb

/-- A stored value as a cell. -/
def cellOf : Storage.Value → Cell
  | .null => .null
  | .whole n => .whole n
  | .fraction => .fraction
  | .text s => .text s
  | .illFormed bytes => .illFormed bytes
  | .blob bytes => .blob bytes

/-- The columns of a stored row. -/
def cellsOf? (row : List (String × Storage.Value)) : Option StoredCells :=
  ((filledSource (row.map fun v => (v.1, cellOf v.2))).cells).toOption

/-- The knowledge base in the bytes of a file. -/
def ofBytes (bytes : ByteArray) : StoredBase :=
  if bytes.isEmpty then bare
  else
    match Storage.Pages.ofBytes? bytes with
    | none => foreign
    | some pages =>
      match pages.table? "discovery_backtests" with
      | none => bare
      | some t =>
        let rows :=
          (pages.tableRows t).filterMap fun r => (cellsOf? r.2).map fun c => (r.1, c)
        found ⟨rows, rows.foldl (fun last r => max last r.1) 0⟩

end StoredBase

end BotSpec
