import BotSpec.Power
import BotSpec.Knowledge.Row
import BotSpec.Text.Number

/-!
# The knowledge base

A table of backtests. `insert` fills omitted columns with their defaults, checks the constraints of
the table and gives the row an id; `get?` finds a row by its id and fails only where a column of the
row cannot be read.

An id that is no whole number is refused first. Constraints are checked in the order in which SQLite
does: columns that must not be null in the order of the table, then the id, then the hash of the
parameters. A refused insert leaves the table as it was.
-/

namespace BotSpec

/-- A column of the table. -/
structure Column where
  name : String
  /-- Whether the column holds counts; otherwise it holds text. -/
  counts : Bool
  required : Bool
  /-- What an omitted column holds. -/
  default : Cell
  deriving DecidableEq

namespace Column

def requiredText (name : String) : Column := ⟨name, false, true, .null⟩
def statistic (name : String) : Column := ⟨name, false, true, .text "0"⟩
def optionalText (name : String) : Column := ⟨name, false, false, .null⟩

end Column

/-- The columns besides the id, in the order of the table. -/
def backtestColumns : List Column :=
  [.requiredText "params_hash", .requiredText "strategy_type", .requiredText "strategy_name",
    .requiredText "strategy_params", .requiredText "symbol", ⟨"days", true, true, .null⟩,
    .requiredText "sizing_mode", .statistic "composite_score", .statistic "net_pnl",
    .statistic "gross_pnl", .statistic "total_fees", .statistic "win_rate",
    ⟨"total_trades", true, true, .whole 0⟩, .statistic "sharpe_ratio", .statistic "max_drawdown_pct",
    .statistic "profit_factor", .statistic "avg_trade_pnl", .optionalText "hit_rate",
    .optionalText "avg_locked_profit", .optionalText "discovery_run_id", .optionalText "phase",
    .optionalText "sortino_ratio", ⟨"max_consecutive_losses", true, false, .null⟩,
    .optionalText "avg_win_pnl", .optionalText "avg_loss_pnl", .optionalText "total_volume",
    .optionalText "annualized_return_pct", .optionalText "annualized_sharpe",
    .optionalText "strategy_confidence"]

/-- A column that is kept for bookkeeping and never read. -/
def createdColumn : String := "created_at"

/-- Why a row is not inserted. -/
inductive InsertError where
  | unknownColumn (name : String)
  | nullColumn (name : String)
  | takenValue (column : String)
  /-- An id that is no whole number. -/
  | typeMismatch
  /-- The largest id is in use. -/
  | full
  deriving DecidableEq

def InsertError.message : InsertError → String
  | .unknownColumn name => s!"table discovery_backtests has no column named {name}"
  | .nullColumn name => s!"NOT NULL constraint failed: discovery_backtests.{name}"
  | .takenValue column => s!"UNIQUE constraint failed: discovery_backtests.{column}"
  | .typeMismatch => "datatype mismatch"
  | .full => "database or disk is full"

/-- A value as a column keeps it. -/
def Column.convert (c : Column) : Cell → Cell
  | .whole n => if c.counts then .whole n else .text (Text.intText n)
  | .text s => if c.counts then .ofNumeral s else .text s
  | v => v

/-- What is said of a knowledge base that does not exist. -/
def absentBaseMessage (path : String) : String :=
  s!"Database connection error: knowledge base not found: {path}"

/-- The values given for a row, by column. -/
abbrev GivenCells := List (String × Cell)

/-- The value given for a column. -/
def givenCell? (name : String) (given : GivenCells) : Option Cell :=
  (given.find? fun g => g.1 = name).map fun g => g.2

/-- What a column holds in a new row. -/
def Column.fill (c : Column) (given : GivenCells) : Except InsertError (String × Cell) := do
  let v := c.convert ((givenCell? c.name given).getD c.default)
  if c.required ∧ v = .null then .error (.nullColumn c.name) else return (c.name, v)

/-- A filled row as the source of its columns. -/
def filledSource (filled : GivenCells) : CellSource InsertError StoredText StoredCount where
  text name :=
    match (givenCell? name filled).bind Cell.storedText? with
    | some t => .ok t
    | none => .error (.nullColumn name)
  optionalText name := .ok ((givenCell? name filled).bind Cell.storedText?)
  count name :=
    match (givenCell? name filled).bind Cell.storedCount? with
    | some n => .ok n
    | none => .error (.nullColumn name)
  optionalCount name := .ok ((givenCell? name filled).bind Cell.storedCount?)

/-- A table of backtests by id. -/
structure KnowledgeBase where
  rows : List (Int × StoredCells)
  /-- The largest id that was ever in use, at least zero. -/
  lastId : Int

namespace KnowledgeBase

def empty : KnowledgeBase := ⟨[], 0⟩

instance : Inhabited KnowledgeBase := ⟨empty⟩

/-- The largest id. -/
def greatestId : Int := twoPow 63 - 1

/-- The id of a new row: the one that is given, else the one after the last. -/
def newId (kb : KnowledgeBase) (given : GivenCells) : Except InsertError Int :=
  match (Column.mk "id" true false .null).convert ((givenCell? "id" given).getD .null) with
  | .whole n => .ok n
  | .null => if kb.lastId < greatestId then .ok (kb.lastId + 1) else .error .full
  | _ => .error .typeMismatch

/-- The first given column that the table lacks. -/
def unknownColumn? (given : GivenCells) : Option String :=
  (given.map fun g => g.1).find? fun name =>
    !("id" :: createdColumn :: backtestColumns.map Column.name).contains name

/-- Adds a row and gives its id. -/
def insert (kb : KnowledgeBase) (given : GivenCells) : Except InsertError (Int × KnowledgeBase) := do
  if let some name := unknownColumn? given then .error (.unknownColumn name)
  else
    let id ← kb.newId given
    let filled ← backtestColumns.mapM fun c => c.fill given
    let cells ← (filledSource filled).cells
    if kb.rows.any fun r => r.1 = id then .error (.takenValue "id")
    else if kb.rows.any fun r => r.2.paramsHash = cells.paramsHash then
      .error (.takenValue "params_hash")
    else return (id, ⟨kb.rows ++ [(id, cells)], max kb.lastId id⟩)

/-- A row of the table with its columns read. -/
def readRow (row : Int × StoredCells) : Except Misfit BacktestRow := do
  return ⟨some row.1, ← row.2.read⟩

/-- The row of an id. -/
def get? (kb : KnowledgeBase) (id : Int) : Except Misfit (Option BacktestRow) :=
  (kb.rows.find? fun r => r.1 = id).mapM readRow

end KnowledgeBase

end BotSpec
