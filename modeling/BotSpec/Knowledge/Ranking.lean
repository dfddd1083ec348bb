import BotSpec.Knowledge.Base
import BotSpec.Knowledge.Numeral

/-!
# The best strategies

`KnowledgeBase.top` lists the best row of each strategy name by one of three statistics. A statistic
is stored as text and compared as the number at its front; the double that the table reads there
decides, so digits beyond a double's precision do not. Bytes in the place of a text are compared as
the number at their front, too, and are a name of their own.
-/

namespace BotSpec

/-- A statistic that strategies are ranked by. -/
inductive RankBy where
  | compositeScore
  | netPnl
  | winRate
  deriving DecidableEq

/-- The statistic that a name asks for; any other name asks for the composite score. -/
def RankBy.ofName (name : Option String) : RankBy :=
  if name = some "net_pnl" then .netPnl
  else if name = some "win_rate" then .winRate
  else .compositeScore

/-- What a row holds for the statistic. -/
def RankBy.text (r : RankBy) (c : StoredCells) : StoredText :=
  match r with
  | .compositeScore => c.compositeScore
  | .netPnl => c.netPnl
  | .winRate => c.winRate

/-- The position among the doubles of the numeral at the front of a text, zero for a text without
one. -/
def rankPosition (text : StoredText) : Int :=
  match Numeral.front? text.chars with
  | some (n, _) => n.position
  | none => 0

namespace KnowledgeBase

/-- What a row is ranked by. -/
def position (by_ : RankBy) (row : Int × StoredCells) : Int := rankPosition (by_.text row.2)

/-- Whether a row comes before another: the larger statistic first, of equal ones the smaller id. -/
def precedes (by_ : RankBy) (a b : Int × StoredCells) : Bool :=
  position by_ b < position by_ a || (position by_ a = position by_ b && a.1 ≤ b.1)

/-- The first row of each name. -/
def firstOfNames : List StoredText → List (Int × StoredCells) → List (Int × StoredCells)
  | _, [] => []
  | seen, r :: rest =>
    if seen.contains r.2.strategyName then firstOfNames seen rest
    else r :: firstOfNames (r.2.strategyName :: seen) rest

/-- At most `limit` rows; a negative limit is none. -/
def takeLimit {β : Type} (limit : Int) (rows : List β) : List β :=
  if limit < 0 then rows else rows.take limit.toNat

/-- The best row of each strategy name, the best one first, as the table holds them. -/
def best (kb : KnowledgeBase) (by_ : RankBy) : List (Int × StoredCells) :=
  firstOfNames [] (kb.rows.mergeSort (precedes by_))

/-- The first rows among the best. One column that cannot be read fails the whole list. -/
def top (kb : KnowledgeBase) (limit : Int) (sortBy : Option String) : Except Misfit (List BacktestRow) :=
  (takeLimit limit (kb.best (.ofName sortBy))).mapM readRow

end KnowledgeBase

end BotSpec
