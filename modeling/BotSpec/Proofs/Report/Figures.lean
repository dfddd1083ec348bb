import BotSpec.Proofs.Decimal.Places
import BotSpec.Proofs.Decimal.Text
import BotSpec.Report.Sections

/-!
# What the statistics show

A specification is for a reader, and a decimal of 28 places is not. So a decimal is shown with four
places at most, rounded half to even, and without zeros at its end. The text is still a number that
can be read:

> `shownBy_shownDecimal`: the text of a decimal is read back as the decimal rounded to four places,
> which is at most half a unit of the fourth place away from it, in one written form.

The last section of a document has a line for each statistic of the record: what it is, its text and
its unit (`exists_statistics_body`). Statistics that only a record of an arbitrage has are left out
where they are absent.
-/

namespace BotSpec

/-! ## Decimals -/

/-- A text is that of a decimal rounded to four places, without needless zeros. -/
def Decimal.ShownBy (d : Decimal) (text : String) : Prop :=
  ∃ shown : Decimal, text = shown.toText ∧ Decimal.ofText? text = some shown ∧ shown.Normal ∧ shown.scale ≤ 4 ∧
    shown.value = (d.roundTo 4).value ∧ |shown.value - d.value| ≤ 1 / 20000

/-- **What is shown is read back as the decimal rounded to four places.** -/
theorem shownBy_shownDecimal (d : Decimal) : d.ShownBy (shownDecimal d) := by
  have hnormal : (d.roundTo 4).normalize.Normal := Decimal.normal_normalize _
  have hvalue : (d.roundTo 4).normalize.value = (d.roundTo 4).value := Decimal.value_normalize _
  refine ⟨(d.roundTo 4).normalize, rfl, ?_, hnormal, ?_, hvalue, ?_⟩
  · -- a zero has lost its sign before it is written
    have hsign : (d.roundTo 4).normalize.dropZeroSign = (d.roundTo 4).normalize :=
      Decimal.dropZeroSign_eq_self_iff.mpr fun h => hnormal.sign h.1 h.2
    rw [shownDecimal, Decimal.ofText?_toText, hsign]
  · exact (Decimal.dropZeros_bounds _ _).2.trans (Decimal.scale_roundTo_le 4 d)
  · have hfour : (1 : ℚ) / 2 / tenPow 4 = 1 / 20000 := by norm_num [tenPow]
    rw [hvalue, ← hfour]
    exact Decimal.abs_value_roundTo_sub_le 4 d

/-! ## Statistics -/

/-- What is shown of a backtest. -/
inductive Statistic where
  | amount (value : Decimal)
  /-- An amount for trades that win and one for those that lose. -/
  | amounts (win loss : Decimal)
  | count (value : Nat)

/-- A text shows a statistic: a count with all its digits, an amount rounded. -/
def Statistic.ShownBy : Statistic → String → Prop
  | .amount value, text => value.ShownBy text
  | .amounts win loss, text => ∃ winText lossText, win.ShownBy winText ∧ loss.ShownBy lossText ∧
      text = winText ++ " / " ++ lossText
  | .count value, text => text = toString value

/-- A statistic with its name and its unit. -/
structure Figure where
  caption : String
  statistic : Statistic
  unit : String

/-- A line shows a figure. -/
def Figure.ShownIn (f : Figure) (line : String) : Prop :=
  ∃ text, f.statistic.ShownBy text ∧ line = "- " ++ (f.caption ++ ": " ++ text ++ f.unit)

/-- Every statistic; one that is absent has no figure. -/
def BacktestStats.figures (s : BacktestStats) : List Figure :=
  [⟨"Net PnL", .amount s.netPnl, " USDC"⟩, ⟨"Gross PnL", .amount s.grossPnl, " USDC"⟩,
    ⟨"Fees paid", .amount s.totalFees, " USDC"⟩, ⟨"Trades", .count s.totalTrades.toNat, ""⟩,
    ⟨"Win rate", .amount s.winRate, "%"⟩, ⟨"Sharpe", .amount s.sharpeRatio, ""⟩,
    ⟨"Sortino", .amount s.sortinoRatio, ""⟩, ⟨"Max drawdown", .amount s.maxDrawdownPct, "%"⟩,
    ⟨"Profit factor", .amount s.profitFactor, ""⟩, ⟨"Average trade", .amount s.avgTradePnl, " USDC"⟩,
    ⟨"Average win / loss", .amounts s.avgWinPnl s.avgLossPnl, " USDC"⟩,
    ⟨"Max consecutive losses", .count s.maxConsecutiveLosses.toNat, ""⟩,
    ⟨"Annualized return", .amount s.annualizedReturnPct, "%"⟩,
    ⟨"Annualized Sharpe", .amount s.annualizedSharpe, ""⟩, ⟨"Volume", .amount s.totalVolume, " USDC"⟩,
    ⟨"Confidence", .amount s.strategyConfidence, ""⟩, ⟨"Composite score", .amount s.compositeScore, ""⟩] ++
  (s.hitRate.map fun x => Figure.mk "Hit rate" (.amount x) "%").toList ++
  (s.avgLockedProfit.map fun x => Figure.mk "Average locked profit" (.amount x) " per pair").toList

/-- The text that stands for a statistic. -/
def Statistic.text : Statistic → String
  | .amount value => shownDecimal value
  | .amounts win loss => shownDecimal win ++ " / " ++ shownDecimal loss
  | .count value => toString value

theorem Statistic.shownBy_text (s : Statistic) : s.ShownBy s.text := by
  cases s with
  | amount value => exact shownBy_shownDecimal value
  | amounts win loss => exact ⟨_, _, shownBy_shownDecimal win, shownBy_shownDecimal loss, rfl⟩
  | count value => rfl

/-- The line of a figure. -/
def Figure.line (f : Figure) : String := "- " ++ (f.caption ++ ": " ++ f.statistic.text ++ f.unit)

theorem Figure.shownIn_line (f : Figure) : f.ShownIn f.line := ⟨_, f.statistic.shownBy_text, rfl⟩

/-! ## The section -/

/-- The lines of a section below its heading. -/
def Section.body (s : Section) : List String := s.blocks.flatMap Block.lines

namespace Brief

variable (b : Brief)

/-- The last section is one line on the backtest and a line for every figure. -/
theorem statistics_body :
    b.statistics.body =
      s!"Backtest over {b.record.days} days, sizing {b.record.sizing.key}." :: b.record.stats.figures.map Figure.line := by
  have htext (text : String) : toString text = text := rfl
  have hcount (n : UInt32) : toString n.toNat = toString n := rfl
  simp only [Section.body, statistics, pairStatistics, BacktestStats.figures]
  cases b.record.stats.hitRate <;> cases b.record.stats.avgLockedProfit <;>
    simp [Block.lines, Figure.line, Statistic.text, shownPercent, String.append_assoc, htext, hcount]

/-- **The last section shows every statistic**, one in a line. -/
theorem exists_statistics_body :
    ∃ first lines, b.statistics.body = first :: lines ∧ List.Forall₂ Figure.ShownIn b.record.stats.figures lines := by
  refine ⟨_, _, b.statistics_body, ?_⟩
  rw [List.forall₂_map_right_iff, List.forall₂_same]
  exact fun f _ => f.shownIn_line

end Brief

end BotSpec
