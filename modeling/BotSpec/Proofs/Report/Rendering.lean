import BotSpec.Proofs.Report.Figures
import BotSpec.Proofs.Strategy.PairQuote
import BotSpec.Report.Rendered

/-!
# Every record has a specification

A record may hold any texts, any parameters and statistics of any size. On the standard terms it can
be rendered all the same, and what comes out has the parts that it should have:

> `rendering_is_total`: table and document exist for every record, every length of candles and every
> source of them.

Of all calculations that a rendering makes, most are about the terms alone and have one outcome. The
breaker of the drawdown stays at the largest decimal. What is left is the worked example of an
arbitrage, whose settings are stored parameters: on a candle that does not move the bids are 49
points less the offset, and even the largest negative offset leaves a bid that rounds to a decimal
(`exists_fill_eq_ok`).
-/

namespace BotSpec

/-! ## The worked example of a pair -/

namespace PairQuote

/-- A bid exists for every offset if the middle less half the spread is below one half. -/
theorem exists_fill_eq_ok {mid half : Decimal} (offset : Decimal)
    (hsmall : |mid.value - half.value| < 1 / 2) :
    ∃ price, fill mid half offset = .ok price := by
  obtain ⟨level, hlevel⟩ := Decimal.exists_sub_eq_ok (a := mid) (b := half)
    (hsmall.trans (by norm_num [twoPow]))
  have hvalue : level.value = mid.value - half.value :=
    Decimal.value_of_sub hlevel (hsmall.le.trans (by norm_num))
  obtain ⟨bid, hbid⟩ := Decimal.exists_sub_eq_ok (a := level) (b := offset) (by
    calc |level.value - offset.value| ≤ |level.value| + |offset.value| := abs_sub _ _
      _ < 1 / 2 + (twoPow 96 - 1) := add_lt_add_of_lt_of_le (hvalue ▸ hsmall) offset.abs_value_le
      _ = twoPow 96 - 1 / 2 := by ring)
  refine ⟨SharePrice.clamp bid, ?_⟩
  rw [fill, hlevel]
  show (level.sub offset >>= fun bid => pure (SharePrice.clamp bid)) = _
  rw [hbid]
  rfl

/-- A candle that does not move has a quote, whatever the settings are. -/
theorem exists_quote_flatCandle (p : PairParams) : ∃ q, quote flatCandle p = .ok q := by
  -- without a move the middle prices are even, and without a range the spread is at its floor
  have hrelative : relative flatCandle = .ok (.zero, .zero) := rfl
  have hscaled : Decimal.zero.mul moveScale = .ok .zero := rfl
  have hyesMid : SharePrice.even.add (Decimal.zero.clamp moveLimit.neg moveLimit) = .ok SharePrice.even := rfl
  have hnoMid : Decimal.one.sub SharePrice.even = .ok SharePrice.even := rfl
  have hwidened : Decimal.zero.mul p.spreadMultiplier = .ok .zero := Decimal.mul_of_magnitude_eq_zero rfl
  have hspread : Decimal.zero.clamp spreadFloor spreadCeiling = spreadFloor := rfl
  have hhalf : spreadFloor.div .two = .ok (.ofDigits 100000000000000000000000000 28) := by decide +kernel
  obtain ⟨hlow, hhigh⟩ := half_bounds value_spreadFloor.ge (by rw [value_spreadFloor]; norm_num) hhalf
  have hbid : |SharePrice.even.value - (Decimal.ofDigits 100000000000000000000000000 28).value| < 1 / 2 := by
    rw [SharePrice.value_even, abs_lt]
    constructor <;> linarith
  -- from here on the offset is any decimal, but a fill is a price again
  obtain ⟨fill, hfill⟩ := exists_fill_eq_ok p.bidOffset hbid
  obtain ⟨hfillLow, hfillHigh, -⟩ := fill_bounds (hbid.le.trans (by norm_num)) hfill
  have hpair : |fill.value + fill.value| ≤ 7 := by
    rw [abs_le]
    constructor <;> linarith
  obtain ⟨cost, hcost⟩ := Decimal.exists_add_eq_ok (hpair.trans_lt (by norm_num [twoPow]))
  have hcostValue := Decimal.value_of_add hcost hpair
  obtain ⟨profit, hprofit⟩ := Decimal.exists_sub_eq_ok (a := .one) (b := cost) (by
    rw [Decimal.value_one, hcostValue, abs_lt]
    constructor <;> norm_num [twoPow] <;> linarith)
  simp only [quote, hrelative, hscaled, hyesMid, hnoMid, hwidened, hspread, hhalf, hfill, hcost, bind, Except.bind,
    pure, Except.pure]
  cases decide cost p.maxPairCost with
  | trade => exact ⟨_, by rw [hprofit]⟩
  | skip => exact ⟨_, rfl⟩

end PairQuote

/-! ## Standard terms -/

/-- The standard fee of a hundred shares at one half. -/
theorem greatestFee_standard : FeeModel.standard.greatestFee .hundred = .ok (.ofDigits 15625 4) := by
  decide +kernel

/-- The standard fees can be described. -/
theorem exists_describe_standard : ∃ lines, FeeModel.standard.describe = .ok lines :=
  exists_of_isOk (by decide +kernel)

/-- The record on the standard terms, for candles of any length and from any source. -/
def StrategyRecord.standardBrief (r : StrategyRecord) (interval dataSource : String) : Brief :=
  ⟨r, { SpecTerms.standard with settings := { BotSettings.standard with interval, dataSource } }⟩

namespace Brief

variable (r : StrategyRecord) (interval dataSource : String)

/-- On the standard terms a side of a pair has 500 dollars. -/
theorem pairSide_standardBrief : (r.standardBrief interval dataSource).pairSide = .ok (.ofDigits 50000 2) := by
  show pairSideSize BotSettings.standard.capital BotSettings.standard.basePercent = _
  decide +kernel

/-- On a rise of one percent a thousand buys 1818.18 shares at 55 points. -/
theorem exists_entryExample_standardBrief :
    ∃ text, (r.standardBrief interval dataSource).entryExample = .ok text := by
  have hbudget : BotSettings.standard.capital.mul BotSettings.standard.basePercent = .ok (.ofDigits 100000 0) := by
    decide +kernel
  have hposition : (Decimal.ofDigits 100000 0).div .hundred = .ok (.ofDigits 10000000000000000000000000000 25) := by
    decide +kernel
  have hodds : settlementOdds .hundred (.ofDigits 101 0) = .ok (.ofDigits 5500 4) := by decide +kernel
  have hshares : (Decimal.ofDigits 10000000000000000000000000000 25).div (.ofDigits 5500 4)
      = .ok (.ofDigits 18181818181818181818181818182 25) := by decide +kernel
  have hfee : FeeModel.standard.fee ((Decimal.ofDigits 18181818181818181818181818182 25).roundTo 2) (.ofDigits 5500 4)
      = .ok (.ofDigits 278437 4) := by decide +kernel
  exact exists_bind_eq_ok hbudget <| exists_bind_eq_ok hposition <| exists_bind_eq_ok hodds <|
    exists_bind_eq_ok hshares <| exists_bind_eq_ok hfee ⟨_, rfl⟩

/-- A quote that a document shows is that of a candle that does not move. -/
theorem exists_pairExample (s : Subject) : ∃ blocks, pairExample s = .ok blocks := by
  unfold pairExample
  split
  · exact ⟨_, rfl⟩
  · split
    · exact ⟨_, rfl⟩
    · rename_i p _
      obtain ⟨q, hq⟩ := PairQuote.exists_quote_flatCandle p
      exact exists_bind_eq_ok hq ⟨_, rfl⟩

/-- The section on orders exists for every record, of whatever type. -/
theorem exists_execution_standardBrief :
    ∃ blocks, (r.standardBrief interval dataSource).execution = .ok ⟨"Market execution", blocks⟩ := by
  obtain ⟨example_, hexample⟩ := exists_entryExample_standardBrief r interval dataSource
  have hdirectional : ∃ blocks, (r.standardBrief interval dataSource).directionalExecution = .ok blocks :=
    exists_bind_eq_ok hexample ⟨_, rfl⟩
  have harbitrage (s : Subject) : ∃ blocks, (r.standardBrief interval dataSource).arbitrageExecution s = .ok blocks := by
    obtain ⟨quoted, hquoted⟩ := exists_pairExample s
    exact exists_bind_eq_ok (pairSide_standardBrief r interval dataSource) <| exists_bind_eq_ok hquoted ⟨_, rfl⟩
  unfold execution
  cases (r.standardBrief interval dataSource).subject with
  | error unknown => exact ⟨_, rfl⟩
  | ok s =>
    by_cases harb : s.variant.isArbitrage = true
    · obtain ⟨blocks, hblocks⟩ := harbitrage s
      exact ⟨blocks, by simp only [harb, if_true, hblocks]; rfl⟩
    · obtain ⟨blocks, hblocks⟩ := hdirectional
      exact ⟨blocks, by simp only [harb, hblocks]; rfl⟩

theorem exists_feeSection_standardBrief :
    ∃ blocks, (r.standardBrief interval dataSource).feeSection = .ok ⟨"Fees", blocks⟩ := by
  obtain ⟨lines, hlines⟩ := exists_describe_standard
  refine ⟨[.bullets lines], ?_⟩
  show (FeeModel.standard.describe >>= fun lines => pure (Section.mk "Fees" [.bullets lines])) = _
  rw [hlines]
  rfl

end Brief

/-! ## What a rendering shows -/

/-- A document is its front and then, section by section, the heading and the body. -/
theorem Document.lines_eq (d : Document) :
    d.lines = ("# " ++ d.heading) :: d.warningLines ++
      ((d.sections.mapIdx fun i s => s.heading (i + 1)).zip (d.sections.map Section.body)).flatMap
        fun part => "" :: part.1 :: "" :: part.2 := by
  rw [lines, List.zip_map_right, List.flatMap]
  congr 2
  apply List.ext_getElem <;> simp [Section.lines, Section.body]

/-- The titles of the sections. -/
def Document.titles : List String :=
  ["Strategy identity", "Data source", "Indicator computation", "Signal logic", "Market execution", "Fees",
    "Risk management", "Control loop", "Backtest statistics"]

/-- The titles with their numbers, as a document has them. -/
def Document.headings : List String :=
  ["## 1. Strategy identity", "## 2. Data source", "## 3. Indicator computation", "## 4. Signal logic",
    "## 5. Market execution", "## 6. Fees", "## 7. Risk management", "## 8. Control loop", "## 9. Backtest statistics"]

/-- The rows of the parameters: those that the registry has for the type, or what is stored for an
unknown type. -/
def StrategyRecord.shownParameters (r : StrategyRecord) : List SpecRow :=
  match Variant.resolve r.type with
  | .ok v => v.schema.map fun spec => ⟨spec.name, optionalText (spec.keys.findSome? r.params.get?), spec.description⟩
  | .error _ => r.params.entries.map fun e => ⟨e.1, valueText e.2, "Not in the registry; shown as stored"⟩

/-- The first cells of the rows that say what a bot does. -/
def StrategyRecord.shownActions (r : StrategyRecord) : List String :=
  match Variant.resolve r.type with
  | .ok v => if v.isArbitrage then ["TRADE", "SKIP", "Settlement"] else ["BUY", "SELL", "HOLD"]
  | .error _ => ["Actions"]

namespace Brief

variable (b : Brief)

/-- A parameter of the type takes the value of the first of its spellings that is stored. -/
theorem parameterRows_eq : b.parameterRows = b.record.shownParameters := by
  simp only [parameterRows, subject, StrategyRecord.subject, StrategyRecord.shownParameters]
  cases Variant.resolve b.record.type with
  | error unknown => rfl
  | ok v =>
    simp only [CanonicalParams.all, Variant.canonicalize, Variant.schema, List.map_flatMap, List.flatMap_map]
    refine List.flatMap_congr fun c _ => ?_
    simp only [Component.bind, List.map_map]
    rfl

/-- The rows of the actions exist if the size of a pair's side does. -/
theorem exists_actionRows {side : Decimal} (hside : b.pairSide = .ok side) :
    ∃ rows, b.actionRows = .ok rows ∧ rows.map SpecRow.parameter = b.record.shownActions := by
  simp only [actionRows, subject, StrategyRecord.subject, StrategyRecord.shownActions]
  cases Variant.resolve b.record.type with
  | error unknown => exact ⟨_, rfl, rfl⟩
  | ok v =>
    by_cases harb : v.isArbitrage = true
    · simp only [harb, hside, if_true]
      exact ⟨_, rfl, rfl⟩
    · simp only [harb]
      exact ⟨_, rfl, rfl⟩

/-- A table of the standard fees has the rate and the fee of a hundred shares. -/
theorem exists_feeRows (hfees : b.terms.fees = FeeModel.standard) :
    ∃ rows, b.feeRows = .ok rows ∧ rows.map SpecRow.parameter = ["Fee rate", "Max fee / 100 shares"] := by
  simp only [feeRows, hfees, greatestFee_standard]
  exact ⟨_, rfl, rfl⟩

/-- A table is written once its actions and fees are. -/
theorem render_table {actions fees : List SpecRow} (hactions : b.actionRows = .ok actions)
    (hfees : b.feeRows = .ok fees) :
    ∃ t, b.render .table = .ok (.table t) ∧
      t.rows = b.strategyRows ++ b.compositionRows ++ b.record.shownParameters ++ actions ++ fees ++ b.breakerRows := by
  simp only [render, table, hactions, hfees, parameterRows_eq]
  exact ⟨_, rfl, rfl⟩

/-- A document is written once its two sections with examples are. -/
theorem render_document {execution fees : List Block} (hexecution : b.execution = .ok ⟨"Market execution", execution⟩)
    (hfees : b.feeSection = .ok ⟨"Fees", fees⟩) :
    ∃ front bodies,
      b.render .document =
        .ok (.document (String.join ((front ++ (Document.headings.zip bodies).flatMap
          fun part => "" :: part.1 :: "" :: part.2).map fun line => line ++ "\n"))) ∧
        bodies.length = Document.headings.length ∧ bodies.getLast? = some b.statistics.body := by
  let d : Document :=
    { heading := s!"Bot specification: {b.record.name}"
      warnings := b.record.diagnostics.map Diagnostic.message
      sections :=
        [b.identity, b.dataSource, b.computation, b.signalLogic, ⟨"Market execution", execution⟩, ⟨"Fees", fees⟩, b.risk,
          b.controlLoop, b.statistics] }
  have hdocument : b.document = .ok d := by
    simp only [document, hexecution, hfees]
    rfl
  have hheadings : (d.sections.mapIdx fun i s => s.heading (i + 1)) = Document.headings :=
    calc (d.sections.mapIdx fun i s => s.heading (i + 1))
        = Document.titles.mapIdx fun i title => s!"## {i + 1}. {title}" := rfl
      _ = Document.headings := by decide +kernel
  refine ⟨("# " ++ d.heading) :: d.warningLines, d.sections.map Section.body, ?_, rfl, rfl⟩
  rw [← hheadings, ← Document.lines_eq, render]
  simp only [hdocument]
  rfl

end Brief

/-- On the standard terms every record has a table and a document, for candles of any length and
from any source.

The table has the rows of the parameters, then those of the actions, the fees and the breakers. The
document has the nine headings in their order, and the last section has a line for every statistic,
whose text is read back as the statistic rounded to four places. -/
theorem rendering_is_total (r : StrategyRecord) (interval dataSource : String) :
    (∃ t front actions fees breakers,
      (r.standardBrief interval dataSource).render .table = .ok (.table t) ∧
        t.rows = front ++ r.shownParameters ++ actions ++ fees ++ breakers ∧
        actions.map SpecRow.parameter = r.shownActions ∧
        fees.map SpecRow.parameter = ["Fee rate", "Max fee / 100 shares"] ∧
        breakers.map SpecRow.parameter = ["Breaker drawdown", "Breaker loss streak"]) ∧
    ∃ front bodies first lines,
      (r.standardBrief interval dataSource).render .document =
        .ok (.document (String.join ((front ++ (Document.headings.zip bodies).flatMap
          fun part => "" :: part.1 :: "" :: part.2).map fun line => line ++ "\n"))) ∧
        bodies.length = Document.headings.length ∧
        bodies.getLast? = some (first :: lines) ∧ List.Forall₂ Figure.ShownIn r.stats.figures lines := by
  constructor
  · obtain ⟨actions, hactions, hactionNames⟩ :=
      Brief.exists_actionRows _ (Brief.pairSide_standardBrief r interval dataSource)
    obtain ⟨fees, hfees, hfeeNames⟩ := (r.standardBrief interval dataSource).exists_feeRows rfl
    obtain ⟨t, ht, hrows⟩ := Brief.render_table _ hactions hfees
    exact ⟨t, _, actions, fees, _, ht, hrows, hactionNames, hfeeNames, rfl⟩
  · obtain ⟨execution, hexecution⟩ := Brief.exists_execution_standardBrief r interval dataSource
    obtain ⟨fees, hfees⟩ := Brief.exists_feeSection_standardBrief r interval dataSource
    obtain ⟨front, bodies, htext, hlength, hlast⟩ := Brief.render_document _ hexecution hfees
    obtain ⟨first, lines, hbody, hshown⟩ := (r.standardBrief interval dataSource).exists_statistics_body
    exact ⟨front, bodies, first, lines, htext, hlength, hlast.trans (congrArg some hbody), hshown⟩

end BotSpec
