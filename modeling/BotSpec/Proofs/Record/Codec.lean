import BotSpec.Proofs.Decimal.Text
import BotSpec.Proofs.Knowledge.Ingestion
import BotSpec.Proofs.ParamSet.Normalize

/-!
# Records survive their JSON

A record is written with its statistics beside the other fields, and read with every member taken as
it comes. The two are no mirror images: statistics are read leniently from their texts, parameters
are searched for wrappers, a blank type gives way to one in the parameters. All the same, a record
that was read from anywhere (`Obtained`) is read back:

> `read_back_of_obtained`: the record in a record's JSON is the record, with three things put right.
> It is no longer malformed, a type that is blank is empty, and a statistic that is zero has no
> minus sign.

The sign of a zero is the one thing that no reader of plain numbers keeps: `-0.4e-28` is read as
zero with a sign and 28 places, and what is written for it is read without the sign
(`zero_sign_is_lost`). Equality of records does not see it.
-/

namespace BotSpec

/-! ## Statistics -/

/-- A decimal is read back from its JSON. -/
theorem Decimal.ofJson?_toJson (d : Decimal) : ofJson? d.toJson = some d.dropZeroSign := d.ofText?_toText

/-- A count is read back from its JSON. -/
theorem countOfJson?_ofCount (n : UInt32) : countOfJson? (.ofCount n) = some n := by
  have hbound : (n.toNat : Int) < twoPow 32 := by exact_mod_cast n.toNat_lt
  show countOf? n.toNat = some n
  rw [countOf?, if_pos ⟨Int.natCast_nonneg _, hbound⟩, Int.toNat_natCast, UInt32.ofNat_toNat]

section Members

variable {member : Option Json}

/-- A decimal that is a member is read back, but for the sign of a zero. -/
theorem decimal_of_member {d : Decimal} (h : member = some d.toJson) :
    (member.bind Decimal.ofJson?).getD .zero = d.dropZeroSign := by
  rw [h, Option.bind_some, Decimal.ofJson?_toJson, Option.getD_some]

/-- An absent statistic is written as null, and null is no statistic. -/
theorem optional_of_member {d : Option Decimal} (h : member = some (Json.ofOption Decimal.toJson d)) :
    member.bind Decimal.ofJson? = d.map Decimal.dropZeroSign := by
  rw [h, Option.bind_some]
  cases d with
  | none => rfl
  | some d => exact d.ofJson?_toJson

/-- A count that is a member is read back. -/
theorem count_of_member {n : UInt32} (h : member = some (.ofCount n)) :
    (member.bind countOfJson?).getD 0 = n := by
  rw [h, Option.bind_some, countOfJson?_ofCount, Option.getD_some]

end Members

theorem SizingMode.parse_key (mode : SizingMode) : parse mode.key = mode := by
  cases mode <;> decide

namespace BacktestStats

/-- The statistics with a change made to every decimal. -/
def mapDecimals (f : Decimal → Decimal) (s : BacktestStats) : BacktestStats where
  netPnl := f s.netPnl
  grossPnl := f s.grossPnl
  totalFees := f s.totalFees
  winRate := f s.winRate
  totalTrades := s.totalTrades
  sharpeRatio := f s.sharpeRatio
  sortinoRatio := f s.sortinoRatio
  maxDrawdownPct := f s.maxDrawdownPct
  profitFactor := f s.profitFactor
  avgTradePnl := f s.avgTradePnl
  annualizedReturnPct := f s.annualizedReturnPct
  annualizedSharpe := f s.annualizedSharpe
  strategyConfidence := f s.strategyConfidence
  maxConsecutiveLosses := s.maxConsecutiveLosses
  avgWinPnl := f s.avgWinPnl
  avgLossPnl := f s.avgLossPnl
  totalVolume := f s.totalVolume
  compositeScore := f s.compositeScore
  hitRate := s.hitRate.map f
  avgLockedProfit := s.avgLockedProfit.map f

/-- Every decimal among the statistics. -/
def decimals (s : BacktestStats) : List Decimal :=
  [s.netPnl, s.grossPnl, s.totalFees, s.winRate, s.sharpeRatio, s.sortinoRatio, s.maxDrawdownPct, s.profitFactor,
    s.avgTradePnl, s.annualizedReturnPct, s.annualizedSharpe, s.strategyConfidence, s.avgWinPnl, s.avgLossPnl,
    s.totalVolume, s.compositeScore] ++ s.hitRate.toList ++ s.avgLockedProfit.toList

/-- A change that leaves every decimal as it is leaves the statistics as they are. -/
theorem mapDecimals_eq_self_iff {f : Decimal → Decimal} {s : BacktestStats} :
    s.mapDecimals f = s ↔ ∀ d ∈ s.decimals, f d = d := by
  obtain ⟨_, _, _, _, _, _, _, _, _, _, _, _, _, _, _, _, _, _, hitRate, avgLockedProfit⟩ := s
  cases hitRate <;> cases avgLockedProfit <;> simp [mapDecimals, decimals]

/-- A change that does nothing twice does nothing twice to all statistics. -/
theorem mapDecimals_mapDecimals {f : Decimal → Decimal} (hf : ∀ d, f (f d) = f d) (s : BacktestStats) :
    (s.mapDecimals f).mapDecimals f = s.mapDecimals f := by
  simp only [mapDecimals, hf, Option.map_map, Function.comp_def]

/-- A change that keeps the size of every decimal gives statistics that are equal as numbers. -/
theorem mapDecimals_beq {f : Decimal → Decimal} (hf : ∀ d, (f d == d) = true) (s : BacktestStats) :
    (s.mapDecimals f == s) = true := by
  obtain ⟨_, _, _, _, _, _, _, _, _, _, _, _, _, _, _, _, _, _, hitRate, avgLockedProfit⟩ := s
  show instBEqBacktestStats.beq _ _ = true
  cases hitRate <;> cases avgLockedProfit <;> simp [mapDecimals, instBEqBacktestStats.beq, hf]

end BacktestStats

namespace StrategyRecord

/-! ## Members -/

/-- The members that a record is written as. -/
def members (r : StrategyRecord) : List (String × Json) :=
  match r.toJson with
  | .object members => members
  | _ => []

/-- The names of all fields, in the order in which they are written. -/
def fieldNames : List String :=
  ["id", "strategy_name", "strategy_type", "strategy_params", "malformed_params", "symbol", "days", "sizing_mode",
    "net_pnl", "gross_pnl", "total_fees", "win_rate", "total_trades", "sharpe_ratio", "sortino_ratio",
    "max_drawdown_pct", "profit_factor", "avg_trade_pnl", "annualized_return_pct", "annualized_sharpe",
    "strategy_confidence", "max_consecutive_losses", "avg_win_pnl", "avg_loss_pnl", "total_volume", "composite_score",
    "hit_rate", "avg_locked_profit"]

theorem fieldNames_nodup : fieldNames.Nodup := by decide +kernel

/-- A field is found in the JSON of its record under its name. -/
theorem lookup_members (r : StrategyRecord) (i : Nat) {key : String} {v : Json}
    (h : r.members[i]? = some (key, v)) : Json.lookup key r.members = some v :=
  Json.lookup_eq_of_mem (show fieldNames.Nodup from fieldNames_nodup) (List.mem_of_getElem? h)

/-- The statistics of a record, read from its JSON. -/
theorem stats_ofMembers (r : StrategyRecord) :
    BacktestStats.ofMembers r.members = r.stats.mapDecimals Decimal.dropZeroSign := by
  have field := r.lookup_members
  simp only [BacktestStats.ofMembers, BacktestStats.mapDecimals, decimal_of_member (field 8 rfl),
    decimal_of_member (field 9 rfl), decimal_of_member (field 10 rfl), decimal_of_member (field 11 rfl),
    count_of_member (field 12 rfl), decimal_of_member (field 13 rfl), decimal_of_member (field 14 rfl),
    decimal_of_member (field 15 rfl), decimal_of_member (field 16 rfl), decimal_of_member (field 17 rfl),
    decimal_of_member (field 18 rfl), decimal_of_member (field 19 rfl), decimal_of_member (field 20 rfl),
    count_of_member (field 21 rfl), decimal_of_member (field 22 rfl), decimal_of_member (field 23 rfl),
    decimal_of_member (field 24 rfl), decimal_of_member (field 25 rfl), optional_of_member (field 26 rfl),
    optional_of_member (field 27 rfl)]

/-! ## Reading back -/

theorem embeddedType?_toJson (p : ParamSet) : embeddedType? p.toJson = none := by
  have hreal : ∀ entries : List (String × Float), ∀ v,
      Json.lookup "type" (entries.map fun e => (e.1, Json.real e.2)) = some v → ∃ x, v = .real x := by
    intro entries
    induction entries with
    | nil => intro v h; cases h
    | cons e rest ih =>
      intro v h
      rw [List.map_cons, Json.lookup] at h
      split at h
      · exact ⟨e.2, (Option.some.inj h).symm⟩
      · exact ih v h
  show embeddedType?.typeOf (p.entries.map fun e => (e.1, Json.real e.2)) = none
  rw [embeddedType?.typeOf]
  split
  next s h =>
    obtain ⟨x, hx⟩ := hreal p.entries _ h
    cases hx
  next => rfl

/-- What a record must be like to be read back. -/
structure Readable (r : StrategyRecord) : Prop where
  id_lt : ∀ n, r.id = some n → n < twoPow 63
  finite : r.params.Finite

/-- The record that is read back: it is not malformed, a blank type is empty, and no zero has a
sign. -/
def reread (r : StrategyRecord) : StrategyRecord :=
  { r with
    malformedParams := false
    type := if Text.isAllBlank r.type then "" else r.type
    stats := r.stats.mapDecimals Decimal.dropZeroSign }

/-- **A record that could have been read is read back from its JSON**, as far as it can be. -/
theorem Readable.ofJson_toJson {r : StrategyRecord} (hr : r.Readable) : ofJson r.toJson = .ok r.reread := by
  have field := r.lookup_members
  -- the JSON of a set is an object of numbers: never malformed, and without a type
  have hparams : readParams r.params.toJson = (r.params, false) := by
    rw [readParams, ParamSet.normalize?_toJson hr.finite]
  have htype : (((some r.type).filter fun t => !Text.isAllBlank t).or (embeddedType? r.params.toJson)).getD "" =
      if Text.isAllBlank r.type then "" else r.type := by
    rw [embeddedType?_toJson, Option.or_none, Option.filter_some]
    cases Text.isAllBlank r.type <;> rfl
  show ofMembers r.members = .ok r.reread
  simp only [ofMembers, field 0 rfl, readId_ofOption hr.id_lt, field 1 rfl, field 2 rfl, field 3 rfl, field 5 rfl,
    count_of_member (field 6 rfl), field 7 rfl, readText, bind, Except.bind, pure, Except.pure, Option.getD_some,
    Option.map_some, SizingMode.parse_key, stats_ofMembers, hparams, htype, reread]

/-! ## Records that were read -/

/-- Where records come from: the text of one, a value, or a row of a knowledge base. -/
inductive Obtained : StrategyRecord → Prop where
  | ofText {text : String} {r : StrategyRecord} (h : StrategyRecord.ofText text = .ok r) : Obtained r
  | ofJson {j : Json} {r : StrategyRecord} (h : StrategyRecord.ofJson j = .ok r) : Obtained r
  /-- Ids of rows fit 64 bits. -/
  | ofRow {row : BacktestRow} (h : ∀ n, row.id = some n → n < twoPow 63) : Obtained (StrategyRecord.ofRow row)

theorem readId_lt {j : Option Json} {n : Int} (h : readId j = .ok (some n)) : n < twoPow 63 := by
  unfold readId at h
  split at h
  next => cases h
  next => cases h
  next => split at h <;> cases h; assumption
  next => cases h

/-- Parameters that are read are finite, wherever they come from. -/
theorem finite_of_readParams (payload : Json) : (readParams payload).1.Finite := by
  unfold readParams
  split
  next p h => exact ParamSet.finite_of_normalize? h
  next => exact ParamSet.finite_empty

/-- A record that is read from members is readable again. -/
theorem readable_of_ofMembers {members : List (String × Json)} {r : StrategyRecord}
    (h : ofMembers members = .ok r) :
    r.Readable := by
  simp only [ofMembers, bind, Except.bind, pure, Except.pure] at h
  split at h
  · cases h
  next id hid =>
    -- four texts follow the id, and only then the record is made
    iterate 4
      split at h
      · cases h
    cases h
    refine ⟨?_, finite_of_readParams _⟩
    rintro n rfl
    exact readId_lt hid

theorem readable_ofRow {row : BacktestRow} (h : ∀ n, row.id = some n → n < twoPow 63) :
    (ofRow row).Readable := by
  refine ⟨h, ?_⟩
  show row.cells.readParams.1.Finite
  unfold BacktestCells.readParams
  split
  · exact ParamSet.finite_empty
  · exact finite_of_readParams _

theorem Obtained.readable {r : StrategyRecord} (h : r.Obtained) : r.Readable := by
  cases h with
  | ofText h =>
    unfold StrategyRecord.ofText at h
    split at h
    · split at h
      · cases h
      · split at h
        · exact readable_of_ofMembers h
        · cases h
    · split at h <;> cases h
  | ofJson h =>
    unfold StrategyRecord.ofJson at h
    split at h
    · exact readable_of_ofMembers h
    · cases h
  | ofRow h => exact readable_ofRow h

/-! ## The round trip -/

theorem reread_reread (r : StrategyRecord) : r.reread.reread = r.reread := by
  have htype : (if Text.isAllBlank r.reread.type then "" else r.reread.type) = r.reread.type := by
    unfold reread
    cases hblank : Text.isAllBlank r.type with
    | true => simp
    | false => simp [hblank]
  have hstats : r.reread.stats.mapDecimals Decimal.dropZeroSign = r.reread.stats :=
    BacktestStats.mapDecimals_mapDecimals Decimal.dropZeroSign_dropZeroSign r.stats
  rw [reread, htype, hstats]
  rfl

/-- What is read back can be read again. -/
theorem Readable.reread {r : StrategyRecord} (hr : r.Readable) : r.reread.Readable :=
  ⟨hr.id_lt, hr.finite⟩

/-- A type that is empty or not blank is kept. -/
theorem type_reread_eq_iff (r : StrategyRecord) :
    r.reread.type = r.type ↔ r.type = "" ∨ Text.isAllBlank r.type = false := by
  unfold reread
  cases hblank : Text.isAllBlank r.type with
  | true => exact ⟨fun h => .inl h.symm, fun h => (h.resolve_right (nomatch ·)).symm⟩
  | false => exact ⟨fun _ => .inr rfl, fun _ => rfl⟩

/-- What it takes that the record that is read back equals the record. -/
theorem Readable.reread_beq_iff {r : StrategyRecord} (hr : r.Readable) :
    (r.reread == r) = true ↔ r.malformedParams = false ∧ (r.type = "" ∨ Text.isAllBlank r.type = false) := by
  have hstats : (r.reread.stats == r.stats) = true := BacktestStats.mapDecimals_beq Decimal.dropZeroSign_beq r.stats
  rw [← type_reread_eq_iff]
  show (r.id == r.id && r.name == r.name && r.reread.type == r.type && r.params.entries == r.params.entries &&
    false == r.malformedParams && r.symbol == r.symbol && r.days == r.days && decide (r.sizing = r.sizing) &&
    r.reread.stats == r.stats) = true ↔ _
  simp only [beq_self_eq_true, ParamSet.entries_beq_self hr.finite, hstats, decide_true, Bool.and_true, Bool.true_and,
    Bool.and_eq_true, beq_iff_eq]
  rw [eq_comm (a := false), and_comm]

/-- What it takes that nothing is put right. -/
theorem reread_eq_self_iff (r : StrategyRecord) :
    r.reread = r ↔ r.malformedParams = false ∧ (r.type = "" ∨ Text.isAllBlank r.type = false) ∧
      ∀ d ∈ r.stats.decimals, ¬ (d.negative = true ∧ d.magnitude = 0) := by
  simp only [← Decimal.dropZeroSign_eq_self_iff]
  rw [← type_reread_eq_iff, ← BacktestStats.mapDecimals_eq_self_iff]
  constructor
  · intro h
    have hmalformed : false = r.malformedParams := congrArg malformedParams h
    have hstats : r.stats.mapDecimals Decimal.dropZeroSign = r.stats := congrArg stats h
    exact ⟨hmalformed.symm, congrArg type h, hstats⟩
  · rintro ⟨hmalformed, htype, hstats⟩
    calc r.reread
        = { r with
            malformedParams := false
            type := r.reread.type
            stats := r.stats.mapDecimals Decimal.dropZeroSign } := rfl
      _ = r := by rw [htype, hstats, ← hmalformed]

/-- **A record that was read is read back from its JSON.** It comes back as it was, but not
malformed, with a blank type empty and without the minus sign of a zero. What comes back is read
back unchanged.

The statistics that come back are equal as numbers; so the whole record comes back equal if and only
if it is not malformed and its type is empty or not blank. It comes back unchanged if besides no
zero had a minus sign. -/
theorem read_back_of_obtained {r : StrategyRecord} (h : r.Obtained) :
    ∃ r', ofJson r.toJson = .ok r' ∧ ofJson r'.toJson = .ok r' ∧
      r' = { r with
        malformedParams := false
        type := if Text.isAllBlank r.type then "" else r.type
        stats := r.stats.mapDecimals Decimal.dropZeroSign } ∧
      (r'.stats == r.stats) = true ∧
      ((r' == r) = true ↔ r.malformedParams = false ∧ (r.type = "" ∨ Text.isAllBlank r.type = false)) ∧
      (r' = r ↔ r.malformedParams = false ∧ (r.type = "" ∨ Text.isAllBlank r.type = false) ∧
        ∀ d ∈ r.stats.decimals, ¬ (d.negative = true ∧ d.magnitude = 0)) := by
  refine ⟨r.reread, h.readable.ofJson_toJson, ?_, rfl, ?_, h.readable.reread_beq_iff, r.reread_eq_self_iff⟩
  · rw [h.readable.reread.ofJson_toJson, reread_reread]
  · exact BacktestStats.mapDecimals_beq Decimal.dropZeroSign_beq r.stats

/-- A record with a zero that has a sign and 28 places. -/
theorem read_back_of_obtained_signedZero :
    let j : Json := .object [("strategy_name", .string "N"), ("strategy_type", .string "rsi"),
      ("hit_rate", .string "-0.4e-28")]
    ∃ r r', ofJson j = .ok r ∧ r.Obtained ∧ ofJson r.toJson = .ok r' ∧ ofJson r'.toJson = .ok r' ∧
      (r' == r) = true := by
  intro j
  obtain ⟨r, hr, hmalformed, htype⟩ : ∃ r, ofJson j = .ok r ∧ r.malformedParams = false ∧
      Text.isAllBlank r.type = false := ⟨_, rfl, rfl, by decide +kernel⟩
  have hobtained : r.Obtained := .ofJson hr
  obtain ⟨r', hread, hagain, -, -, hequal, -⟩ := read_back_of_obtained hobtained
  exact ⟨r, r', hr, hobtained, hread, hagain, hequal.mpr ⟨hmalformed, .inr htype⟩⟩

/-- **The sign of a zero is lost.** A record that is not malformed and whose type is not blank need
not come back unchanged: this one has a hit rate of zero with a minus sign, and the one that comes
back has none. -/
theorem zero_sign_is_lost :
    let j : Json := .object [("strategy_name", .string "N"), ("strategy_type", .string "rsi"),
      ("hit_rate", .string "-0.4e-28")]
    ∃ r r', ofJson j = .ok r ∧ r.malformedParams = false ∧ Text.isAllBlank r.type = false ∧
      ofJson r.toJson = .ok r' ∧ r'.stats.hitRate ≠ r.stats.hitRate := by
  intro j
  obtain ⟨r, hr, hmalformed, htype, hsign⟩ : ∃ r, ofJson j = .ok r ∧ r.malformedParams = false ∧
      Text.isAllBlank r.type = false ∧ r.reread.stats.hitRate ≠ r.stats.hitRate :=
    ⟨_, rfl, rfl, by decide +kernel, by decide +kernel⟩
  exact ⟨r, r.reread, hr, hmalformed, htype, (Obtained.ofJson hr).readable.ofJson_toJson, hsign⟩

end StrategyRecord

end BotSpec
