import BotSpec.Proofs.Decimal.Arithmetic
import BotSpec.Proofs.Market.Price
import BotSpec.Proofs.Outcome
import BotSpec.Strategy.PairQuote

/-!
# A quote never locks in a loss

A pair of shares pays one. So the arbitrage is safe if what is offered as the cost of a pair is what
the two fills cost, to the last place, and if a bought pair costs less than one:

> `quote_never_locks_a_loss`: both hold of every candle and all settings, whenever there is a quote.

Prices are between zero and one and spreads below a tenth, so no sum of them needs more than 28
places and 96 bits: they are exact (`value_of_add`, `value_of_sub`). What is rounded is the move and
the range of the candle, half the spread, and a bid with a large offset. The first two are clamped
afterwards. Half of a spread of at least two points is at least one point even when it is rounded,
and a bid below its middle price stays below it (`fill_bounds`); this is all that the bound on the
cost needs.
-/

namespace BotSpec

namespace PairQuote

open Decimal (value_neg value_one value_two value_of_add value_of_sub rounds_of_sub rounds_of_div)

theorem value_moveLimit : moveLimit.value = 2 / 5 := by
  norm_num [Decimal.value_of_literal (a := moveLimit) (n := 40) (d := 100) rfl rfl rfl]

theorem value_spreadFloor : spreadFloor.value = 1 / 50 := by
  norm_num [Decimal.value_of_literal (a := spreadFloor) (n := 2) (d := 100) rfl rfl rfl]

theorem value_spreadCeiling : spreadCeiling.value = 1 / 10 := by
  norm_num [Decimal.value_of_literal (a := spreadCeiling) (n := 10) (d := 100) rfl rfl rfl]

/-- The spread has its floor below its ceiling. -/
theorem spread_limits : spreadFloor.value ≤ spreadCeiling.value := by
  rw [value_spreadFloor, value_spreadCeiling]
  norm_num

/-! ## Steps of a quote -/

variable {c : Candle} {p : PairParams} {q : PairQuote}

/-- All that is computed on the way to a quote. -/
theorem quote_eq_ok (h : quote c p = .ok q) :
    ∃ move range scaled widened half,
      relative c = .ok (move, range) ∧
      move.mul moveScale = .ok scaled ∧
      SharePrice.even.add (scaled.clamp moveLimit.neg moveLimit) = .ok q.yesMid ∧
      Decimal.one.sub q.yesMid = .ok q.noMid ∧
      range.mul p.spreadMultiplier = .ok widened ∧
      q.spread = widened.clamp spreadFloor spreadCeiling ∧
      q.spread.div .two = .ok half ∧
      fill q.yesMid half p.bidOffset = .ok q.yesFill ∧
      fill q.noMid half p.bidOffset = .ok q.noFill ∧
      q.yesFill.add q.noFill = .ok q.pairCost ∧
      q.decision = decide q.pairCost p.maxPairCost ∧
      (q.decision = .trade → Decimal.one.sub q.pairCost = .ok q.lockedProfit) ∧
      (q.decision = .skip → q.lockedProfit = Decimal.zero) := by
  unfold quote at h
  obtain ⟨⟨move, range⟩, hrelative, h⟩ := exists_of_bind_eq_ok h
  obtain ⟨scaled, hscaled, h⟩ := exists_of_bind_eq_ok h
  obtain ⟨yesMid, hyesMid, h⟩ := exists_of_bind_eq_ok h
  obtain ⟨noMid, hnoMid, h⟩ := exists_of_bind_eq_ok h
  obtain ⟨widened, hwidened, h⟩ := exists_of_bind_eq_ok h
  obtain ⟨half, hhalf, h⟩ := exists_of_bind_eq_ok h
  obtain ⟨yesFill, hyesFill, h⟩ := exists_of_bind_eq_ok h
  obtain ⟨noFill, hnoFill, h⟩ := exists_of_bind_eq_ok h
  obtain ⟨pairCost, hpairCost, h⟩ := exists_of_bind_eq_ok h
  cases hdecision : decide pairCost p.maxPairCost with
  | trade =>
    simp only [hdecision] at h
    obtain ⟨lockedProfit, hlockedProfit, h⟩ := exists_of_bind_eq_ok h
    cases h
    exact ⟨move, range, scaled, widened, half, hrelative, hscaled, hyesMid, hnoMid, hwidened, rfl, hhalf,
      hyesFill, hnoFill, hpairCost, hdecision.symm, fun _ => hlockedProfit, (nomatch ·)⟩
  | skip =>
    simp only [hdecision] at h
    cases h
    exact ⟨move, range, scaled, widened, half, hrelative, hscaled, hyesMid, hnoMid, hwidened, rfl, hhalf,
      hyesFill, hnoFill, hpairCost, hdecision.symm, (nomatch ·), fun _ => rfl⟩

/-- A pair is traded exactly if it costs less than the ceiling. -/
theorem decide_eq_trade_iff {pairCost maxPairCost : Decimal} :
    decide pairCost maxPairCost = .trade ↔ pairCost.value < maxPairCost.value := by
  rw [← Decimal.lt_iff_value_lt]
  unfold decide
  split
  · next hlt => exact ⟨fun _ => hlt, fun _ => rfl⟩
  · next hge => exact ⟨(nomatch ·), fun hlt => absurd hlt hge⟩

/-- Half of a spread: rounding does not move it out of one to five points. -/
theorem half_bounds {spread half : Decimal} (hlow : 1 / 50 ≤ spread.value) (hhigh : spread.value ≤ 1 / 10)
    (h : spread.div .two = .ok half) : 1 / 100 ≤ half.value ∧ half.value ≤ 1 / 20 := by
  have hrounds := rounds_of_div h
  rw [value_two] at hrounds
  have hpoint : (Decimal.ofDigits 1 2).value = 1 / 100 := by
    norm_num [Decimal.value_of_literal (a := .ofDigits 1 2) (n := 1) (d := 100) rfl rfl rfl]
  constructor
  · rw [← hpoint]
    exact hrounds.ge_of_ge (.ofDigits 1 2) (by decide) (by rw [hpoint]; linarith)
  · rw [← SharePrice.value_lowest]
    exact hrounds.le_of_le SharePrice.lowest (by decide) (by rw [SharePrice.value_lowest]; linarith)

/-- A fill is a price. An offset takes the bid down from the middle less half the spread, never up. -/
theorem fill_bounds {mid half offset price : Decimal} (hsmall : |mid.value - half.value| ≤ 7)
    (h : fill mid half offset = .ok price) :
    1 / 20 ≤ price.value ∧ price.value ≤ 19 / 20 ∧
      (0 ≤ offset.value → price.value ≤ max (1 / 20) (mid.value - half.value)) := by
  unfold fill at h
  obtain ⟨level, hlevel, h⟩ := exists_of_bind_eq_ok h
  obtain ⟨bid, hbid, h⟩ := exists_of_bind_eq_ok h
  cases h
  have hvalue : level.value = mid.value - half.value := value_of_sub hlevel hsmall
  obtain ⟨hlow, hhigh⟩ := SharePrice.clamp_mem bid
  refine ⟨hlow, hhigh, ?_⟩
  intro hoffset
  have hbelow : bid.value ≤ level.value :=
    (rounds_of_sub hbid).le_of_le level (le_max_left _ _) (by linarith)
  rw [SharePrice.value_clamp, ← hvalue]
  exact max_le_max le_rfl ((min_le_right _ _).trans hbelow)

/-! ## The quote -/

/-- Both middle prices exist, and are off one half by the clamped move, exactly. -/
theorem exists_mids (scaled : Decimal) :
    ∃ yes no, SharePrice.even.add (scaled.clamp moveLimit.neg moveLimit) = .ok yes ∧ Decimal.one.sub yes = .ok no ∧
      |(scaled.clamp moveLimit.neg moveLimit).value| ≤ 2 / 5 ∧
      yes.value = 1 / 2 + (scaled.clamp moveLimit.neg moveLimit).value ∧
      no.value = 1 / 2 - (scaled.clamp moveLimit.neg moveLimit).value := by
  have hlimits : moveLimit.neg.value ≤ moveLimit.value := by
    rw [value_neg, value_moveLimit]
    norm_num
  have hclamp := Decimal.value_clamp scaled hlimits
  rw [value_neg, value_moveLimit] at hclamp
  have hlow : -(2 / 5) ≤ (scaled.clamp moveLimit.neg moveLimit).value := hclamp ▸ le_max_left _ _
  have hhigh : (scaled.clamp moveLimit.neg moveLimit).value ≤ 2 / 5 :=
    hclamp ▸ max_le (by norm_num) (min_le_left _ _)
  have hroom : (7 : ℚ) < twoPow 96 - 1 / 2 := by norm_num [twoPow]
  -- so small a sum keeps all 28 places, and is exact
  have hyesSmall : |SharePrice.even.value + (scaled.clamp moveLimit.neg moveLimit).value| ≤ 7 := by
    rw [SharePrice.value_even, abs_le]
    constructor <;> linarith
  obtain ⟨yes, hyes⟩ := Decimal.exists_add_eq_ok (hyesSmall.trans_lt hroom)
  have hyesValue := value_of_add hyes hyesSmall
  rw [SharePrice.value_even] at hyesValue
  have hnoSmall : |Decimal.one.value - yes.value| ≤ 7 := by
    rw [value_one, hyesValue, abs_le]
    constructor <;> linarith
  obtain ⟨no, hno⟩ := Decimal.exists_sub_eq_ok (hnoSmall.trans_lt hroom)
  have hnoValue := value_of_sub hno hnoSmall
  rw [value_one, hyesValue] at hnoValue
  exact ⟨yes, no, hyes, hno, abs_le.mpr ⟨hlow, hhigh⟩, hyesValue, by linarith⟩

/-- The two middle prices: each at least a tenth, and together one. -/
theorem mids_of_quote (h : quote c p = .ok q) :
    1 / 10 ≤ q.yesMid.value ∧ q.yesMid.value ≤ 9 / 10 ∧ q.yesMid.value + q.noMid.value = 1 := by
  obtain ⟨-, -, scaled, -, -, -, -, hyesMid, hnoMid, -⟩ := quote_eq_ok h
  obtain ⟨yes, no, hyes, hno, hsize, hyesValue, hnoValue⟩ := exists_mids scaled
  cases hyes.symm.trans hyesMid
  cases hno.symm.trans hnoMid
  obtain ⟨hlow, hhigh⟩ := abs_le.mp hsize
  rw [hyesValue, hnoValue]
  refine ⟨?_, ?_, ?_⟩ <;> linarith

/-- The spread of a quote is within its limits. -/
theorem spread_of_quote (h : quote c p = .ok q) : 1 / 50 ≤ q.spread.value ∧ q.spread.value ≤ 1 / 10 := by
  obtain ⟨-, -, -, widened, -, -, -, -, -, -, hspread, -⟩ := quote_eq_ok h
  have hclamp := Decimal.value_clamp widened spread_limits
  rw [← hspread, value_spreadFloor, value_spreadCeiling] at hclamp
  exact ⟨hclamp ▸ le_max_left _ _, hclamp ▸ max_le (by norm_num) (min_le_left _ _)⟩

/-- The two fills: prices, and with an offset that is not negative below the middle less half the
spread. -/
theorem fills_of_quote (h : quote c p = .ok q) :
    (1 / 20 ≤ q.yesFill.value ∧ q.yesFill.value ≤ 19 / 20) ∧
      (1 / 20 ≤ q.noFill.value ∧ q.noFill.value ≤ 19 / 20) ∧
      (0 ≤ p.bidOffset.value → q.yesFill.value ≤ max (1 / 20) (q.yesMid.value - 1 / 100) ∧
        q.noFill.value ≤ max (1 / 20) (q.noMid.value - 1 / 100)) := by
  obtain ⟨hyesLow, hyesHigh, hmids⟩ := mids_of_quote h
  obtain ⟨hspreadLow, hspreadHigh⟩ := spread_of_quote h
  obtain ⟨-, -, -, -, half, -, -, -, -, -, -, hhalf, hyes, hno, -⟩ := quote_eq_ok h
  obtain ⟨hhalfLow, hhalfHigh⟩ := half_bounds hspreadLow hspreadHigh hhalf
  obtain ⟨yesLow, yesHigh, yesBelow⟩ := fill_bounds (by rw [abs_le]; constructor <;> linarith) hyes
  obtain ⟨noLow, noHigh, noBelow⟩ := fill_bounds (by rw [abs_le]; constructor <;> linarith) hno
  refine ⟨⟨yesLow, yesHigh⟩, ⟨noLow, noHigh⟩, ?_⟩
  intro hoffset
  exact ⟨(yesBelow hoffset).trans (max_le_max le_rfl (by linarith)),
    (noBelow hoffset).trans (max_le_max le_rfl (by linarith))⟩

/-- The cost of the pair is what both fills cost, and what a bought pair earns is the rest to one. -/
theorem cost_of_quote (h : quote c p = .ok q) :
    q.pairCost.value = q.yesFill.value + q.noFill.value ∧
      (q.decision = .trade → q.lockedProfit.value = 1 - q.pairCost.value) ∧
      (q.decision = .skip → q.lockedProfit.value = 0) := by
  obtain ⟨⟨yesLow, yesHigh⟩, ⟨noLow, noHigh⟩, -⟩ := fills_of_quote h
  obtain ⟨-, -, -, -, -, -, -, -, -, -, -, -, -, -, hcost, -, htrade, hskip⟩ := quote_eq_ok h
  have hsum := value_of_add hcost (by rw [abs_le]; constructor <;> linarith)
  refine ⟨hsum, ?_, ?_⟩
  · intro hdecision
    rw [← value_one]
    exact value_of_sub (htrade hdecision) (by rw [value_one, abs_le]; constructor <;> linarith)
  · intro hdecision
    rw [hskip hdecision, Decimal.value_zero]

/-- With an offset that is not negative a pair costs at most 98 points: either both fills are below
their middle prices by a point each, or one of them is at the lowest price. -/
theorem cost_le_of_quote (h : quote c p = .ok q) (hoffset : 0 ≤ p.bidOffset.value) :
    q.pairCost.value ≤ 49 / 50 := by
  obtain ⟨hyesLow, hyesHigh, hmids⟩ := mids_of_quote h
  obtain ⟨-, -, hbelow⟩ := fills_of_quote h
  obtain ⟨hyes, hno⟩ := hbelow hoffset
  rw [(cost_of_quote h).1]
  rcases le_max_iff.mp hyes with hyes | hyes <;> rcases le_max_iff.mp hno with hno | hno <;> linarith

/-- **A quote never locks in a loss.** Its parts are in their ranges and add up exactly. A pair is
bought strictly below the ceiling and then earns what it costs less than one. With an offset that is
not negative that is two points or more, whatever the ceiling; with any offset it is something, if
the ceiling is at most one. -/
theorem quote_never_locks_a_loss (c : Candle) (p : PairParams) (q : PairQuote) (h : quote c p = .ok q) :
    (1 / 10 ≤ q.yesMid.value ∧ q.yesMid.value ≤ 9 / 10 ∧ q.yesMid.value + q.noMid.value = 1) ∧
    (1 / 50 ≤ q.spread.value ∧ q.spread.value ≤ 1 / 10) ∧
    (1 / 20 ≤ q.yesFill.value ∧ q.yesFill.value ≤ 19 / 20) ∧
    (1 / 20 ≤ q.noFill.value ∧ q.noFill.value ≤ 19 / 20) ∧
    q.pairCost.value = q.yesFill.value + q.noFill.value ∧
    (q.decision = .trade ↔ q.pairCost.value < p.maxPairCost.value) ∧
    (q.decision = .trade → q.lockedProfit.value = 1 - q.pairCost.value) ∧
    (q.decision = .skip → q.lockedProfit.value = 0) ∧
    (0 ≤ p.bidOffset.value →
      q.pairCost.value ≤ 49 / 50 ∧ (q.decision = .trade → 1 / 50 ≤ q.lockedProfit.value)) ∧
    (q.decision = .trade → p.maxPairCost.value ≤ 1 → 0 < q.lockedProfit.value) := by
  obtain ⟨hyes, hno, -⟩ := fills_of_quote h
  obtain ⟨hcost, htrade, hskip⟩ := cost_of_quote h
  have hdecision : q.decision = .trade ↔ q.pairCost.value < p.maxPairCost.value := by
    obtain ⟨-, -, -, -, -, -, -, -, -, -, -, -, -, -, -, hdecide, -⟩ := quote_eq_ok h
    rw [hdecide]
    exact decide_eq_trade_iff
  refine ⟨mids_of_quote h, spread_of_quote h, hyes, hno, hcost, hdecision, htrade, hskip, ?_, ?_⟩
  · intro hoffset
    have hcap := cost_le_of_quote h hoffset
    refine ⟨hcap, ?_⟩
    intro hbought
    rw [htrade hbought]
    linarith
  · intro hbought hceiling
    have hbelow := hdecision.mp hbought
    rw [htrade hbought]
    linarith

/-- A candle whose move and range are no finite decimals, and a ceiling above the cost: all
roundings are in play, and the pair is bought at a profit of more than seven points. -/
theorem quote_never_locks_a_loss_thirds :
    let c : Candle := ⟨.ofDigits 3 0, .ofDigits 32 1, .ofDigits 30 1, .ofDigits 31 1, .one⟩
    let p : PairParams := ⟨.one, .zero, .ofDigits 11 1⟩
    ∃ q, quote c p = .ok q ∧ q.yesMid = .ofDigits 6666666666666666666666666665 28 ∧ q.decision = .trade ∧
      0 ≤ p.bidOffset.value ∧ q.yesMid.value + q.noMid.value = 1 ∧ q.pairCost.value = q.yesFill.value + q.noFill.value ∧
      1 / 50 ≤ q.lockedProfit.value ∧ p.maxPairCost.value ≤ 1 ∧ 0 < q.lockedProfit.value := by
  intro c p
  obtain ⟨q, hquote, hmid, htrade⟩ : ∃ q, quote c p = .ok q ∧
      q.yesMid = .ofDigits 6666666666666666666666666665 28 ∧ q.decision = .trade := by
    refine ⟨⟨.ofDigits 6666666666666666666666666665 28, .ofDigits 3333333333333333333333333335 28,
      .ofDigits 733333333333333333333333334 28, .ofDigits 6299999999999999999999999998 28,
      .ofDigits 2966666666666666666666666668 28, .ofDigits 9266666666666666666666666666 28, .trade,
      .ofDigits 733333333333333333333333334 28⟩, ?_, rfl, rfl⟩
    decide +kernel
  have hoffset : 0 ≤ p.bidOffset.value := Decimal.value_zero.ge
  have hceiling : p.maxPairCost.value ≤ 1 := value_one.le
  obtain ⟨⟨-, -, hmids⟩, -, -, -, hcost, -, -, -, hsafe, hsome⟩ := quote_never_locks_a_loss c p q hquote
  exact ⟨q, hquote, hmid, htrade, hoffset, hmids, hcost, (hsafe hoffset).2 htrade, hceiling, hsome htrade hceiling⟩

end PairQuote

end BotSpec
