import BotSpec.Proofs.Decimal.Nearest
import BotSpec.Proofs.Strategy.PairQuote

/-!
# Two sides alike

Yes and no are names for the two ways a price can move, so a candle that falls as far as another one
rises should have the same quote with the names exchanged. And what an offset, a multiplier of the
spread and a ceiling are for is to buy cheaper or more often: none of them should ever do the
opposite when it grows.

Both compare two runs of `quote`. For the first, each step is followed on both sides by what it does
to equal or opposite numbers; the order of the two fills is all that differs, and it cannot be seen,
since both fail with the same fault (`SameOutcome.bind_exchanged`). The sums at the middle prices
are exact (`exists_mids`); were they rounded, one half plus a move and one half minus it could end
at different distances from one half. For the second, each step keeps order or reverses it, and the
middle prices are those of the same candle.

> `quote_symmetric_and_monotone`: a mirrored candle has the swapped quote; larger settings do not
> make the pair dearer, and a pair that is bought stays bought.
-/

namespace BotSpec

open Decimal (SameValue OppositeValue gives_add gives_sub gives_mul gives_div value_zero value_two orFault_eq_error)

/-- A candle with the same open and range and the opposite move: the market seen from the other
side. The range and the move are compared as they are computed. -/
structure Candle.Mirrors (c c' : Candle) : Prop where
  openPrice : SameValue c.openPrice c'.openPrice
  range : SameOutcome SameValue (c.high.sub c.low) (c'.high.sub c'.low)
  move : SameOutcome OppositeValue (c.close.sub c.openPrice) (c'.close.sub c'.openPrice)

/-- It is enough that the exact ranges are the same and the exact moves are opposite. -/
theorem Candle.mirrors_of_exact {c c' : Candle} (hopen : c'.openPrice.value = c.openPrice.value)
    (hrange : c'.high.value - c'.low.value = c.high.value - c.low.value)
    (hmove : c'.close.value - c'.openPrice.value = -(c.close.value - c.openPrice.value)) : c.Mirrors c' where
  openPrice := hopen
  range := (gives_sub c.high c.low).same (hrange ▸ gives_sub c'.high c'.low)
  move := (gives_sub c.close c.openPrice).opposite (hmove ▸ gives_sub c'.close c'.openPrice)

/-- Settings of which none is smaller: bids are lower, spreads wider, and the ceiling is higher. -/
structure PairParams.Below (p p' : PairParams) : Prop where
  maxPairCost : p.maxPairCost.value ≤ p'.maxPairCost.value
  bidOffset : p.bidOffset.value ≤ p'.bidOffset.value
  spreadMultiplier : p.spreadMultiplier.value ≤ p'.spreadMultiplier.value

namespace PairQuote

/-- The quote from the other side: yes and no are exchanged, and all that is about the pair is the
same. -/
structure Swapped (q q' : PairQuote) : Prop where
  yesMid : SameValue q.noMid q'.yesMid
  noMid : SameValue q.yesMid q'.noMid
  spread : SameValue q.spread q'.spread
  yesFill : SameValue q.noFill q'.yesFill
  noFill : SameValue q.yesFill q'.noFill
  pairCost : SameValue q.pairCost q'.pairCost
  decision : q'.decision = q.decision
  lockedProfit : SameValue q.lockedProfit q'.lockedProfit

variable {c c' : Candle} {p p' : PairParams} {q q' : PairQuote}
  {move move' range yesMid yesMid' noMid noMid' spread spread' mid mid' half half' offset offset' price price' : Decimal}

/-! ## Three parts -/

/-- The middle prices of a relative move. -/
def mids (move : Decimal) : Except Decimal.Fault (Decimal × Decimal) := do
  let scaled ← move.mul moveScale
  let yesMid ← SharePrice.even.add (scaled.clamp moveLimit.neg moveLimit)
  let noMid ← Decimal.one.sub yesMid
  return (yesMid, noMid)

/-- The pair at two middle prices and a spread. -/
def offer (p : PairParams) (yesMid noMid spread : Decimal) : Except Decimal.Fault PairQuote := do
  let halfSpread ← spread.div .two
  let yesFill ← fill yesMid halfSpread p.bidOffset
  let noFill ← fill noMid halfSpread p.bidOffset
  let pairCost ← yesFill.add noFill
  let decision := decide pairCost p.maxPairCost
  let lockedProfit ←
    match decision with
    | .trade => Decimal.one.sub pairCost
    | .skip => pure Decimal.zero
  return { yesMid, noMid, spread, yesFill, noFill, pairCost, decision, lockedProfit }

/-- A quote is an offer at the middle prices of the move, with a spread for the range. -/
theorem quote_eq_offer (c : Candle) (p : PairParams) : quote c p = (do
    let (move, range) ← relative c
    let (yesMid, noMid) ← mids move
    let widened ← range.mul p.spreadMultiplier
    offer p yesMid noMid (widened.clamp spreadFloor spreadCeiling)) := by
  simp only [mids, bind_assoc, pure_bind]
  rfl

/-! ## The other side -/

theorem value_two_ne_zero : Decimal.two.value ≠ 0 := by
  rw [value_two]
  norm_num

/-- Whether a candle has moved at all is asked of its first price. -/
theorem zero_lt_openPrice_iff : Decimal.zero < c.openPrice ↔ 0 < c.openPrice.value := by
  rw [Decimal.lt_iff_value_lt, value_zero]

/-- Seen from the other side a candle has the opposite relative move and the same relative range. -/
theorem relative_mirror (h : c.Mirrors c') :
    SameOutcome (fun r r' => OppositeValue r.1 r'.1 ∧ SameValue r.2 r'.2) (relative c) (relative c') := by
  have hopen : SameValue c.openPrice c'.openPrice := h.openPrice
  unfold relative
  rw [SameValue] at hopen
  by_cases hpos : 0 < c.openPrice.value
  · rw [if_pos (zero_lt_openPrice_iff.mpr hpos), if_pos (zero_lt_openPrice_iff.mpr (hopen ▸ hpos))]
    apply h.move.bind_related
    intro moved moved' hmoved
    apply (hmoved.div hopen hpos.ne').bind_related
    intro move move' hmove
    apply h.range.bind_related
    intro width width' hwidth
    apply (hwidth.div hopen hpos.ne').bind_related
    intro range range' hrange
    exact .ok ⟨hmove, hrange⟩
  · rw [if_neg fun hlt => hpos (zero_lt_openPrice_iff.mp hlt), if_neg fun hlt => hpos (hopen ▸ zero_lt_openPrice_iff.mp hlt)]
    refine .ok ⟨?_, rfl⟩
    rw [OppositeValue, value_zero, neg_zero]

theorem fill_eq_error {e : Decimal.Fault} (h : fill mid half offset = .error e) : e = .subtraction := by
  rcases eq_error_or_of_bind_eq_error h with h | ⟨level, -, h⟩
  · exact orFault_eq_error h
  · rcases eq_error_or_of_bind_eq_error h with h | ⟨bid, -, h⟩
    · exact orFault_eq_error h
    · cases h

/-- Bids of the same numbers are the same. -/
theorem fill_same (hmid : SameValue mid mid') (hhalf : SameValue half half') :
    SameOutcome SameValue (fill mid half offset) (fill mid' half' offset) := by
  apply (hmid.sub hhalf).bind_related
  intro level level' hlevel
  apply (hlevel.sub rfl).bind_related
  intro bid bid' hbid
  exact .ok (hbid.clamp SharePrice.lowest_le_highest)

theorem decide_same {cost cost' ceiling : Decimal} (h : SameValue cost cost') :
    decide cost' ceiling = decide cost ceiling := by
  unfold SameValue at h
  unfold decide
  simp only [Decimal.lt_iff_value_lt, h]

/-- The middle prices of opposite moves are exchanged. -/
theorem mids_mirror (h : OppositeValue move move') :
    SameOutcome (fun sides sides' => SameValue sides.1 sides'.2 ∧ SameValue sides.2 sides'.1) (mids move) (mids move') := by
  apply (h.mul rfl).bind_related
  intro scaled scaled' hscaled
  obtain ⟨yes, no, hyes, hno, -, hyesValue, hnoValue⟩ := exists_mids scaled
  obtain ⟨yes', no', hyes', hno', -, hyesValue', hnoValue'⟩ := exists_mids scaled'
  have hlimit : 0 ≤ moveLimit.value := by
    rw [value_moveLimit]
    norm_num
  have hdeviation : OppositeValue _ _ := hscaled.clamp hlimit
  rw [OppositeValue] at hdeviation
  rw [hdeviation] at hyesValue' hnoValue'
  rw [bind_of_eq_ok hyes, bind_of_eq_ok hno, bind_of_eq_ok hyes', bind_of_eq_ok hno']
  refine .ok ⟨?_, ?_⟩
  · rw [SameValue, hnoValue', hyesValue, sub_neg_eq_add]
  · rw [SameValue, hyesValue', hnoValue, sub_eq_add_neg]

/-- Exchanged middle prices have exchanged fills, and all else is the same. -/
theorem offer_swapped (hyes : SameValue yesMid noMid') (hno : SameValue noMid yesMid')
    (hspread : SameValue spread spread') :
    SameOutcome Swapped (offer p yesMid noMid spread) (offer p yesMid' noMid' spread') := by
  apply (hspread.div rfl value_two_ne_zero).bind_related
  intro half half' hhalf
  apply (fill_same hyes hhalf).bind_exchanged (fill_same hno hhalf)
  · intro e e' h h'
    rw [fill_eq_error h, fill_eq_error h']
  · intro yesFill noFill yesFill' noFill' hyesFill hnoFill
    have hsum := gives_add yesFill' noFill'
    rw [hyesFill, hnoFill, add_comm] at hsum
    apply ((gives_add yesFill noFill).same hsum).bind_related
    intro pairCost pairCost' hpairCost
    rw [decide_same hpairCost]
    cases hdecision : decide pairCost p.maxPairCost with
    | trade =>
      have hone : SameValue Decimal.one Decimal.one := rfl
      apply (hone.sub hpairCost).bind_related
      intro lockedProfit lockedProfit' hlockedProfit
      exact .ok ⟨hno, hyes, hspread, hnoFill, hyesFill, hpairCost, rfl, hlockedProfit⟩
    | skip => exact .ok ⟨hno, hyes, hspread, hnoFill, hyesFill, hpairCost, rfl, rfl⟩

/-- A mirrored candle fails alike, or has the swapped quote. -/
theorem quote_mirror (h : c.Mirrors c') : SameOutcome Swapped (quote c p) (quote c' p) := by
  rw [quote_eq_offer, quote_eq_offer]
  apply (relative_mirror h).bind_related
  rintro ⟨move, range⟩ ⟨move', range'⟩ ⟨hmove, hrange⟩
  apply (mids_mirror hmove).bind_related
  rintro ⟨yesMid, noMid⟩ ⟨yesMid', noMid'⟩ ⟨hyes, hno⟩
  apply (hrange.mul rfl).bind_related
  intro widened widened' hwidened
  exact offer_swapped hyes hno (hwidened.clamp spread_limits)

/-! ## Larger settings -/

/-- The range of a candle whose high is not below its low. -/
theorem range_nonneg (horder : c.low.value ≤ c.high.value) (h : relative c = .ok (move, range)) :
    0 ≤ range.value := by
  unfold relative at h
  split at h
  · next hpos =>
    obtain ⟨_, _, h⟩ := exists_of_bind_eq_ok h
    obtain ⟨_, _, h⟩ := exists_of_bind_eq_ok h
    obtain ⟨width, hwidth, h⟩ := exists_of_bind_eq_ok h
    obtain ⟨range, hrange, h⟩ := exists_of_bind_eq_ok h
    cases h
    have hopen : 0 < c.openPrice.value := zero_lt_openPrice_iff.mp hpos
    have hwidthLow : 0 ≤ width.value := (hwidth ▸ gives_sub c.high c.low).nonneg (sub_nonneg.mpr horder)
    exact (hrange ▸ gives_div hopen.ne').nonneg (div_nonneg hwidthLow hopen.le)
  · cases h
    exact value_zero.ge

/-- A fill falls with half the spread and with the offset. -/
theorem fill_le_fill (hhalf : half.value ≤ half'.value) (hoffset : offset.value ≤ offset'.value)
    (h : fill mid half offset = .ok price) (h' : fill mid half' offset' = .ok price') : price'.value ≤ price.value := by
  obtain ⟨level, hlevel, h⟩ := exists_of_bind_eq_ok h
  obtain ⟨bid, hbid, h⟩ := exists_of_bind_eq_ok h
  cases h
  obtain ⟨level', hlevel', h'⟩ := exists_of_bind_eq_ok h'
  obtain ⟨bid', hbid', h'⟩ := exists_of_bind_eq_ok h'
  cases h'
  have hlevels : level'.value ≤ level.value :=
    (hlevel' ▸ gives_sub mid half').value_le (hlevel ▸ gives_sub mid half) (by linarith)
  have hbids : bid'.value ≤ bid.value :=
    (hbid' ▸ gives_sub level' offset').value_le (hbid ▸ gives_sub level offset) (by linarith)
  exact Decimal.clamp_le_clamp SharePrice.lowest_le_highest hbids

/-- Half of a larger spread is not smaller. -/
theorem half_le_half (hspread : spread.value ≤ spread'.value) (h : spread.div .two = .ok half)
    (h' : spread'.div .two = .ok half') : half.value ≤ half'.value := by
  apply (h ▸ gives_div value_two_ne_zero).value_le (h' ▸ gives_div value_two_ne_zero)
  rw [value_two]
  linarith

/-- With larger settings a pair does not cost more. -/
theorem pairCost_le_pairCost (horder : c.low.value ≤ c.high.value) (hle : p.Below p') (h : quote c p = .ok q)
    (h' : quote c p' = .ok q') : q'.pairCost.value ≤ q.pairCost.value := by
  obtain ⟨move, range, scaled, widened, half, hrelative, hscaled, hyesMid, hnoMid, hwidened, hspread, hhalf, hyesFill,
    hnoFill, hpairCost, -⟩ := quote_eq_ok h
  obtain ⟨move', range', scaled', widened', half', hrelative', hscaled', hyesMid', hnoMid', hwidened', hspread', hhalf',
    hyesFill', hnoFill', hpairCost', -⟩ := quote_eq_ok h'
  -- the same candle has the same middle prices
  cases hrelative.symm.trans hrelative'
  cases hscaled.symm.trans hscaled'
  have hyesSame : q'.yesMid = q.yesMid := Except.ok.inj (hyesMid'.symm.trans hyesMid)
  rw [hyesSame] at hnoMid' hyesFill'
  have hnoSame : q'.noMid = q.noMid := Except.ok.inj (hnoMid'.symm.trans hnoMid)
  rw [hnoSame] at hnoFill'
  have hrange := range_nonneg horder hrelative
  have hwidenedLe : widened.value ≤ widened'.value :=
    (hwidened ▸ gives_mul range p.spreadMultiplier).value_le (hwidened' ▸ gives_mul range p'.spreadMultiplier)
      (mul_le_mul_of_nonneg_left hle.spreadMultiplier hrange)
  have hspreadLe : q.spread.value ≤ q'.spread.value := by
    rw [hspread, hspread']
    exact Decimal.clamp_le_clamp spread_limits hwidenedLe
  have hhalfLe := half_le_half hspreadLe hhalf hhalf'
  have hyesLe := fill_le_fill hhalfLe hle.bidOffset hyesFill hyesFill'
  have hnoLe := fill_le_fill hhalfLe hle.bidOffset hnoFill hnoFill'
  exact (hpairCost' ▸ gives_add q'.yesFill q'.noFill).value_le (hpairCost ▸ gives_add q.yesFill q.noFill) (by linarith)

/-- With larger settings a pair that was bought is still bought. -/
theorem trade_of_trade (horder : c.low.value ≤ c.high.value) (hle : p.Below p') (h : quote c p = .ok q)
    (h' : quote c p' = .ok q') (htrade : q.decision = .trade) : q'.decision = .trade := by
  have hcost := pairCost_le_pairCost horder hle h h'
  obtain ⟨_, _, _, _, _, -, -, -, -, -, -, -, -, -, -, hdecision, -⟩ := quote_eq_ok h
  obtain ⟨_, _, _, _, _, -, -, -, -, -, -, -, -, -, -, hdecision', -⟩ := quote_eq_ok h'
  rw [hdecision, decide_eq_trade_iff] at htrade
  rw [hdecision', decide_eq_trade_iff]
  exact hcost.trans_lt (htrade.trans_le hle.maxPairCost)

/-- **A quote has two sides alike, and larger settings make the pair cheaper.** A candle seen from
the other side fails alike or has the same quote with yes and no exchanged; it is seen from the
other side if its open and range are the same and its move is the opposite, as they are computed or
exactly. With a larger offset, a larger multiplier of the spread and a larger ceiling, the pair of a
candle whose high is not below its low does not cost more, and it is bought if it was before. -/
theorem quote_symmetric_and_monotone (c : Candle) (p : PairParams) :
    (∀ c' : Candle, c.Mirrors c' → SameOutcome Swapped (quote c p) (quote c' p)) ∧
    (∀ c' : Candle, c'.openPrice.value = c.openPrice.value →
      c'.high.value - c'.low.value = c.high.value - c.low.value →
      c'.close.value - c'.openPrice.value = -(c.close.value - c.openPrice.value) → c.Mirrors c') ∧
    (c.low.value ≤ c.high.value → ∀ p' q q', p.Below p' → quote c p = .ok q → quote c p' = .ok q' →
      q'.pairCost.value ≤ q.pairCost.value ∧ (q.decision = .trade → q'.decision = .trade)) := by
  refine ⟨fun c' => quote_mirror, fun c' => Candle.mirrors_of_exact, ?_⟩
  intro horder p' q q' hle h h'
  exact ⟨pairCost_le_pairCost horder hle h h', trade_of_trade horder hle h h'⟩

/-- A rise from 3 to 3.1 and a fall to 2.9, thirds that are no decimals: at a multiplier of 1.1 and
without an offset a pair is bought either way. At 1.2 and one point less for each bid it costs less.
-/
theorem quote_symmetric_and_monotone_thirds :
    let rise : Candle := ⟨.ofDigits 3 0, .ofDigits 32 1, .ofDigits 30 1, .ofDigits 31 1, .one⟩
    let fall : Candle := ⟨.ofDigits 3 0, .ofDigits 32 1, .ofDigits 30 1, .ofDigits 29 1, .one⟩
    let p : PairParams := ⟨.ofDigits 95 2, .zero, .ofDigits 11 1⟩
    let p' : PairParams := ⟨.ofDigits 96 2, .ofDigits 1 2, .ofDigits 12 1⟩
    ∃ q mirrored q', quote rise p = .ok q ∧ quote fall p = .ok mirrored ∧ quote rise p' = .ok q' ∧
      q.yesFill = .ofDigits 6299999999999999999999999998 28 ∧ mirrored.noFill.value = q.yesFill.value ∧
      rise.Mirrors fall ∧ q.Swapped mirrored ∧ rise.low.value ≤ rise.high.value ∧ p.Below p' ∧
      q'.pairCost.value ≤ q.pairCost.value ∧ q.decision = .trade ∧ q'.decision = .trade := by
  intro rise fall p p'
  obtain ⟨q, hquote, hfill, htrade⟩ : ∃ q, quote rise p = .ok q ∧ q.yesFill = .ofDigits 6299999999999999999999999998 28 ∧
      q.decision = .trade := by
    refine ⟨⟨.ofDigits 6666666666666666666666666665 28, .ofDigits 3333333333333333333333333335 28,
      .ofDigits 733333333333333333333333334 28, .ofDigits 6299999999999999999999999998 28,
      .ofDigits 2966666666666666666666666668 28, .ofDigits 9266666666666666666666666666 28, .trade,
      .ofDigits 733333333333333333333333334 28⟩, ?_, rfl, rfl⟩
    decide +kernel
  obtain ⟨q', hquote'⟩ : ∃ q', quote rise p' = .ok q' := by
    refine ⟨⟨.ofDigits 6666666666666666666666666665 28, .ofDigits 3333333333333333333333333335 28,
      .ofDigits 800000000000000000000000000 28, .ofDigits 6166666666666666666666666665 28,
      .ofDigits 2833333333333333333333333335 28, .ofDigits 9000000000000000000000000000 28, .trade,
      .ofDigits 1000000000000000000000000000 28⟩, ?_⟩
    decide +kernel
  have hlow : (Decimal.ofDigits 30 1).value = 30 / 10 := Decimal.value_of_literal rfl rfl rfl
  have hhigh : (Decimal.ofDigits 32 1).value = 32 / 10 := Decimal.value_of_literal rfl rfl rfl
  have hrise : (Decimal.ofDigits 31 1).value = 31 / 10 := Decimal.value_of_literal rfl rfl rfl
  have hfall : (Decimal.ofDigits 29 1).value = 29 / 10 := Decimal.value_of_literal rfl rfl rfl
  have hopen : (Decimal.ofDigits 3 0).value = 3 / 1 := Decimal.value_of_literal rfl rfl rfl
  have horder : rise.low.value ≤ rise.high.value := by
    show (Decimal.ofDigits 30 1).value ≤ (Decimal.ofDigits 32 1).value
    rw [hlow, hhigh]
    norm_num
  have hle : p.Below p' := by
    refine ⟨?_, ?_, ?_⟩ <;> rw [← Decimal.le_iff_value_le] <;> decide
  obtain ⟨hmirror, hexact, hlarger⟩ := quote_symmetric_and_monotone rise p
  have hmirrors : rise.Mirrors fall := by
    refine hexact fall rfl rfl ?_
    show (Decimal.ofDigits 29 1).value - (Decimal.ofDigits 3 0).value
      = -((Decimal.ofDigits 31 1).value - (Decimal.ofDigits 3 0).value)
    rw [hrise, hfall, hopen]
    norm_num
  obtain ⟨mirrored, hmirrored, hswapped⟩ := (hmirror fall hmirrors).exists_eq_ok hquote
  obtain ⟨hcost, hstays⟩ := hlarger horder p' q q' hle hquote hquote'
  exact ⟨q, mirrored, q', hquote, hmirrored, hquote', hfill, hswapped.noFill, hmirrors, hswapped, horder, hle, hcost, htrade,
    hstays htrade⟩

end PairQuote

end BotSpec
