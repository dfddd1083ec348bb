import BotSpec.Proofs.Decimal.Places
import BotSpec.Proofs.Market.Price
import BotSpec.Trading.Fee

/-!
# Settlement odds are fair

The odds of yes and of no are two calls with opposite moves of the price. They have to be two shares
of one, or one side is priced against the other.

Between the price and the odds there are two parts. The move is divided by the entry and scaled
(`oddsShift`); each of these operations is rounded, and all of them look at both signs alike. Then
the shift is put to one half, and this level is clamped and rounded to four places (`oddsAt`). Here
the two sides go different ways, but end together: a shift within one half is added exactly, one
beyond it ends at an end of the range, and the last rounding is balanced
(`Decimal.value_roundTo_add`), though on a tie each side goes to its own even neighbour.

> `settlementOdds_fair`: odds are in their range, grow with the price, and are two shares of one for
> opposite moves.
-/

namespace BotSpec

open Decimal (OppositeValue Gives gives_add gives_sub gives_mul gives_div value_zero value_one value_hundred value_half)

variable {entry current current' move move' shift shift' level level' odds odds' : Decimal}

/-! ## The two parts -/

/-- What a move of the price adds to the odds. -/
def oddsShift (entry move : Decimal) : Except Decimal.Fault Decimal := do
  let percent ← (← move.div entry).mul .hundred
  percent.mul SharePrice.perPercent

/-- The odds for one half and a shift, as they are computed. -/
def oddsAt (level : Decimal) : Decimal := (SharePrice.clamp level).roundTo FeeModel.places

/-- Without an entry price the odds are even. -/
theorem settlementOdds_of_not_pos (hentry : entry.value ≤ 0) (current : Decimal) :
    settlementOdds entry current = .ok SharePrice.even := by
  have hnone : entry ≤ Decimal.zero := by
    rw [Decimal.le_iff_value_le, value_zero]
    exact hentry
  rw [settlementOdds, if_pos hnone]

/-- With one they are the shift of the price, added to one half. -/
theorem settlementOdds_of_pos (hentry : 0 < entry.value) (current : Decimal) :
    settlementOdds entry current = current.sub entry >>= oddsShift entry >>= fun shift =>
      oddsAt <$> (Decimal.ofDigits 5 1).add shift := by
  have hsome : ¬ entry ≤ Decimal.zero := by
    rw [Decimal.le_iff_value_le, value_zero]
    exact not_le.mpr hentry
  rw [settlementOdds, if_neg hsome]
  simp only [oddsShift, bind_assoc]
  rfl

/-- All that is computed on the way to the odds. -/
theorem settlementOdds_eq_ok (hentry : 0 < entry.value) (h : settlementOdds entry current = .ok odds) :
    ∃ move shift level, current.sub entry = .ok move ∧ oddsShift entry move = .ok shift ∧
      (Decimal.ofDigits 5 1).add shift = .ok level ∧ odds = oddsAt level := by
  rw [settlementOdds_of_pos hentry] at h
  obtain ⟨shift, hshift, h⟩ := exists_of_bind_eq_ok h
  obtain ⟨move, hmove, hshift⟩ := exists_of_bind_eq_ok hshift
  obtain ⟨level, hlevel, h⟩ := exists_of_bind_eq_ok h
  cases h
  exact ⟨move, shift, level, hmove, hshift, hlevel, rfl⟩

/-! ## The shift -/

theorem value_perPercent : SharePrice.perPercent.value = 1 / 20 := by
  norm_num [Decimal.value_of_literal (a := SharePrice.perPercent) (n := 5) (d := 100) rfl rfl rfl]

/-- A shift is the change in percent times a twentieth, rounded step by step. -/
theorem oddsShift_eq_ok (hentry : 0 < entry.value) (h : oddsShift entry move = .ok shift) :
    ∃ part percent : Decimal, Gives .division (move.value / entry.value) (.ok part) ∧
      Gives .multiplication (part.value * 100) (.ok percent) ∧
      Gives .multiplication (percent.value * (1 / 20)) (.ok shift) := by
  obtain ⟨part, hpart, h⟩ := exists_of_bind_eq_ok h
  obtain ⟨percent, hpercent, hshift⟩ := exists_of_bind_eq_ok h
  refine ⟨part, percent, hpart ▸ gives_div hentry.ne', ?_, ?_⟩
  · rw [← value_hundred, ← hpercent]
    exact gives_mul part .hundred
  · rw [← value_perPercent, ← hshift]
    exact gives_mul percent SharePrice.perPercent

theorem oddsShift_le_oddsShift (hentry : 0 < entry.value) (hle : move.value ≤ move'.value)
    (h : oddsShift entry move = .ok shift) (h' : oddsShift entry move' = .ok shift') : shift.value ≤ shift'.value := by
  obtain ⟨part, percent, hpart, hpercent, hshift⟩ := oddsShift_eq_ok hentry h
  obtain ⟨part', percent', hpart', hpercent', hshift'⟩ := oddsShift_eq_ok hentry h'
  have hparts : part.value ≤ part'.value := hpart.value_le hpart' (div_le_div_of_nonneg_right hle hentry.le)
  have hpercents : percent.value ≤ percent'.value := hpercent.value_le hpercent' (by linarith)
  exact hshift.value_le hshift' (by linarith)

/-- Opposite moves have opposite shifts. -/
theorem oddsShift_opposite (hentry : 0 < entry.value) (h : OppositeValue move move') :
    SameOutcome OppositeValue (oddsShift entry move) (oddsShift entry move') := by
  apply (h.div rfl hentry.ne').bind_related
  intro part part' hparts
  apply (hparts.mul rfl).bind_related
  intro percent percent' hpercents
  exact hpercents.mul rfl

/-- A shift is a twentieth of something, and so far from too large. -/
theorem abs_oddsShift_le (hentry : 0 < entry.value) (h : oddsShift entry move = .ok shift) :
    |shift.value| ≤ twoPow 95 := by
  obtain ⟨-, percent, -, -, hshift⟩ := oddsShift_eq_ok hentry h
  have hbound : (Decimal.ofDigits (twoPow 95) 0).value = twoPow 95 := by
    rw [Decimal.value_of_literal (a := .ofDigits (twoPow 95) 0) (n := twoPow 95) (d := 1) rfl rfl rfl, Nat.cast_one, div_one]
  rw [← hbound]
  apply hshift.abs_le_of_abs_le
  have hpercent := percent.abs_value_le
  rw [hbound, abs_mul, abs_of_pos (by norm_num : (0 : ℚ) < 1 / 20)]
  norm_num [twoPow] at hpercent ⊢
  linarith

/-! ## The level -/

/-- A shift that is not astronomical can be added. -/
theorem exists_level (h : |shift.value| ≤ twoPow 95) :
    ∃ level, (Decimal.ofDigits 5 1).add shift = .ok level := by
  apply Decimal.exists_add_eq_ok
  refine (abs_add_le _ _).trans_lt ?_
  rw [value_half, abs_of_pos (by norm_num)]
  norm_num [twoPow] at h ⊢
  linarith

/-- One half and a shift of one half or more: at the high end, whatever the sum is rounded to. -/
theorem value_clamp_level (h : (Decimal.ofDigits 5 1).add shift = .ok level) (hshift : 1 / 2 ≤ shift.value) :
    (SharePrice.clamp level).value = 19 / 20 := by
  apply SharePrice.value_clamp_of_ge
  have hone : Decimal.one.value ≤ level.value := by
    apply (h ▸ gives_add _ shift).ge_of_ge
    rw [value_half, value_one]
    linarith
  rw [value_one] at hone
  linarith

/-- One half and a shift of minus one half or less: at the low end. -/
theorem value_clamp_level_neg (h : (Decimal.ofDigits 5 1).add shift = .ok level)
    (hshift : shift.value ≤ -(1 / 2)) : (SharePrice.clamp level).value = 1 / 20 := by
  apply SharePrice.value_clamp_of_le
  have hzero : level.value ≤ Decimal.zero.value := by
    apply (h ▸ gives_add _ shift).le_of_le
    rw [value_half, value_zero]
    linarith
  rw [value_zero] at hzero
  linarith

/-- The levels of opposite shifts, clamped, are two sides of a market. -/
theorem complementary_levels (hopposite : OppositeValue shift shift')
    (h : (Decimal.ofDigits 5 1).add shift = .ok level) (h' : (Decimal.ofDigits 5 1).add shift' = .ok level') :
    SharePrice.Complementary (SharePrice.clamp level) (SharePrice.clamp level') := by
  unfold OppositeValue at hopposite
  rcases le_or_gt (1 / 2) shift.value with hup | hup
  · rw [SharePrice.Complementary, value_clamp_level h hup, value_clamp_level_neg h' (by linarith)]
    norm_num
  · rcases le_or_gt shift.value (-(1 / 2)) with hdown | hdown
    · rw [SharePrice.Complementary, value_clamp_level_neg h hdown, value_clamp_level h' (by linarith)]
      norm_num
    · -- both sums are exact
      have hlevel := Decimal.value_of_add h (by rw [value_half, abs_le]; constructor <;> linarith)
      have hlevel' := Decimal.value_of_add h' (by rw [value_half, hopposite, abs_le]; constructor <;> linarith)
      apply SharePrice.Complementary.clamp
      rw [SharePrice.Complementary, hlevel, hlevel', value_half, hopposite]
      ring

/-! ## The odds -/

theorem value_clamp_nonneg (level : Decimal) : 0 ≤ (SharePrice.clamp level).value :=
  le_trans (by norm_num) (SharePrice.clamp_mem level).1

/-- Odds are prices with at most four places. The ends of the range have two, so that rounding does
not leave it. -/
theorem oddsAt_mem (level : Decimal) :
    1 / 20 ≤ (oddsAt level).value ∧ (oddsAt level).value ≤ 19 / 20 ∧ (oddsAt level).scale ≤ 4 := by
  obtain ⟨hlow, hhigh⟩ := SharePrice.clamp_mem level
  have hlowest : SharePrice.lowest.roundTo FeeModel.places = SharePrice.lowest := Decimal.roundTo_of_scale_le (by decide)
  have hhighest : SharePrice.highest.roundTo FeeModel.places = SharePrice.highest := Decimal.roundTo_of_scale_le (by decide)
  refine ⟨?_, ?_, Decimal.scale_roundTo_le _ _⟩
  · rw [← SharePrice.value_lowest] at hlow ⊢
    rw [← hlowest]
    refine Decimal.value_roundTo_le FeeModel.places ?_ hlow
    rw [SharePrice.value_lowest]
    norm_num
  · rw [← SharePrice.value_highest] at hhigh ⊢
    rw [← hhighest]
    exact Decimal.value_roundTo_le FeeModel.places (value_clamp_nonneg level) hhigh

theorem oddsAt_le_oddsAt (h : level.value ≤ level'.value) : (oddsAt level).value ≤ (oddsAt level').value := by
  apply Decimal.value_roundTo_le FeeModel.places (value_clamp_nonneg level)
  exact Decimal.clamp_le_clamp SharePrice.lowest_le_highest h

/-- Prices on opposite sides of the entry fail alike, or have odds that are two shares of one. -/
theorem settlementOdds_complementary (hentry : 0 < entry.value)
    (h : SameOutcome OppositeValue (current.sub entry) (current'.sub entry)) :
    SameOutcome SharePrice.Complementary (settlementOdds entry current) (settlementOdds entry current') := by
  have hshifts : SameOutcome OppositeValue (current.sub entry >>= oddsShift entry)
      (current'.sub entry >>= oddsShift entry) :=
    h.bind_related fun _ _ => oddsShift_opposite hentry
  rw [settlementOdds_of_pos hentry, settlementOdds_of_pos hentry]
  apply hshifts.bind_related_of_eq
  intro shift shift' hshift hshift' hopposite
  -- no shift is too large to be put to one half, so neither side fails from here on
  obtain ⟨move, -, hshift⟩ := exists_of_bind_eq_ok hshift
  obtain ⟨move', -, hshift'⟩ := exists_of_bind_eq_ok hshift'
  obtain ⟨level, hlevel⟩ := exists_level (abs_oddsShift_le hentry hshift)
  obtain ⟨level', hlevel'⟩ := exists_level (abs_oddsShift_le hentry hshift')
  have hlevels := complementary_levels hopposite hlevel hlevel'
  rw [hlevel, hlevel']
  exact .ok (Decimal.value_roundTo_add 3 (value_clamp_nonneg level) (value_clamp_nonneg level') hlevels)

theorem settlementOdds_le_settlementOdds (hentry : 0 < entry.value) (hle : current.value ≤ current'.value)
    (h : settlementOdds entry current = .ok odds) (h' : settlementOdds entry current' = .ok odds') :
    odds.value ≤ odds'.value := by
  obtain ⟨move, shift, level, hmove, hshift, hlevel, rfl⟩ := settlementOdds_eq_ok hentry h
  obtain ⟨move', shift', level', hmove', hshift', hlevel', rfl⟩ := settlementOdds_eq_ok hentry h'
  have hmoves : move.value ≤ move'.value :=
    (hmove ▸ gives_sub current entry).value_le (hmove' ▸ gives_sub current' entry) (by linarith)
  have hshifts : shift.value ≤ shift'.value := oddsShift_le_oddsShift hentry hmoves hshift hshift'
  have hlevels : level.value ≤ level'.value :=
    (hlevel ▸ gives_add _ shift).value_le (hlevel' ▸ gives_add _ shift') (by linarith)
  exact oddsAt_le_oddsAt hlevels

/-- **Settlement odds are fair.** Without a positive entry they are one half. With one they are
between 5 and 95 percent, of at most four places, and do not fall where the price rises. Prices on
opposite sides of the entry fail alike or have odds that are together one; prices are on opposite
sides if their differences to it are opposite as they are computed, and so they are if the exact
differences are. -/
theorem settlementOdds_fair (entry : Decimal) :
    (entry.value ≤ 0 → ∀ current, settlementOdds entry current = .ok SharePrice.even) ∧
    (0 < entry.value →
      (∀ current odds : Decimal, settlementOdds entry current = .ok odds →
        1 / 20 ≤ odds.value ∧ odds.value ≤ 19 / 20 ∧ odds.scale ≤ 4) ∧
      (∀ current current' odds odds' : Decimal, current.value ≤ current'.value → settlementOdds entry current = .ok odds →
        settlementOdds entry current' = .ok odds' → odds.value ≤ odds'.value) ∧
      (∀ current current' : Decimal, SameOutcome OppositeValue (current.sub entry) (current'.sub entry) →
        SameOutcome SharePrice.Complementary (settlementOdds entry current) (settlementOdds entry current')) ∧
      (∀ current current' : Decimal, current'.value - entry.value = -(current.value - entry.value) →
        SameOutcome OppositeValue (current.sub entry) (current'.sub entry))) := by
  refine ⟨settlementOdds_of_not_pos, ?_⟩
  intro hentry
  refine ⟨?range, ?rises, ?balanced, ?exact⟩
  case range =>
    intro current odds h
    obtain ⟨move, shift, level, -, -, -, rfl⟩ := settlementOdds_eq_ok hentry h
    exact oddsAt_mem level
  case rises =>
    intro current current' odds odds' hle h h'
    exact settlementOdds_le_settlementOdds hentry hle h h'
  case balanced =>
    intro current current' hmoves
    exact settlementOdds_complementary hentry hmoves
  case exact =>
    intro current current' hdifference
    exact (gives_sub current entry).opposite (hdifference ▸ gives_sub current' entry)

/-- An entry at 100 and prices of 2.247 above and below it. The odds are in the middle between two
of four places, and each goes to its even neighbour: 0.6124 and 0.3876. -/
theorem settlementOdds_fair_tie :
    let above : Decimal := .ofDigits 102247 3
    let below : Decimal := .ofDigits 97753 3
    Decimal.zero.value ≤ 0 ∧ 0 < Decimal.hundred.value ∧ below.value ≤ above.value ∧
    below.value - Decimal.hundred.value = -(above.value - Decimal.hundred.value) ∧
    settlementOdds .hundred above = .ok (.ofDigits 6124 4) ∧ settlementOdds .hundred below = .ok (.ofDigits 3876 4) ∧
    settlementOdds .zero above = .ok SharePrice.even ∧
    (1 / 20 ≤ (Decimal.ofDigits 6124 4).value ∧ (Decimal.ofDigits 6124 4).value ≤ 19 / 20) ∧
    (Decimal.ofDigits 3876 4).value ≤ (Decimal.ofDigits 6124 4).value ∧
    SameOutcome OppositeValue (above.sub .hundred) (below.sub .hundred) ∧
    SharePrice.Complementary (.ofDigits 6124 4) (.ofDigits 3876 4) := by
  intro above below
  have habove : above.value = 102247 / 1000 := Decimal.value_of_literal rfl rfl rfl
  have hbelow : below.value = 97753 / 1000 := Decimal.value_of_literal rfl rfl rfl
  have hentry : 0 < Decimal.hundred.value := by rw [value_hundred]; norm_num
  have hle : below.value ≤ above.value := by rw [habove, hbelow]; norm_num
  have hdifference : below.value - Decimal.hundred.value = -(above.value - Decimal.hundred.value) := by
    rw [habove, hbelow, value_hundred]
    norm_num
  have hodds : settlementOdds .hundred above = .ok (.ofDigits 6124 4) := by decide +kernel
  have hodds' : settlementOdds .hundred below = .ok (.ofDigits 3876 4) := by decide +kernel
  obtain ⟨hrange, hrises, hbalanced, hexact⟩ := (settlementOdds_fair .hundred).2 hentry
  obtain ⟨hlow, hhigh, -⟩ := hrange above _ hodds
  have hmoves := hexact above below hdifference
  obtain ⟨other, hother, htogether⟩ := (hbalanced above below hmoves).exists_eq_ok hodds
  cases hodds'.symm.trans hother
  exact ⟨value_zero.le, hentry, hle, hdifference, hodds, hodds',
    (settlementOdds_fair .zero).1 value_zero.le above, ⟨hlow, hhigh⟩, hrises below above _ _ hle hodds' hodds, hmoves,
    htogether⟩

end BotSpec
