import BotSpec.Proofs.Decimal.Places
import BotSpec.Trading.Fee

/-!
# The shape of the taker fee

The fee is a chain of products, each of them rounded, with a cut to four places at the end. Two
things make it easy to follow.

The price enters through the factor `p (1 - p)` alone, and the difference in it is exact. So prices
with one factor have one fee, and a larger factor has a larger one (`fee_le_fee`): symmetry, the
rise up to one half and the peak there are facts about this factor.

What is charged is the raw fee rounded down, without exception (`value_charged`): a fee below the
smallest one is cut to zero anyway.

> `fee_shape`: what grows, what is symmetric and what cannot fail, whatever the roundings do.
> `fee_eq_floor`: where no product needs rounding, the fee is the formula rounded down.
-/

namespace BotSpec

namespace Decimal

/-- A number between zero and one. -/
def IsFraction (a : Decimal) : Prop := 0 ≤ a.value ∧ a.value ≤ 1

/-- A product with a fraction does not grow too large. -/
theorem exists_mul_eq_ok (a : Decimal) {b : Decimal} (hb : b.IsFraction) : ∃ r, a.mul b = .ok r := by
  have hsize : |a.value * b.value| ≤ |a.value| := by
    rw [abs_mul, abs_of_nonneg hb.1]
    exact mul_le_of_le_one_right (abs_nonneg _) hb.2
  exact (gives_mul a b).exists_eq_ok hsize

/-- A product of fractions exists, and is a fraction. -/
theorem exists_mul_of_isFraction {a b : Decimal} (ha : a.IsFraction) (hb : b.IsFraction) :
    ∃ r, a.mul b = .ok r ∧ r.IsFraction := by
  obtain ⟨r, hr⟩ := exists_mul_eq_ok a hb
  have hgives := hr ▸ gives_mul a b
  have hhigh : r.value ≤ one.value := hgives.le_of_le (value_one ▸ mul_le_one₀ ha.2 hb.1 hb.2)
  exact ⟨r, hr, hgives.nonneg (mul_nonneg ha.1 hb.1), value_one ▸ hhigh⟩

end Decimal

open Decimal (IsFraction IsDecimal Gives gives_mul exists_mul_eq_ok exists_mul_of_isFraction value_zero value_one)

namespace FeeModel

variable {acc acc' base base' r r' : Decimal} {n : Nat}

/-! ## Powers -/

theorem power_of_zero (base : Decimal) (n : Nat) : power Decimal.zero base n = .ok Decimal.zero := by
  cases n <;> rfl

/-- One more factor. That a zero is not multiplied further cannot be seen. -/
theorem power_succ (acc base : Decimal) (n : Nat) :
    power acc base (n + 1) = acc.mul base >>= fun next => power next base n := by
  rw [power]
  split
  · next hzero =>
    rw [Decimal.mul_of_magnitude_eq_zero hzero]
    exact (power_of_zero base n).symm
  · rfl

/-- Powers of a fraction are fractions. -/
theorem exists_power (hacc : acc.IsFraction) (hbase : base.IsFraction) (n : Nat) :
    ∃ r, power acc base n = .ok r ∧ r.IsFraction := by
  induction n generalizing acc with
  | zero => exact ⟨acc, rfl, hacc⟩
  | succ n ih =>
    obtain ⟨next, hnext, hfraction⟩ := exists_mul_of_isFraction hacc hbase
    rw [power_succ, hnext]
    exact ih hfraction

theorem power_le_power (hacc : 0 ≤ acc.value) (hle : acc.value ≤ acc'.value) (hbase : 0 ≤ base.value)
    (hbase' : base.value ≤ base'.value) (h : power acc base n = .ok r) (h' : power acc' base' n = .ok r') :
    r.value ≤ r'.value := by
  induction n generalizing acc acc' with
  | zero =>
    cases h
    cases h'
    exact hle
  | succ n ih =>
    rw [power_succ] at h h'
    obtain ⟨next, hnext, h⟩ := exists_of_bind_eq_ok h
    obtain ⟨next', hnext', h'⟩ := exists_of_bind_eq_ok h'
    have hgives := hnext ▸ gives_mul acc base
    have hgives' := hnext' ▸ gives_mul acc' base'
    exact ih (hgives.nonneg (mul_nonneg hacc hbase))
      (hgives.value_le hgives' (mul_le_mul hle hbase' hbase (hacc.trans hle))) h h'

/-- Where every power on the way is a decimal, the last one is exact. -/
theorem exists_power_exact (h : ∀ k ≤ n, IsDecimal (acc.value * base.value ^ k)) :
    ∃ r, power acc base n = .ok r ∧ r.value = acc.value * base.value ^ n := by
  induction n generalizing acc with
  | zero => exact ⟨acc, rfl, by rw [pow_zero, mul_one]⟩
  | succ n ih =>
    have hfirst : IsDecimal (acc.value * base.value) := pow_one base.value ▸ h 1 (Nat.le_add_left 1 n)
    obtain ⟨next, hnext, hvalue⟩ := (gives_mul acc base).exact hfirst
    have hstep (k : Nat) : next.value * base.value ^ k = acc.value * base.value ^ (k + 1) := by
      rw [hvalue, pow_succ']
      ring
    obtain ⟨r, hr, hpower⟩ := ih fun k hk => hstep k ▸ h (k + 1) (Nat.succ_le_succ hk)
    rw [power_succ, hnext]
    exact ⟨r, hr, hpower.trans (hstep n)⟩

/-! ## What is charged -/

/-- What is charged of a raw fee. -/
def charged (raw : Decimal) : Decimal :=
  if raw.truncateTo places < smallest then Decimal.zero else raw.truncateTo places

/-- The raw fee rounded down. Below the smallest fee that is zero without saying so. -/
theorem value_charged {raw : Decimal} (h : 0 ≤ raw.value) :
    (charged raw).value = (⌊10000 * raw.value⌋ : ℚ) / 10000 := by
  have hcut : (raw.truncateTo places).value = (⌊10000 * raw.value⌋ : ℚ) / 10000 := by
    rw [Decimal.value_truncateTo places h, mul_comm]
    norm_num [places, tenPow]
  unfold charged
  split
  · next hsmall =>
    have hsmallest : smallest.value = 1 / 10000 := by
      norm_num [Decimal.value_of_literal (a := smallest) (n := 1) (d := 10000) rfl rfl rfl]
    rw [Decimal.lt_iff_value_lt, hcut, hsmallest, div_lt_div_iff_of_pos_right (by norm_num)] at hsmall
    have hnone : ⌊10000 * raw.value⌋ = 0 :=
      le_antisymm (Int.lt_add_one_iff.mp (by exact_mod_cast hsmall)) (Int.floor_nonneg.mpr (by positivity))
    rw [hnone, value_zero, Int.cast_zero, zero_div]
  · exact hcut

/-! ## The steps of a fee -/

variable {m : FeeModel} {shares shares' price price' fee fee' : Decimal}

/-- Whether a trade is charged at all. -/
def Charges (shares price : Decimal) : Prop := 0 < shares.value ∧ 0 < price.value ∧ price.value < 1

/-- A trade is charged if the factor of its price is positive. -/
theorem charges_iff : Charges shares price ↔ 0 < shares.value ∧ 0 < price.value * (1 - price.value) := by
  refine and_congr_right fun _ => ⟨fun h => mul_pos h.1 (sub_pos.mpr h.2), ?_⟩
  intro h
  rcases mul_pos_iff.mp h with ⟨hlow, hhigh⟩ | ⟨hneg, hover⟩
  · exact ⟨hlow, sub_pos.mp hhigh⟩
  · exact absurd (hneg.trans zero_lt_one) (not_lt.mpr (sub_neg.mp hover).le)

/-- Nothing is charged without shares, and at the ends of the price. -/
theorem not_charges_iff : ¬ Charges shares price ↔ shares ≤ .zero ∨ price ≤ .zero ∨ Decimal.one ≤ price := by
  rw [Decimal.le_iff_value_le, Decimal.le_iff_value_le, Decimal.le_iff_value_le, value_zero, value_one, Charges,
    not_and_or, not_and_or, not_lt, not_lt, not_lt]

/-- Where nothing is charged, the fee is zero. -/
theorem fee_of_not_charges (h : ¬ Charges shares price) : m.fee shares price = .ok .zero := by
  rw [FeeModel.fee, if_pos (not_charges_iff.mp h)]

theorem exists_rest (hlow : 0 < price.value) (hhigh : price.value < 1) :
    ∃ rest, Decimal.one.sub price = .ok rest ∧ rest.value = 1 - price.value := by
  have hsmall : |Decimal.one.value - price.value| < 1 := by
    rw [value_one, abs_lt]
    constructor <;> linarith
  obtain ⟨rest, hrest⟩ := Decimal.exists_sub_eq_ok (hsmall.trans (by norm_num [twoPow]))
  have hvalue := Decimal.value_of_sub hrest (hsmall.le.trans (by norm_num))
  rw [value_one] at hvalue
  exact ⟨rest, hrest, hvalue⟩

/-- The part of a fee that the price decides: it cannot fail, and the product of shares and rate is
multiplied by it. -/
theorem fee_eq_of_charges (m : FeeModel) (h : Charges shares price) :
    ∃ base factor, Gives .multiplication (price.value * (1 - price.value)) (.ok base) ∧ base.IsFraction ∧
      power .one base m.exponent = .ok factor ∧ factor.IsFraction ∧
      m.fee shares price = shares.mul m.rate >>= fun due => due.mul factor >>= fun raw => .ok (charged raw) := by
  obtain ⟨rest, hrest, hvalue⟩ := exists_rest h.2.1 h.2.2
  have hrestFraction : rest.IsFraction := by
    rw [IsFraction, hvalue]
    constructor <;> linarith [h.2.1, h.2.2]
  obtain ⟨base, hbase, hbaseFraction⟩ := exists_mul_of_isFraction ⟨h.2.1.le, h.2.2.le⟩ hrestFraction
  obtain ⟨factor, hfactor, hfraction⟩ := exists_power ⟨value_one ▸ zero_le_one, value_one.le⟩ hbaseFraction m.exponent
  refine ⟨base, factor, ?_, hbaseFraction, hfactor, hfraction, ?_⟩
  · rw [← hvalue, ← hbase]
    exact gives_mul price rest
  · rw [FeeModel.fee, if_neg (fun hnone => not_charges_iff.mpr hnone h), hrest]
    show (price.mul rest >>= _) = _
    rw [hbase]
    show (power .one base m.exponent >>= _) = _
    rw [hfactor]
    rfl

/-- Only the product of shares and rate can be too large. -/
theorem exists_fee_iff (h : Charges shares price) :
    (∃ fee, m.fee shares price = .ok fee) ↔ ∃ due, shares.mul m.rate = .ok due := by
  obtain ⟨-, factor, -, -, -, hfraction, heq⟩ := fee_eq_of_charges m h
  rw [heq]
  constructor
  · rintro ⟨fee, hfee⟩
    obtain ⟨due, hdue, -⟩ := exists_of_bind_eq_ok hfee
    exact ⟨due, hdue⟩
  · rintro ⟨due, hdue⟩
    obtain ⟨raw, hraw⟩ := exists_mul_eq_ok due hfraction
    exact exists_bind_eq_ok hdue (exists_bind_eq_ok hraw ⟨charged raw, rfl⟩)

/-- A fee fails only if shares times rate does. -/
theorem fee_eq_error {e : Decimal.Fault} (h : Charges shares price) (hdue : shares.mul m.rate = .error e) :
    m.fee shares price = .error e := by
  obtain ⟨_, _, -, -, -, -, heq⟩ := fee_eq_of_charges m h
  rw [heq, hdue]
  rfl

/-- A fee of a trade, from what is due on it and the part that the price decides. -/
theorem fee_eq_ok (h : Charges shares price) (hfee : m.fee shares price = .ok fee) :
    ∃ due base factor raw, shares.mul m.rate = .ok due ∧
      Gives .multiplication (price.value * (1 - price.value)) (.ok base) ∧ base.IsFraction ∧
      power .one base m.exponent = .ok factor ∧ factor.IsFraction ∧ due.mul factor = .ok raw ∧ fee = charged raw := by
  obtain ⟨base, factor, hbase, hbaseFraction, hfactor, hfraction, heq⟩ := fee_eq_of_charges m h
  rw [heq] at hfee
  obtain ⟨due, hdue, hfee⟩ := exists_of_bind_eq_ok hfee
  obtain ⟨raw, hraw, hfee⟩ := exists_of_bind_eq_ok hfee
  exact ⟨due, base, factor, raw, hdue, hbase, hbaseFraction, hfactor, hfraction, hraw, (Except.ok.inj hfee).symm⟩

section NonnegativeRate

variable (hrate : 0 ≤ m.rate.value)

include hrate

/-- What is due before the price is counted in is not negative. -/
theorem value_due_nonneg {due : Decimal} (hshares : 0 < shares.value) (h : shares.mul m.rate = .ok due) :
    0 ≤ due.value := by
  have hgives := h ▸ gives_mul shares m.rate
  exact hgives.nonneg (mul_nonneg hshares.le hrate)

theorem exists_ticks (h : m.fee shares price = .ok fee) : ∃ ticks : ℕ, fee.value = ticks / 10000 := by
  by_cases hcharges : Charges shares price
  · obtain ⟨due, base, factor, raw, hdue, -, -, -, hfraction, hraw, rfl⟩ := fee_eq_ok hcharges h
    have hdueLow := value_due_nonneg hrate hcharges.1 hdue
    have hrawLow : 0 ≤ raw.value := (hraw ▸ gives_mul due factor).nonneg (mul_nonneg hdueLow hfraction.1)
    refine ⟨⌊10000 * raw.value⌋.toNat, ?_⟩
    have hfloor : 0 ≤ ⌊10000 * raw.value⌋ := Int.floor_nonneg.mpr (by positivity)
    rw [value_charged hrawLow]
    congr 1
    exact_mod_cast (Int.toNat_of_nonneg hfloor).symm
  · rw [fee_of_not_charges hcharges] at h
    cases h
    exact ⟨0, by rw [value_zero, Nat.cast_zero, zero_div]⟩

theorem fee_nonneg (h : m.fee shares price = .ok fee) : 0 ≤ fee.value := by
  obtain ⟨ticks, hticks⟩ := exists_ticks hrate h
  rw [hticks]
  positivity

/-- The fee grows with the shares and with the factor `p (1 - p)` of the price. -/
theorem fee_le_fee (hshares : shares.value ≤ shares'.value)
    (hprice : price.value * (1 - price.value) ≤ price'.value * (1 - price'.value))
    (h : m.fee shares price = .ok fee) (h' : m.fee shares' price' = .ok fee') : fee.value ≤ fee'.value := by
  by_cases hcharges : Charges shares price
  · have hcharges' : Charges shares' price' := by
      obtain ⟨hsharesPos, hpricePos⟩ := charges_iff.mp hcharges
      exact charges_iff.mpr ⟨hsharesPos.trans_le hshares, hpricePos.trans_le hprice⟩
    obtain ⟨due, base, factor, raw, hdue, hbase, hbaseFraction, hpower, hfraction, hraw, rfl⟩ := fee_eq_ok hcharges h
    obtain ⟨due', base', factor', raw', hdue', hbase', hbaseFraction', hpower', hfraction', hraw', rfl⟩ :=
      fee_eq_ok hcharges' h'
    -- every product in the chain keeps the order, since no factor is negative
    have hdueLow := value_due_nonneg hrate hcharges.1 hdue
    have hdueLe : due.value ≤ due'.value :=
      (hdue ▸ gives_mul shares m.rate).value_le (hdue' ▸ gives_mul shares' m.rate)
        (mul_le_mul_of_nonneg_right hshares hrate)
    have hfactorLe : factor.value ≤ factor'.value :=
      power_le_power (value_one ▸ zero_le_one) le_rfl hbaseFraction.1 (hbase.value_le hbase' hprice) hpower hpower'
    have hgives := hraw ▸ gives_mul due factor
    have hgives' := hraw' ▸ gives_mul due' factor'
    have hrawLow : 0 ≤ raw.value := hgives.nonneg (mul_nonneg hdueLow hfraction.1)
    have hrawLe : raw.value ≤ raw'.value :=
      hgives.value_le hgives' (mul_le_mul hdueLe hfactorLe hfraction.1 (hdueLow.trans hdueLe))
    -- and so does cutting
    rw [value_charged hrawLow, value_charged (hrawLow.trans hrawLe)]
    have hfloor : ⌊10000 * raw.value⌋ ≤ ⌊10000 * raw'.value⌋ := Int.floor_le_floor (by linarith)
    exact div_le_div_of_nonneg_right (Int.cast_le.mpr hfloor) (by norm_num)
  · rw [fee_of_not_charges hcharges] at h
    cases h
    rw [value_zero]
    exact fee_nonneg hrate h'

/-- Prices with one factor have one fee. -/
theorem fee_same (hprice : price'.value * (1 - price'.value) = price.value * (1 - price.value)) :
    SameOutcome Decimal.SameValue (m.fee shares price) (m.fee shares price') := by
  have hiff : Charges shares price' ↔ Charges shares price := by rw [charges_iff, charges_iff, hprice]
  by_cases hcharges : Charges shares price
  · have hcharges' : Charges shares price' := hiff.mpr hcharges
    cases hdue : shares.mul m.rate with
    | error e =>
      rw [fee_eq_error hcharges hdue, fee_eq_error hcharges' hdue]
      exact .error e
    | ok due =>
      obtain ⟨fee, hfee⟩ := (exists_fee_iff hcharges).mpr ⟨due, hdue⟩
      obtain ⟨fee', hfee'⟩ := (exists_fee_iff hcharges').mpr ⟨due, hdue⟩
      have hvalue : fee'.value = fee.value :=
        le_antisymm (fee_le_fee hrate le_rfl hprice.le hfee' hfee) (fee_le_fee hrate le_rfl hprice.ge hfee hfee')
      rw [hfee, hfee']
      exact .ok hvalue
  · rw [fee_of_not_charges hcharges, fee_of_not_charges fun h => hcharges (hiff.mp h)]
    exact .ok rfl

end NonnegativeRate

/-- **The shape of the fee.** With a rate that is not negative, whatever the exponent: a fee is a
number of ticks of 0.0001, none of them negative; it is the same at a price and at one minus it,
which is exact; it rises up to one half, where it is greatest, and with the shares; and between zero
and one it exists wherever the greatest one does. -/
theorem fee_shape (m : FeeModel) (hrate : 0 ≤ m.rate.value) (shares price : Decimal) :
    (∀ fee, m.fee shares price = .ok fee → 0 ≤ fee.value ∧ ∃ ticks : ℕ, fee.value = ticks / 10000) ∧
    (∀ rest, rest.value = 1 - price.value →
      SameOutcome Decimal.SameValue (m.fee shares price) (m.fee shares rest)) ∧
    (0 < price.value → price.value < 1 → ∃ rest, Decimal.one.sub price = .ok rest ∧ rest.value = 1 - price.value) ∧
    (∀ nearer fee fee', price.value ≤ nearer.value → nearer.value ≤ 1 / 2 →
      m.fee shares price = .ok fee → m.fee shares nearer = .ok fee' → fee.value ≤ fee'.value) ∧
    (∀ fee peak, m.fee shares price = .ok fee → m.greatestFee shares = .ok peak → fee.value ≤ peak.value) ∧
    (∀ more fee fee', shares.value ≤ more.value →
      m.fee shares price = .ok fee → m.fee more price = .ok fee' → fee.value ≤ fee'.value) ∧
    (∀ peak, m.greatestFee shares = .ok peak → 0 < price.value → price.value < 1 →
      ∃ fee, m.fee shares price = .ok fee) := by
  -- all of it is the order of fees, for the factor of the price in question
  refine ⟨?ticks, ?symmetric, exists_rest, ?rises, ?peak, ?shares, ?total⟩
  case ticks =>
    intro fee h
    exact ⟨fee_nonneg hrate h, exists_ticks hrate h⟩
  case symmetric =>
    intro rest hrest
    apply fee_same hrate
    rw [hrest]
    ring
  case rises =>
    intro nearer fee fee' hle hnearer h h'
    refine fee_le_fee hrate le_rfl ?_ h h'
    nlinarith
  case peak =>
    intro fee peak h hpeak
    refine fee_le_fee hrate le_rfl ?_ h hpeak
    rw [Decimal.value_half]
    nlinarith [sq_nonneg (price.value - 1 / 2)]
  case shares =>
    intro more fee fee' hle h h'
    exact fee_le_fee hrate hle le_rfl h h'
  case total =>
    intro peak hpeak hlow hhigh
    by_cases hshares : 0 < shares.value
    · have hcharges : Charges shares (.ofDigits 5 1) := by
        rw [Charges, Decimal.value_half]
        exact ⟨hshares, by norm_num, by norm_num⟩
      rw [exists_fee_iff ⟨hshares, hlow, hhigh⟩, ← exists_fee_iff hcharges]
      exact ⟨peak, hpeak⟩
    · exact ⟨.zero, fee_of_not_charges fun h => hshares h.1⟩

/-- A hundred shares at a third with 28 places, where no product of the price is a decimal: two
thirds cost the same, four tenths and one half more, and so do two hundred shares. -/
theorem fee_shape_third :
    let third : Decimal := .ofDigits 3333333333333333333333333333 28
    let twoThirds : Decimal := .ofDigits 6666666666666666666666666667 28
    let fourTenths : Decimal := .ofDigits 4 1
    let double : Decimal := .ofDigits 200 0
    0 ≤ standard.rate.value ∧ 0 < third.value ∧ third.value < 1 ∧ twoThirds.value = 1 - third.value ∧
    third.value ≤ fourTenths.value ∧ fourTenths.value ≤ 1 / 2 ∧ Decimal.hundred.value ≤ double.value ∧
    ∃ fee nearerFee peak doubleFee, standard.fee .hundred third = .ok fee ∧
      standard.fee .hundred fourTenths = .ok nearerFee ∧ standard.greatestFee .hundred = .ok peak ∧
      standard.fee double third = .ok doubleFee ∧
      0 ≤ fee.value ∧ (∃ ticks : ℕ, fee.value = ticks / 10000) ∧
      SameOutcome Decimal.SameValue (standard.fee .hundred third) (standard.fee .hundred twoThirds) ∧
      (∃ rest, Decimal.one.sub third = .ok rest ∧ rest.value = 1 - third.value) ∧
      fee.value ≤ nearerFee.value ∧ fee.value ≤ peak.value ∧ fee.value ≤ doubleFee.value ∧
      (∃ fee, standard.fee .hundred third = .ok fee) := by
  intro third twoThirds fourTenths double
  have hrate : standard.rate.value = 25 / 100 := Decimal.value_of_literal rfl rfl rfl
  have hthird : third.value = 3333333333333333333333333333 / 10000000000000000000000000000 :=
    Decimal.value_of_literal rfl rfl rfl
  have htwoThirds : twoThirds.value = 6666666666666666666666666667 / 10000000000000000000000000000 :=
    Decimal.value_of_literal rfl rfl rfl
  have hfourTenths : fourTenths.value = 4 / 10 := Decimal.value_of_literal rfl rfl rfl
  have hdouble : double.value = 200 / 1 := Decimal.value_of_literal rfl rfl rfl
  have hfee : standard.fee .hundred third = .ok (.ofDigits 12345 4) := by decide +kernel
  have hnearerFee : standard.fee .hundred fourTenths = .ok (.ofDigits 14400 4) := by decide +kernel
  have hpeak : standard.greatestFee .hundred = .ok (.ofDigits 15625 4) := by decide +kernel
  have hdoubleFee : standard.fee double third = .ok (.ofDigits 24691 4) := by decide +kernel
  have hlow : 0 < third.value := by rw [hthird]; norm_num
  have hhigh : third.value < 1 := by rw [hthird]; norm_num
  have hrest : twoThirds.value = 1 - third.value := by rw [hthird, htwoThirds]; norm_num
  have hnearer : third.value ≤ fourTenths.value := by rw [hthird, hfourTenths]; norm_num
  have hhalf : fourTenths.value ≤ 1 / 2 := by rw [hfourTenths]; norm_num
  have hmore : Decimal.hundred.value ≤ double.value := by rw [Decimal.value_hundred, hdouble]; norm_num
  have hnonneg : 0 ≤ standard.rate.value := by rw [hrate]; norm_num
  obtain ⟨hticks, hsymmetric, hexact, hrises, htop, hshares, htotal⟩ := fee_shape standard hnonneg .hundred third
  obtain ⟨hzero, hnumber⟩ := hticks _ hfee
  exact ⟨hnonneg, hlow, hhigh, hrest, hnearer, hhalf, hmore, _, _, _, _, hfee, hnearerFee, hpeak, hdoubleFee, hzero, hnumber,
    hsymmetric twoThirds hrest, hexact hlow hhigh, hrises _ _ _ hnearer hhalf hfee hnearerFee, htop _ _ hfee hpeak,
    hshares _ _ _ hmore hfee hdoubleFee, htotal _ hpeak hlow hhigh⟩

/-! ## Exact fees -/

/-- The fee that the formula asks for, without roundings. -/
def exactFee (m : FeeModel) (shares price : Decimal) : ℚ :=
  shares.value * m.rate.value * (price.value * (1 - price.value)) ^ m.exponent

/-- **The fee is the formula rounded down.** Where the factor of the price, its powers, the product
of shares and rate and the whole product are decimals, the fee exists, is the exact one cut to ticks
of 0.0001, never more than it, and none below a tick. -/
theorem fee_eq_floor (m : FeeModel) (hrate : 0 ≤ m.rate.value) (shares price : Decimal) (hshares : 0 < shares.value)
    (hlow : 0 < price.value) (hhigh : price.value < 1) (hfactor : IsDecimal (price.value * (1 - price.value)))
    (hpowers : ∀ k ≤ m.exponent, IsDecimal ((price.value * (1 - price.value)) ^ k))
    (hdue : IsDecimal (shares.value * m.rate.value)) (hproduct : IsDecimal (m.exactFee shares price)) :
    ∃ fee, m.fee shares price = .ok fee ∧ fee.value = (⌊10000 * m.exactFee shares price⌋ : ℚ) / 10000 ∧
      fee.value ≤ m.exactFee shares price ∧ (m.exactFee shares price < 1 / 10000 → fee.value = 0) := by
  obtain ⟨base, factor, hbase, -, hpower, hfraction, heq⟩ := fee_eq_of_charges m ⟨hshares, hlow, hhigh⟩
  -- every product on the way is exact
  obtain ⟨base', hsame, hbaseValue⟩ := hbase.exact hfactor
  cases hsame
  have hbasePowers : ∀ k ≤ m.exponent, IsDecimal (Decimal.one.value * base.value ^ k) := by
    intro k hk
    rw [value_one, one_mul, hbaseValue]
    exact hpowers k hk
  obtain ⟨factor', hpower', hfactorValue⟩ := exists_power_exact hbasePowers
  cases hpower.symm.trans hpower'
  rw [value_one, one_mul, hbaseValue] at hfactorValue
  obtain ⟨due, hdueEq, hdueValue⟩ := (gives_mul shares m.rate).exact hdue
  have hrawGives := gives_mul due factor
  rw [hdueValue, hfactorValue] at hrawGives
  obtain ⟨raw, hraw, hrawValue⟩ := hrawGives.exact hproduct
  have hnonneg : 0 ≤ m.exactFee shares price :=
    mul_nonneg (mul_nonneg hshares.le hrate) (pow_nonneg (mul_nonneg hlow.le (sub_nonneg.mpr hhigh.le)) _)
  have hcharged : (charged raw).value = (⌊10000 * m.exactFee shares price⌋ : ℚ) / 10000 := by
    rw [value_charged (hrawValue.symm ▸ hnonneg), hrawValue]
    rfl
  refine ⟨charged raw, ?_, hcharged, ?_, ?_⟩
  · rw [heq, hdueEq]
    show (due.mul factor >>= _) = _
    rw [hraw]
    rfl
  · rw [hcharged, div_le_iff₀ (by norm_num), mul_comm]
    exact Int.floor_le _
  · intro hsmall
    have hnone : ⌊10000 * m.exactFee shares price⌋ = 0 := by
      rw [Int.floor_eq_zero_iff]
      constructor <;> linarith
    rw [hcharged, hnone, Int.cast_zero, zero_div]

/-- One share at three tenths: 0.011025 exactly, and 0.0110 are charged. -/
theorem fee_eq_floor_threeTenths :
    let price : Decimal := .ofDigits 3 1
    0 ≤ standard.rate.value ∧ 0 < Decimal.one.value ∧ 0 < price.value ∧ price.value < 1 ∧
    IsDecimal (price.value * (1 - price.value)) ∧
    (∀ k ≤ standard.exponent, IsDecimal ((price.value * (1 - price.value)) ^ k)) ∧
    IsDecimal (Decimal.one.value * standard.rate.value) ∧ IsDecimal (standard.exactFee .one price) ∧
    standard.exactFee .one price = 11025 / 1000000 ∧
    ∃ fee, standard.fee .one price = .ok fee ∧ fee.value = 110 / 10000 := by
  intro price
  have hrate : standard.rate.value = 25 / 100 := Decimal.value_of_literal rfl rfl rfl
  have hprice : price.value = 3 / 10 := Decimal.value_of_literal rfl rfl rfl
  have hfactor : price.value * (1 - price.value) = 21 / 100 := by rw [hprice]; norm_num
  have hexact : standard.exactFee .one price = 11025 / 1000000 := by
    rw [exactFee, hfactor, hrate, value_one]
    norm_num [standard]
  have hfactorDecimal : IsDecimal (price.value * (1 - price.value)) :=
    hfactor ▸ ⟨.ofDigits 21 2, Decimal.value_of_literal rfl rfl rfl⟩
  have hpowers : ∀ k ≤ standard.exponent, IsDecimal ((price.value * (1 - price.value)) ^ k) := by
    intro k hk
    rcases Nat.le_succ_iff.mp hk with hk | rfl
    · rcases Nat.le_one_iff_eq_zero_or_eq_one.mp hk with rfl | rfl
      · exact ⟨.one, by rw [pow_zero, value_one]⟩
      · rw [pow_one]
        exact hfactorDecimal
    · refine ⟨.ofDigits 441 4, ?_⟩
      rw [hfactor]
      norm_num [Decimal.value_of_literal (a := .ofDigits 441 4) (n := 441) (d := 10000) rfl rfl rfl]
  have hdue : IsDecimal (Decimal.one.value * standard.rate.value) := ⟨standard.rate, by rw [value_one, one_mul]⟩
  have hproduct : IsDecimal (standard.exactFee .one price) :=
    hexact ▸ ⟨.ofDigits 11025 6, Decimal.value_of_literal rfl rfl rfl⟩
  have hnonneg : 0 ≤ standard.rate.value := by rw [hrate]; norm_num
  have hone : 0 < Decimal.one.value := by rw [value_one]; norm_num
  have hlow : 0 < price.value := by rw [hprice]; norm_num
  have hhigh : price.value < 1 := by rw [hprice]; norm_num
  obtain ⟨fee, hfee, hvalue, -, -⟩ :=
    fee_eq_floor standard hnonneg .one price hone hlow hhigh hfactorDecimal hpowers hdue hproduct
  refine ⟨hnonneg, hone, hlow, hhigh, hfactorDecimal, hpowers, hdue, hproduct, hexact, fee, hfee, ?_⟩
  have hfloor : ⌊10000 * standard.exactFee .one price⌋ = 110 := by
    rw [hexact, Int.floor_eq_iff]
    norm_num
  rw [hvalue, hfloor]
  norm_num

end FeeModel

end BotSpec
