import Mathlib.Data.Rat.Floor
import BotSpec.Proofs.Decimal.Nearest

/-!
# Fewer places

Cutting places of a number that is not negative rounds it down (`value_truncateTo`). Rounding half
to even keeps order (`value_roundTo_le`), and it is balanced: two shares of one are rounded to two
shares of one (`value_roundTo_add`). Where one of them is in the middle between two neighbours the
other one is as well, and one has its even neighbour below it, the other one above it, because a
whole is an even number of units.

Dropping needless places changes no number (`value_normalize`), and leaves one written form for each
(`normalize_eq_of_value_eq`).
-/

namespace BotSpec

/-- Rounding moves a ratio by at most one half. -/
theorem abs_roundRatio_sub_le {tie : Tie} {n d : Nat} (hd : 0 < d) :
    |(roundRatio tie n d : ℚ) - n / d| ≤ 1 / 2 := by
  have hunit : (0 : ℚ) < d := Nat.cast_pos.mpr hd
  obtain ⟨hlow, hhigh⟩ := @roundRatio_near tie n d hd
  have hlow : 2 * (n : ℚ) ≤ 2 * (d * roundRatio tie n d) + d := by exact_mod_cast hlow
  have hhigh : 2 * ((d : ℚ) * roundRatio tie n d) ≤ 2 * n + d := by exact_mod_cast hhigh
  rw [sub_div' hunit.ne', abs_div, abs_of_pos hunit, div_le_iff₀ hunit, abs_le]
  constructor <;> linarith

/-- Two parts of an even number are rounded to two parts of it. -/
theorem roundRatio_add_roundRatio {n n' d k : Nat} (hd : 0 < d) (hsum : n + n' = 2 * k * d) :
    roundRatio .toEven n d + roundRatio .toEven n' d = 2 * k := by
  have hsplit : n % d + d * (n / d) = n := Nat.mod_add_div n d
  have hrest : n % d < d := Nat.mod_lt n hd
  have hle : n / d ≤ 2 * k := by
    apply Nat.le_of_mul_le_mul_right _ hd
    exact (Nat.div_mul_le_self n d).trans (hsum ▸ Nat.le_add_right n n')
  by_cases hzero : n % d = 0
  · -- nothing to round on either side
    have hn : n = n / d * d := by
      rw [Nat.mul_comm]
      omega
    have hn' : n' = (2 * k - n / d) * d := by
      rw [Nat.sub_mul]
      omega
    have hround : roundRatio .toEven n d = n / d := by
      conv_lhs => rw [hn]
      exact roundRatio_exact hd
    rw [hround, hn', roundRatio_exact hd]
    omega
  · -- the rests add up to one unit
    have hlt : n / d + 1 ≤ 2 * k := by
      rcases hle.lt_or_eq with hlt | heq
      · exact hlt
      · rw [heq, Nat.mul_comm d] at hsplit
        omega
    have hfill : d - n % d + d * (2 * k - (n / d + 1)) = n' := by
      have hwhole : d * (2 * k - (n / d + 1)) + d * (n / d + 1) = 2 * k * d := by
        rw [← Nat.mul_add, Nat.sub_add_cancel hlt, Nat.mul_comm]
      rw [Nat.mul_add, Nat.mul_one] at hwhole
      omega
    obtain ⟨hquot', hrest'⟩ := (Nat.div_mod_unique hd).mpr ⟨hfill, by omega⟩
    -- one rest is above the middle if the other is below; in the middle both go to their even neighbour
    simp only [roundRatio, hquot', hrest', Tie.lifts, decide_eq_true_eq]
    split <;> split <;> omega

namespace Decimal

variable {a b : Decimal} {places : Nat}

/-- A decimal with the sign of a number that is not negative stands for its magnitude, if a zero is
not made into something else. -/
theorem value_of_sign_eq (h : 0 ≤ a.value) (hsign : b.negative = a.negative)
    (hzero : a.magnitude = 0 → b.magnitude = 0) :
    b.value = b.magnitude / tenPow b.scale := by
  cases hnegative : a.negative with
  | false => exact value_of_not_negative (hsign.trans hnegative)
  | true =>
    have hnone : a.magnitude = 0 := by
      rw [← value_eq_zero_iff]
      refine le_antisymm ?_ h
      rw [value_of_negative hnegative]
      exact neg_nonpos.mpr (by positivity)
    rw [value_eq_zero_iff.mpr (hzero hnone), hzero hnone, Nat.cast_zero, zero_div]

/-- A number that is not negative is its magnitude over the unit of its places. -/
theorem value_eq_of_nonneg (h : 0 ≤ a.value) : a.value = a.magnitude / tenPow a.scale :=
  (abs_of_nonneg h).symm.trans (abs_value a)

/-- Cutting places of a number that is not negative rounds it down. -/
theorem value_truncateTo (places : Nat) (h : 0 ≤ a.value) :
    (a.truncateTo places).value = (⌊a.value * tenPow places⌋ : ℚ) / tenPow places := by
  unfold truncateTo
  split
  · next hfew =>
    -- a whole number of units of the last place
    rw [← cast_coefficient_mul hfew, Int.floor_intCast, cast_coefficient_mul hfew,
      mul_div_cancel_right₀ _ (cast_tenPow_ne_zero _)]
  · next hmany =>
    have hplaces : places ≤ a.scale := (not_le.mp hmany).le
    have hunits : a.value * tenPow places = (a.magnitude : ℚ) / tenPow (a.scale - places) := by
      rw [value_eq_of_nonneg h, ← tenPow_sub_mul hplaces, Nat.cast_mul,
        div_mul_eq_mul_div, mul_div_mul_right _ _ (cast_tenPow_ne_zero _)]
    have hfloor : (⌊a.value * tenPow places⌋ : ℚ) = (a.magnitude / tenPow (a.scale - places) : ℕ) := by
      rw [hunits, Rat.floor_natCast_div_natCast]
      norm_cast
    rw [hfloor]
    refine value_of_sign_eq h rfl ?_
    intro hzero
    show a.magnitude / _ = 0
    rw [hzero, Nat.zero_div]

/-- A decimal with no more places is not rounded. -/
theorem roundTo_of_scale_le (h : a.scale ≤ places) : a.roundTo places = a := dif_pos h

/-- A rounded decimal has at most the places that were asked for. -/
theorem scale_roundTo_le (places : Nat) (a : Decimal) : (a.roundTo places).scale ≤ places := by
  unfold roundTo
  split
  · assumption
  · exact le_rfl

/-- A number that is not negative, rounded to so many places: as a ratio of units of the last one. -/
theorem value_roundTo (places : Nat) (h : 0 ≤ a.value) :
    (a.roundTo places).value
      = (roundRatio .toEven (a.magnitude * tenPow places) (tenPow a.scale) : ℚ) / tenPow places := by
  unfold roundTo
  split
  · next hfew =>
    have hexact : roundRatio .toEven (a.magnitude * tenPow places) (tenPow a.scale)
        = a.magnitude * tenPow (places - a.scale) := by
      rw [← tenPow_sub_mul hfew, ← Nat.mul_assoc, roundRatio_exact (tenPow_pos _)]
    rw [hexact, value_eq_of_nonneg h, ← tenPow_sub_mul hfew, Nat.cast_mul, Nat.cast_mul,
      mul_comm (_ : ℚ) (tenPow a.scale : ℚ),
      mul_div_mul_right _ _ (cast_tenPow_ne_zero _)]
  · next hmany =>
    have hplaces : places ≤ a.scale := (not_le.mp hmany).le
    have hround : roundRatio .toEven (a.magnitude * tenPow places) (tenPow a.scale)
        = roundRatio .toEven a.magnitude (tenPow (a.scale - places)) := by
      rw [← tenPow_sub_mul hplaces, roundRatio_mul_right (tenPow_pos _)]
    rw [hround]
    refine value_of_sign_eq h rfl ?_
    intro hzero
    show roundRatio .toEven a.magnitude _ = 0
    rw [hzero, roundRatio_zero (tenPow_pos _)]

/-- Rounding to so many places keeps order. -/
theorem value_roundTo_le (places : Nat) (ha : 0 ≤ a.value) (h : a.value ≤ b.value) :
    (a.roundTo places).value ≤ (b.roundTo places).value := by
  have hcross : a.magnitude * tenPow b.scale ≤ b.magnitude * tenPow a.scale := by
    have hratio := h
    rw [value_eq_of_nonneg ha, value_eq_of_nonneg (ha.trans h),
      div_le_div_iff₀ (cast_tenPow_pos _) (cast_tenPow_pos _)] at hratio
    exact_mod_cast hratio
  have hround : roundRatio .toEven (a.magnitude * tenPow places) (tenPow a.scale)
      ≤ roundRatio .toEven (b.magnitude * tenPow places) (tenPow b.scale) := by
    apply roundRatio_le_roundRatio (tenPow_pos _) (tenPow_pos _)
    calc a.magnitude * tenPow places * tenPow b.scale = a.magnitude * tenPow b.scale * tenPow places :=
          Nat.mul_right_comm _ _ _
      _ ≤ b.magnitude * tenPow a.scale * tenPow places := Nat.mul_le_mul_right _ hcross
      _ = b.magnitude * tenPow places * tenPow a.scale := Nat.mul_right_comm _ _ _
  rw [value_roundTo places ha, value_roundTo places (ha.trans h)]
  exact div_le_div_of_nonneg_right (Nat.cast_le.mpr hround) (cast_tenPow_pos _).le

/-- Of two decimals with one sign the sizes are as far apart as the values. -/
theorem abs_value_sub_of_negative_eq (h : a.negative = b.negative) :
    |a.value - b.value| = |(a.magnitude : ℚ) / tenPow a.scale - b.magnitude / tenPow b.scale| := by
  cases hsign : b.negative with
  | true =>
    rw [value_of_negative (h.trans hsign), value_of_negative hsign, neg_sub_neg, abs_sub_comm]
  | false => rw [value_of_not_negative (h.trans hsign), value_of_not_negative hsign]

/-- Rounding to so many places moves a decimal, of either sign, by at most half a unit of the last
one. -/
theorem abs_value_roundTo_sub_le (places : Nat) (a : Decimal) :
    |(a.roundTo places).value - a.value| ≤ 1 / 2 / tenPow places := by
  by_cases hfew : a.scale ≤ places
  · rw [roundTo_of_scale_le hfew, sub_self, abs_zero]
    positivity
  · have hsign : (a.roundTo places).negative = a.negative := by
      rw [roundTo, dif_neg hfew]
    have hscale : (a.roundTo places).scale = places := by
      rw [roundTo, dif_neg hfew]
    have hmagnitude : (a.roundTo places).magnitude = roundRatio .toEven a.magnitude (tenPow (a.scale - places)) := by
      rw [roundTo, dif_neg hfew]
    -- in units of the last place
    have hunits : (a.magnitude : ℚ) / tenPow a.scale = a.magnitude / tenPow (a.scale - places) / tenPow places := by
      rw [← tenPow_sub_mul (not_le.mp hfew).le, Nat.cast_mul, div_div]
    rw [abs_value_sub_of_negative_eq hsign, hscale, hmagnitude, hunits, ← sub_div, abs_div,
      abs_of_pos (cast_tenPow_pos places)]
    exact div_le_div_of_nonneg_right (abs_roundRatio_sub_le (tenPow_pos _)) (cast_tenPow_pos places).le

/-- Two shares of one are rounded to two shares of one. -/
theorem value_roundTo_add (places : Nat) (ha : 0 ≤ a.value) (hb : 0 ≤ b.value) (h : a.value + b.value = 1) :
    (a.roundTo (places + 1)).value + (b.roundTo (places + 1)).value = 1 := by
  -- both over the product of their units
  have hwhole : a.magnitude * tenPow b.scale + b.magnitude * tenPow a.scale = tenPow a.scale * tenPow b.scale := by
    rw [value_eq_of_nonneg ha, value_eq_of_nonneg hb, div_add_div _ _ (cast_tenPow_ne_zero _) (cast_tenPow_ne_zero _),
      div_eq_one_iff_eq (mul_ne_zero (cast_tenPow_ne_zero _) (cast_tenPow_ne_zero _))] at h
    rw [Nat.mul_comm b.magnitude]
    exact_mod_cast h
  have heven : tenPow (places + 1) = 2 * (5 * tenPow places) := by
    rw [tenPow_succ]
    ring
  have hunits : a.magnitude * tenPow (places + 1) * tenPow b.scale + b.magnitude * tenPow (places + 1) * tenPow a.scale
      = 2 * (5 * tenPow places) * (tenPow a.scale * tenPow b.scale) := by
    rw [← heven, ← hwhole]
    ring
  have hsum := roundRatio_add_roundRatio (Nat.mul_pos (tenPow_pos _) (tenPow_pos _)) hunits
  rw [roundRatio_mul_right (tenPow_pos _), Nat.mul_comm (tenPow a.scale), roundRatio_mul_right (tenPow_pos _),
    ← heven] at hsum
  rw [value_roundTo _ ha, value_roundTo _ hb, ← add_div, div_eq_one_iff_eq (cast_tenPow_ne_zero _)]
  exact_mod_cast hsum

/-! ## No needless places -/

theorem dropZeros_mul (s m : Nat) : (dropZeros s m).1 * tenPow (s - (dropZeros s m).2) = m := by
  induction s generalizing m with
  | zero =>
    show m * tenPow 0 = m
    rw [tenPow_zero, Nat.mul_one]
  | succ s ih =>
    unfold dropZeros
    split
    · next hten =>
      rw [Nat.succ_sub (dropZeros_bounds s (m / 10)).2, tenPow_succ, ← Nat.mul_assoc, ih]
      omega
    · rw [Nat.sub_self, tenPow_zero, Nat.mul_one]

/-- Places that are left do not end in a zero. -/
theorem dropZeros_last (s m : Nat) : (dropZeros s m).2 = 0 ∨ (dropZeros s m).1 % 10 ≠ 0 := by
  induction s generalizing m with
  | zero => exact Or.inl rfl
  | succ s ih =>
    unfold dropZeros
    split
    · exact ih (m / 10)
    · next hlast => exact Or.inr hlast

/-- The places that are dropped are zeros, so the number stays. -/
theorem value_normalize (a : Decimal) : a.normalize.value = a.value := by
  have hzeros : a.normalize.magnitude * tenPow (a.scale - a.normalize.scale) = a.magnitude :=
    dropZeros_mul a.scale a.magnitude
  have hplaces : a.normalize.scale ≤ a.scale := (dropZeros_bounds a.scale a.magnitude).2
  have hsize : |a.normalize.value| = |a.value| := by
    rw [abs_value, abs_value, ← hzeros, ← tenPow_sub_mul hplaces, Nat.mul_comm (tenPow _), Nat.cast_mul, Nat.cast_mul,
      mul_div_mul_right _ _ (cast_tenPow_ne_zero _)]
  by_cases hzero : a.magnitude = 0
  · -- only the sign of a zero is not kept
    rw [value_eq_zero_iff.mpr hzero, abs_zero, abs_eq_zero] at hsize
    rw [hsize, value_eq_zero_iff.mpr hzero]
  · have hsign : a.normalize.negative = a.negative := by
      show (a.negative && a.magnitude != 0) = a.negative
      rw [bne_iff_ne.mpr hzero, Bool.and_true]
    rw [value_eq_ite, hsign, hsize, ← value_eq_ite]

/-- A decimal without needless places, and without the sign of a zero. -/
structure Normal (a : Decimal) : Prop where
  last : a.scale = 0 ∨ a.magnitude % 10 ≠ 0
  sign : a.negative = true → a.magnitude ≠ 0

/-- What is left has no needless place, and a zero no sign. -/
theorem normal_normalize (a : Decimal) : a.normalize.Normal where
  last := dropZeros_last a.scale a.magnitude
  sign := by
    show (a.negative && a.magnitude != 0) = true → (dropZeros a.scale a.magnitude).1 ≠ 0
    intro hsign hzero
    have hmagnitude := dropZeros_mul a.scale a.magnitude
    rw [hzero, Nat.zero_mul] at hmagnitude
    rw [← hmagnitude, bne_self_eq_false, Bool.and_false] at hsign
    cases hsign

namespace Normal

/-- A number without needless places has no fewer than any other of its size. -/
theorem scale_le (hb : b.Normal) (h : a.magnitude * tenPow b.scale = b.magnitude * tenPow a.scale) :
    b.scale ≤ a.scale := by
  by_contra hmore
  have hzeros : b.magnitude = a.magnitude * tenPow (b.scale - a.scale - 1) * 10 := by
    apply Nat.eq_of_mul_eq_mul_right (tenPow_pos a.scale)
    rw [← h, Nat.mul_assoc (a.magnitude), ← tenPow_succ, Nat.mul_assoc, ← tenPow_add]
    congr 2
    omega
  rcases hb.last with hnone | hlast
  · omega
  · exact hlast (by rw [hzeros, Nat.mul_mod_left])

/-- Without the sign of a zero, the sign is that of the number. -/
theorem negative_iff (ha : a.Normal) : a.negative = true ↔ a.value < 0 := by
  constructor
  · intro hsign
    have hsize : (0 : ℚ) < a.magnitude / tenPow a.scale :=
      div_pos (Nat.cast_pos.mpr (Nat.pos_of_ne_zero (ha.sign hsign))) (cast_tenPow_pos _)
    rw [value_of_negative hsign]
    linarith
  · intro hneg
    by_contra hsign
    rw [value_of_not_negative (Bool.eq_false_of_not_eq_true hsign)] at hneg
    exact absurd hneg (not_lt.mpr (by positivity))

/-- A number is written in one way without needless places. -/
theorem eq_of_value_eq (ha : a.Normal) (hb : b.Normal) (h : a.value = b.value) : a = b := by
  have hcross : a.magnitude * tenPow b.scale = b.magnitude * tenPow a.scale := by
    have hsize : |a.value| = |b.value| := congrArg _ h
    rw [abs_value, abs_value, div_eq_div_iff (cast_tenPow_ne_zero _) (cast_tenPow_ne_zero _)] at hsize
    exact_mod_cast hsize
  have hscale : a.scale = b.scale := Nat.le_antisymm (ha.scale_le hcross.symm) (hb.scale_le hcross)
  have hmagnitude : a.magnitude = b.magnitude := by
    rw [hscale] at hcross
    exact Nat.eq_of_mul_eq_mul_right (tenPow_pos _) hcross
  have hsign : a.negative = b.negative := by
    rw [Bool.eq_iff_iff, ha.negative_iff, hb.negative_iff, h]
  cases a
  cases b
  cases hsign
  cases hmagnitude
  cases hscale
  rfl

end Normal

/-- Decimals of one value have one normal form. -/
theorem normalize_eq_of_value_eq (h : a.value = b.value) : a.normalize = b.normalize := by
  apply a.normal_normalize.eq_of_value_eq b.normal_normalize
  rw [value_normalize, value_normalize, h]

end Decimal

end BotSpec
