import BotSpec.Proofs.Decimal.Rounding

/-!
# Arithmetic as rounded exact results

A sum or a difference is the exact result, rounded to the places of its operands, and a quotient is
rounded to 28 of them (`rounds_of_sum?`, `rounds_of_quotient?`). Two facts make calculations easy to
follow:

* `value_of_add`, `value_of_sub`: a sum or difference of size at most seven is exact, since 28
  places of it fit;
* `exists_add_eq_ok`, `exists_sub_eq_ok`: one that is below the greatest decimal and a half has a
  result.
-/

namespace BotSpec.Decimal

variable {a b r : Decimal} {s : Nat}

theorem orFault_eq_ok {fault : Fault} {o : Option Decimal} (h : orFault fault o = .ok r) : o = some r := by
  cases o with
  | none => cases h
  | some d =>
    cases h
    rfl

theorem orFault_eq_error {fault e : Fault} {o : Option Decimal} (h : orFault fault o = .error e) :
    e = fault := by
  cases o with
  | none => exact (Except.error.inj h).symm
  | some d => cases h

/-! ## Sums -/

/-- The coefficient that a decimal has with more places. -/
theorem cast_coefficient_mul (h : a.scale ≤ s) :
    ((a.coefficient * tenPow (s - a.scale) : ℤ) : ℚ) = a.value * tenPow s := by
  have hne := cast_tenPow_ne_zero a.scale
  rw [value, ← tenPow_sub_mul h]
  push_cast
  field_simp

/-- The sum in units of the last place of its operands. -/
def total (a b : Decimal) : ℤ :=
  a.coefficient * tenPow (max a.scale b.scale - a.scale) + b.coefficient * tenPow (max a.scale b.scale - b.scale)

/-- The total counts units of the last place, so over the unit it is the exact sum. -/
theorem cast_total (a b : Decimal) : (total a b : ℚ) = (a.value + b.value) * tenPow (max a.scale b.scale) := by
  rw [total, Int.cast_add, cast_coefficient_mul (le_max_left _ _), cast_coefficient_mul (le_max_right _ _), add_mul]

theorem cast_natAbs_total (a b : Decimal) :
    ((total a b).natAbs : ℚ) = |a.value + b.value| * tenPow (max a.scale b.scale) := by
  rw [Nat.cast_natAbs, Int.cast_abs, cast_total, abs_mul, abs_of_pos (cast_tenPow_pos _)]

theorem max_scale_le (a b : Decimal) : max a.scale b.scale ≤ 28 := max_le a.scale_le b.scale_le

/-- A sum as the ratio that is rounded, with its sign. -/
theorem value_add_eq_ite (a b : Decimal) :
    a.value + b.value =
      if decide (total a b < 0) = true then -(((total a b).natAbs : ℚ) / tenPow (max a.scale b.scale))
      else ((total a b).natAbs : ℚ) / tenPow (max a.scale b.scale) := by
  have hsize : ((total a b).natAbs : ℚ) / tenPow (max a.scale b.scale) = |a.value + b.value| := by
    rw [cast_natAbs_total, mul_div_cancel_right₀ _ (cast_tenPow_ne_zero _)]
  have hsign : total a b < 0 ↔ a.value + b.value < 0 := by
    rw [← Int.cast_lt_zero (R := ℚ), cast_total, ← zero_mul (tenPow (max a.scale b.scale) : ℚ),
      mul_lt_mul_iff_left₀ (cast_tenPow_pos _), zero_mul]
  rw [hsize]
  split
  · next hneg => rw [abs_of_neg (hsign.mp (of_decide_eq_true hneg)), neg_neg]
  · next hpos =>
    have hnot : ¬ a.value + b.value < 0 := fun hlt => hpos (decide_eq_true (hsign.mpr hlt))
    rw [abs_of_nonneg (not_lt.mp hnot)]

/-- What is found for a sum is the exact sum, rounded to the places of its operands. -/
theorem rounds_of_sum? (h : sum? a b = some r) : Rounds (a.value + b.value) (max a.scale b.scale) r := by
  unfold sum? at h
  split at h
  · next hzero =>
    cases h
    rw [value_eq_zero_iff.mpr hzero, zero_add]
    exact Rounds.of_value_eq (le_max_right _ _)
  · split at h
    · next hzero =>
      cases h
      rw [value_eq_zero_iff.mpr hzero, add_zero]
      exact Rounds.of_value_eq (le_max_left _ _)
    · exact rounds_of_nearest? (tenPow_pos _) (max_scale_le a b) h (value_add_eq_ite a b)

theorem rounds_of_add (h : add a b = .ok r) : Rounds (a.value + b.value) (max a.scale b.scale) r :=
  rounds_of_sum? (orFault_eq_ok h)

/-- A difference is the exact one, rounded. -/
theorem rounds_of_sub (h : sub a b = .ok r) : Rounds (a.value - b.value) (max a.scale b.scale) r := by
  have hsum := rounds_of_sum? (orFault_eq_ok h)
  rwa [value_neg, scale_neg, ← sub_eq_add_neg] at hsum

/-- A whole number of units of some place is a decimal if it fits. -/
theorem exists_value_eq {n : ℤ} (hs : s ≤ 28) (hn : n.natAbs < twoPow 96) :
    ∃ c : Decimal, c.scale = s ∧ c.value = n / tenPow s := by
  refine ⟨⟨decide (n < 0), n.natAbs, s, hn, hs⟩, rfl, ?_⟩
  have hcoefficient : (if decide (n < 0) = true then -(n.natAbs : ℤ) else n.natAbs) = n := by
    split
    · next h =>
      have := of_decide_eq_true h
      omega
    · next h =>
      have : ¬ n < 0 := fun hlt => h (decide_eq_true hlt)
      omega
  show ((if decide (n < 0) = true then -(n.natAbs : ℤ) else n.natAbs : ℤ) : ℚ) / _ = _
  rw [hcoefficient]

/-- A sum of size at most seven has a decimal of its own. -/
theorem exists_value_eq_add (h : |a.value + b.value| ≤ 7) :
    ∃ c : Decimal, c.scale = max a.scale b.scale ∧ c.value = a.value + b.value := by
  have hunits : ((total a b).natAbs : ℚ) ≤ 7 * tenPow 28 := by
    rw [cast_natAbs_total]
    have hplaces : (tenPow (max a.scale b.scale) : ℚ) ≤ tenPow 28 :=
      Nat.cast_le.mpr (tenPow_le_tenPow (max_scale_le a b))
    exact mul_le_mul h hplaces (cast_tenPow_pos _).le (by norm_num)
  have hfit : (total a b).natAbs < twoPow 96 := by
    have hle : (total a b).natAbs ≤ 7 * tenPow 28 := by exact_mod_cast hunits
    exact hle.trans_lt (by decide)
  obtain ⟨c, hscale, hvalue⟩ := exists_value_eq (max_scale_le a b) hfit
  refine ⟨c, hscale, ?_⟩
  rw [hvalue, cast_total, mul_div_cancel_right₀ _ (cast_tenPow_ne_zero _)]

/-- A small sum is exact, because 28 places of it fit and its operands have no more. -/
theorem value_of_add (h : add a b = .ok r) (hsmall : |a.value + b.value| ≤ 7) :
    r.value = a.value + b.value := by
  obtain ⟨c, hscale, hvalue⟩ := exists_value_eq_add hsmall
  exact (rounds_of_add h).value_eq hscale.le hvalue

/-- A small difference is exact for the same reason. -/
theorem value_of_sub (h : sub a b = .ok r) (hsmall : |a.value - b.value| ≤ 7) :
    r.value = a.value - b.value := by
  rw [sub_eq_add_neg, ← value_neg] at hsmall ⊢
  obtain ⟨c, hscale, hvalue⟩ := exists_value_eq_add hsmall
  exact (rounds_of_sum? (orFault_eq_ok h)).value_eq hscale.le hvalue

/-- A sum below the greatest decimal and a half has a result. -/
theorem isSome_sum? (h : |a.value + b.value| < twoPow 96 - 1 / 2) : (sum? a b).isSome := by
  unfold sum?
  split
  · rfl
  · split
    · rfl
    · apply isSome_nearest?
      apply roundRatio_lt (tenPow_pos _)
      show 2 * (total a b).natAbs + tenPow (max a.scale b.scale) < 2 * (tenPow (max a.scale b.scale) * twoPow 96)
      have hunits : ((total a b).natAbs : ℚ) < (twoPow 96 - 1 / 2) * tenPow (max a.scale b.scale) := by
        rw [cast_natAbs_total]
        exact mul_lt_mul_of_pos_right h (cast_tenPow_pos _)
      have hdouble : (2 * (total a b).natAbs + tenPow (max a.scale b.scale) : ℚ)
          < 2 * (tenPow (max a.scale b.scale) * twoPow 96) := by linarith
      exact_mod_cast hdouble

/-- A sum that rounds to at most the greatest decimal exists. -/
theorem exists_add_eq_ok (h : |a.value + b.value| < twoPow 96 - 1 / 2) : ∃ r, add a b = .ok r := by
  obtain ⟨r, hr⟩ := Option.isSome_iff_exists.mp (isSome_sum? h)
  exact ⟨r, by rw [add, hr, orFault]⟩

theorem exists_sub_eq_ok (h : |a.value - b.value| < twoPow 96 - 1 / 2) : ∃ r, sub a b = .ok r := by
  rw [sub_eq_add_neg, ← value_neg] at h
  obtain ⟨r, hr⟩ := Option.isSome_iff_exists.mp (isSome_sum? h)
  exact ⟨r, by rw [sub, hr, orFault]⟩

/-! ## Products and quotients -/

/-- The sign of a product or quotient is minus where the signs differ. -/
theorem ite_sign {p q : Bool} {x y : ℚ} :
    (if p then -x else x) * (if q then -y else y) = if (p != q) = true then -(x * y) else x * y := by
  cases p <;> cases q <;> simp

/-- A product with a zero in it is zero. -/
theorem value_mul_eq_zero (h : a.magnitude = 0 ∨ b.magnitude = 0) : a.value * b.value = zero.value := by
  rw [value_zero, mul_eq_zero, value_eq_zero_iff, value_eq_zero_iff]
  exact h

/-- A product as the ratio that is rounded, with its sign. -/
theorem value_mul_eq_ite (a b : Decimal) :
    a.value * b.value =
      if (a.negative != b.negative) = true then -(((a.magnitude * b.magnitude : ℕ) : ℚ) / tenPow (a.scale + b.scale))
      else ((a.magnitude * b.magnitude : ℕ) : ℚ) / tenPow (a.scale + b.scale) := by
  have hsize : ((a.magnitude * b.magnitude : ℕ) : ℚ) / tenPow (a.scale + b.scale) = |a.value| * |b.value| := by
    rw [abs_value, abs_value, div_mul_div_comm, tenPow_add, Nat.cast_mul, Nat.cast_mul]
  rw [hsize, ← ite_sign, ← value_eq_ite, ← value_eq_ite]

theorem mul_of_magnitude_eq_zero (h : a.magnitude = 0) : mul a b = .ok zero := by
  rw [mul, product?, if_pos (Or.inl h)]
  rfl

/-- A quotient as the ratio that is rounded, with its sign. -/
theorem value_div_eq_ite (a b : Decimal) :
    a.value / b.value =
      if (a.negative != b.negative) = true then
        -(((a.magnitude * tenPow b.scale : ℕ) : ℚ) / (b.magnitude * tenPow a.scale : ℕ))
      else ((a.magnitude * tenPow b.scale : ℕ) : ℚ) / (b.magnitude * tenPow a.scale : ℕ) := by
  have hsize : ((a.magnitude * tenPow b.scale : ℕ) : ℚ) / (b.magnitude * tenPow a.scale : ℕ)
      = |a.value| * |b.value|⁻¹ := by
    rw [abs_value, abs_value, inv_div, div_mul_div_comm, Nat.cast_mul, Nat.cast_mul,
      mul_comm (b.magnitude : ℚ)]
  have hinv : (b.value)⁻¹ = if b.negative then -|b.value|⁻¹ else |b.value|⁻¹ := by
    conv_lhs => rw [value_eq_ite]
    split
    · rw [inv_neg]
    · rfl
  rw [hsize, ← ite_sign, ← value_eq_ite, ← hinv, div_eq_mul_inv]

/-- What is found for a quotient is the exact one, rounded to 28 places. -/
theorem rounds_of_quotient? (hb : b.magnitude ≠ 0) (h : quotient? a b = some r) :
    Rounds (a.value / b.value) 28 r := by
  unfold quotient? at h
  split at h
  · next hzero =>
    cases h
    have hvalue : a.value / b.value = zero.value := by
      rw [value_zero, value_eq_zero_iff.mpr hzero, zero_div]
    rw [hvalue]
    exact Rounds.of_value_eq (Nat.zero_le _)
  · exact rounds_of_nearest? (Nat.mul_pos (Nat.pos_of_ne_zero hb) (tenPow_pos _)) le_rfl h (value_div_eq_ite a b)

/-- A quotient is the exact one, rounded to 28 places. -/
theorem rounds_of_div (h : div a b = .ok r) : Rounds (a.value / b.value) 28 r := by
  unfold div at h
  split at h
  · cases h
  · next hb => exact rounds_of_quotient? hb (orFault_eq_ok h)

end BotSpec.Decimal
