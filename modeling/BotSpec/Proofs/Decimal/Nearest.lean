import Mathlib.Algebra.Order.Group.MinMax
import BotSpec.Proofs.Decimal.Arithmetic
import BotSpec.Proofs.Outcome

/-!
# One rounding for all operations

The places at which an operation starts to round depend on the written forms of its operands. What
comes out does not: there is one function `nearestTo?` from numbers to decimals, and every operation
is the exact one followed by it.

> `gives_add`, `gives_sub`, `gives_mul`, `gives_div`: the outcome of an operation is its exact
> result rounded by `nearestTo?`, or its fault where that gives nothing.

So what is known about this one function is known about all of them. It looks at both signs alike
(`Gives.opposite`), it keeps the order of numbers (`Gives.value_le`), it leaves decimals as they are
(`gives_value`), and it gives something for every number that is no larger than some decimal
(`Gives.exists_eq_ok`).

That order is kept is not a matter of one grid, since a large number is rounded to fewer places than
a small one. The larger of two numbers did not fit at the places of the smaller one. So all that
fits there, the smaller one's rounding included, is below the larger number
(`value_le_of_nearest?`).
-/

namespace BotSpec

/-! ## Ratios -/

section Ratio

variable {tie : Tie} {n n' d d' k : Nat}

/-- A ratio is rounded alike in all its forms. -/
theorem roundRatio_mul_right (hk : 0 < k) : roundRatio tie (n * k) (d * k) = roundRatio tie n d := by
  have hquot : n * k / (d * k) = n / d := Nat.mul_div_mul_right n d hk
  have hrest : n * k % (d * k) = n % d * k := Nat.mul_mod_mul_right k n d
  have habove : 2 * (n % d * k) > d * k ↔ 2 * (n % d) > d := by
    rw [← Nat.mul_assoc]
    exact Nat.mul_lt_mul_right hk
  have hmiddle : 2 * (n % d * k) = d * k ↔ 2 * (n % d) = d := by
    rw [← Nat.mul_assoc]
    exact Nat.mul_left_inj hk.ne'
  simp only [roundRatio, hquot, hrest, habove, hmiddle]

/-- Ratios that stand for one number are rounded alike. -/
theorem roundRatio_eq (hd : 0 < d) (hd' : 0 < d') (h : n * d' = n' * d) :
    roundRatio tie n d = roundRatio tie n' d' := by
  calc roundRatio tie n d = roundRatio tie (n * d') (d * d') := (roundRatio_mul_right hd').symm
    _ = roundRatio tie (n' * d) (d' * d) := by rw [h, Nat.mul_comm d]
    _ = roundRatio tie n' d' := roundRatio_mul_right hd

/-- A ratio that is a whole number is not rounded. -/
theorem roundRatio_exact (hd : 0 < d) : roundRatio tie (k * d) d = k :=
  Nat.le_antisymm (roundRatio_le_of_le hd le_rfl) (le_roundRatio hd le_rfl)

theorem roundRatio_zero (hd : 0 < d) : roundRatio tie 0 d = 0 := Nat.le_zero.mp (roundRatio_le tie 0 hd)

/-- Over one denominator the larger numerator is rounded to no less. -/
theorem roundRatio_le_roundRatio_left (h : n ≤ n') : roundRatio tie n d ≤ roundRatio tie n' d := by
  rcases (Nat.div_le_div_right h : n / d ≤ n' / d).lt_or_eq with hlt | heq
  · simp only [roundRatio]
    split <;> split <;> omega
  · -- over the same whole number the larger rest is rounded up if the smaller one is
    have hrest : n % d ≤ n' % d := by
      have hsplit : d * (n / d) + n % d = n := Nat.div_add_mod n d
      have hsplit' : d * (n' / d) + n' % d = n' := Nat.div_add_mod n' d
      rw [heq] at hsplit
      omega
    simp only [roundRatio, heq]
    split
    · next hup =>
      have hup' : 2 * (n' % d) > d ∨ (2 * (n' % d) = d ∧ tie.lifts (n' / d)) := by
        rcases hup with habove | ⟨hmiddle, hlifts⟩
        · exact Or.inl (by omega)
        · rcases hrest.lt_or_eq with hmore | hsame
          · exact Or.inl (by omega)
          · exact Or.inr ⟨by omega, hlifts⟩
      rw [if_pos hup']
    · split <;> omega

/-- The larger of two ratios is rounded to no less. -/
theorem roundRatio_le_roundRatio (hd : 0 < d) (hd' : 0 < d') (h : n * d' ≤ n' * d) :
    roundRatio tie n d ≤ roundRatio tie n' d' := by
  calc roundRatio tie n d = roundRatio tie (n * d') (d * d') := (roundRatio_mul_right hd').symm
    _ ≤ roundRatio tie (n' * d) (d * d') := roundRatio_le_roundRatio_left h
    _ = roundRatio tie (n' * d) (d' * d) := by rw [Nat.mul_comm d]
    _ = roundRatio tie n' d' := roundRatio_mul_right hd

end Ratio

namespace Decimal

variable {negative : Bool} {n n' d d' m s t : Nat} {a b r r' : Decimal} {x y : ℚ}

/-! ## What the search depends on -/

/-- A magnitude that fits gives the decimal of its ratio. -/
theorem map_value_make? (hm : m < twoPow 96) (hs : s ≤ 28) :
    (make? negative m s).map value = some (if negative then -((m : ℚ) / tenPow s) else m / tenPow s) := by
  rw [make?, dif_pos ⟨hm, hs⟩, Option.map_some, Option.some_inj]
  cases negative with
  | false => exact value_of_not_negative rfl
  | true =>
    by_cases hzero : m = 0
    · rw [value_eq_zero_iff.mpr hzero, hzero]
      norm_num
    · exact value_of_negative (by rw [Bool.true_and, bne_iff_ne]; exact hzero)

theorem map_value_nearest? (negative : Bool) (n d s : Nat) : (nearest? negative n d s).map value =
    (nearest? false n d s).map fun r => if negative then -r.value else r.value := by
  cases negative with
  | false => rfl
  | true =>
    have hmake (m s : Nat) : (make? true m s).map value = ((make? false m s).map value).map Neg.neg := by
      by_cases h : m < twoPow 96 ∧ s ≤ 28
      · rw [map_value_make? h.1 h.2, map_value_make? h.1 h.2]
        rfl
      · rw [make?, make?, dif_neg h, dif_neg h]
        rfl
    show _ = (nearest? false n d s).map (Neg.neg ∘ value)
    rw [← Option.map_map]
    induction s with
    | zero => exact hmake _ 0
    | succ s ih => rw [nearest?, nearest?, Option.map_or, Option.map_or, Option.map_or, hmake, ih]

/-- It is the ratio that counts, not its form. -/
theorem nearest?_congr (hd : 0 < d) (hd' : 0 < d') (h : n * d' = n' * d) :
    nearest? negative n d s = nearest? negative n' d' s := by
  have hplaces (t : Nat) : roundRatio .toEven (n * tenPow t) d = roundRatio .toEven (n' * tenPow t) d' := by
    apply roundRatio_eq hd hd'
    calc n * tenPow t * d' = n * d' * tenPow t := Nat.mul_right_comm _ _ _
      _ = n' * d * tenPow t := by rw [h]
      _ = n' * tenPow t * d := Nat.mul_right_comm _ _ _
  induction s with
  | zero =>
    have hwhole := hplaces 0
    rw [tenPow_zero, Nat.mul_one, Nat.mul_one] at hwhole
    rw [nearest?, nearest?, hwhole]
  | succ s ih => rw [nearest?, nearest?, hplaces, ih]

/-- At places where the ratio fits the search ends at once. -/
theorem nearest?_of_lt (h : roundRatio .toEven (n * tenPow s) d < twoPow 96) (hs : s ≤ 28) :
    nearest? negative n d s = make? negative (roundRatio .toEven (n * tenPow s) d) s := by
  cases s with
  | zero => rw [nearest?, tenPow_zero, Nat.mul_one]
  | succ s =>
    rw [nearest?, make?, dif_pos ⟨h, hs⟩]
    rfl

/-- A ratio that has no more places is found from one more place as well. -/
theorem map_value_nearest?_succ (hd : 0 < d) (hdvd : d ∣ n * tenPow s) (hs : s + 1 ≤ 28) :
    (nearest? negative n d (s + 1)).map value = (nearest? negative n d s).map value := by
  obtain ⟨k, hk⟩ := hdvd
  have hshort : roundRatio .toEven (n * tenPow s) d = k := by
    rw [hk, Nat.mul_comm, roundRatio_exact hd]
  have hlong : roundRatio .toEven (n * tenPow (s + 1)) d = k * 10 := by
    have hplace : n * tenPow (s + 1) = k * 10 * d := by
      rw [tenPow_succ, ← Nat.mul_assoc, hk]
      ring
    rw [hplace, roundRatio_exact hd]
  by_cases hfit : k * 10 < twoPow 96
  · -- both are exact
    rw [nearest?_of_lt (hlong ▸ hfit) hs, nearest?_of_lt (by omega) (by omega), hshort, hlong,
      map_value_make? hfit hs, map_value_make? (by omega) (by omega)]
    have hratio : ((k * 10 : ℕ) : ℚ) / tenPow (s + 1) = k / tenPow s := by
      rw [tenPow_succ, Nat.cast_mul, Nat.cast_mul, mul_div_mul_right _ _ (by norm_num)]
    rw [hratio]
  · rw [nearest?, hlong, make?, dif_neg fun h => hfit h.1, Option.none_or]

/-- A ratio that is a whole number of units of some place is found at that place already. -/
theorem map_value_nearest?_of_dvd (hd : 0 < d) (hdvd : d ∣ n * tenPow s) (hst : s ≤ t) (ht : t ≤ 28) :
    (nearest? negative n d t).map value = (nearest? negative n d s).map value := by
  induction t, hst using Nat.le_induction with
  | base => rfl
  | succ t hst ih =>
    have hmore : d ∣ n * tenPow t := by
      rw [← tenPow_sub_mul hst, ← Nat.mul_assoc, Nat.mul_right_comm]
      exact Dvd.dvd.mul_right hdvd _
    rw [map_value_nearest?_succ hd hmore ht, ih (by omega)]

theorem value_le_of_nearest? (hd : 0 < d) (hd' : 0 < d') (h : n * d' ≤ n' * d)
    (hr : nearest? false n d 28 = some r) (hr' : nearest? false n' d' 28 = some r') : r.value ≤ r'.value := by
  obtain ⟨hscale, hnegative, hmagnitude, hunfit⟩ := nearest?_eq_some le_rfl hr
  obtain ⟨hscale', hnegative', hmagnitude', hunfit'⟩ := nearest?_eq_some le_rfl hr'
  have hplaces (t : Nat) : roundRatio .toEven (n * tenPow t) d ≤ roundRatio .toEven (n' * tenPow t) d' := by
    apply roundRatio_le_roundRatio hd hd'
    calc n * tenPow t * d' = n * d' * tenPow t := Nat.mul_right_comm _ _ _
      _ ≤ n' * d * tenPow t := Nat.mul_le_mul_right _ h
      _ = n' * tenPow t * d := Nat.mul_right_comm _ _ _
  rcases Nat.lt_trichotomy r.scale r'.scale with hfewer | hsame | hmore
  · -- the smaller number would have fit as well
    have hlarge := (hunfit r'.scale hfewer hscale').trans (hplaces r'.scale)
    rw [← hmagnitude'] at hlarge
    exact absurd r'.magnitude_lt (not_lt.mpr hlarge)
  · rw [value_of_not_negative hnegative, value_of_not_negative hnegative', hsame, hmagnitude, hmagnitude', hsame]
    exact div_le_div_of_nonneg_right (Nat.cast_le.mpr (hplaces r'.scale)) (cast_tenPow_pos _).le
  · -- the larger number did not fit at the places of `r`, so it is above `r`, and its rounding is as well
    have hbelow : r.magnitude * d' ≤ n' * tenPow r.scale := by
      by_contra hnot
      have hfit : roundRatio .toEven (n' * tenPow r.scale) d' ≤ r.magnitude :=
        roundRatio_le_of_le hd' (not_le.mp hnot).le
      exact absurd (hunfit' r.scale hmore hscale) (not_le.mpr (hfit.trans_lt r.magnitude_lt))
    have hrounds : Rounds ((n' : ℚ) / d') 28 r' := rounds_of_nearest? hd' le_rfl hr' rfl
    apply hrounds.ge_of_ge r r.scale_le
    rw [value_of_not_negative hnegative, div_le_div_iff₀ (cast_tenPow_pos _) (Nat.cast_pos.mpr hd')]
    exact_mod_cast hbelow

/-! ## Rounding a number -/

/-- The decimal nearest to a number, with the most places that fit. -/
def nearestTo? (x : ℚ) : Option Decimal := nearest? (decide (x < 0)) x.num.natAbs x.den 28

theorem natAbs_num_div_den (x : ℚ) : (x.num.natAbs : ℚ) / x.den = |x| := by
  rw [Nat.cast_natAbs, Int.cast_abs, ← Nat.abs_cast x.den, ← abs_div, Rat.num_div_den]

/-- A number is the ratio of its numerator and denominator with its sign. -/
theorem eq_ite_num (x : ℚ) :
    x = if decide (x < 0) = true then -((x.num.natAbs : ℚ) / x.den) else (x.num.natAbs : ℚ) / x.den := by
  rw [natAbs_num_div_den]
  split
  · next h => rw [abs_of_neg (of_decide_eq_true h), neg_neg]
  · next h => rw [abs_of_nonneg (not_lt.mp fun hlt => h (decide_eq_true hlt))]

/-- The nearest decimal is the number, rounded to 28 places. -/
theorem rounds_of_nearestTo? (h : nearestTo? x = some r) : Rounds x 28 r :=
  rounds_of_nearest? x.den_pos le_rfl h (eq_ite_num x)

/-- A search for the number gives its nearest decimal, from whatever form of it and whatever places
it starts, if those are all places or as many as the number has. -/
theorem map_value_nearest?_eq (hd : 0 < d) (hs : s ≤ 28) (hplaces : s = 28 ∨ d ∣ n * tenPow s)
    (hx : x = if negative then -((n : ℚ) / d) else n / d) :
    (nearest? negative n d s).map value = (nearestTo? x).map value := by
  have hall : (nearest? negative n d s).map value = (nearest? negative n d 28).map value := by
    rcases hplaces with rfl | hdvd
    · rfl
    · exact (map_value_nearest?_of_dvd hd hdvd hs le_rfl).symm
  have hsize : (n : ℚ) / d = x.num.natAbs / x.den := by
    rw [natAbs_num_div_den, hx]
    split
    · rw [abs_neg, abs_of_nonneg (by positivity)]
    · rw [abs_of_nonneg (by positivity)]
  have hcross : n * x.den = x.num.natAbs * d := by
    rw [div_eq_div_iff (Nat.cast_ne_zero.mpr hd.ne') (Nat.cast_ne_zero.mpr x.den_nz)] at hsize
    exact_mod_cast hsize
  -- the sign is that of the number, unless there is nothing to put it to
  have hsign : negative = decide (x < 0) ∨ x.num.natAbs = 0 := by
    cases negative with
    | false =>
      have hpos : ¬ x < 0 := by
        rw [hx, if_neg Bool.false_ne_true, not_lt]
        positivity
      exact Or.inl (decide_eq_false hpos).symm
    | true =>
      by_cases hzero : x.num.natAbs = 0
      · exact Or.inr hzero
      · have hn : (0 : ℚ) < n / d := by
          rw [hsize]
          exact div_pos (Nat.cast_pos.mpr (Nat.pos_of_ne_zero hzero)) (Nat.cast_pos.mpr x.den_pos)
        have hneg : x < 0 := by
          rw [hx, if_pos rfl]
          exact neg_neg_of_pos hn
        exact Or.inl (decide_eq_true hneg).symm
  rw [hall, nearestTo?, nearest?_congr hd x.den_pos hcross]
  rcases hsign with hsame | hzero
  · rw [hsame]
  · rw [map_value_nearest? negative, map_value_nearest? (decide (x < 0))]
    apply Option.map_congr
    intro r hr
    have hnothing : r.value = 0 := by
      rw [value_eq_zero_iff, (nearest?_eq_some le_rfl hr).2.2.1, hzero, Nat.zero_mul, roundRatio_zero x.den_pos]
    rw [hnothing, neg_zero, ite_self, ite_self]

/-- The opposite number has the opposite decimal. -/
theorem map_value_nearestTo?_neg (x : ℚ) :
    (nearestTo? (-x)).map value = (nearestTo? x).map fun r => -r.value := by
  have hx : -x = if (!decide (x < 0)) = true then -((x.num.natAbs : ℚ) / x.den) else x.num.natAbs / x.den := by
    conv_lhs => rw [eq_ite_num x]
    cases decide (x < 0) <;> norm_num
  rw [← map_value_nearest?_eq x.den_pos le_rfl (Or.inl rfl) hx, map_value_nearest? (!decide (x < 0))]
  have hmap : (nearestTo? x).map (fun r => -r.value) = ((nearestTo? x).map value).map Neg.neg := by
    rw [Option.map_map]
    rfl
  rw [hmap, nearestTo?, map_value_nearest? (decide (x < 0)), Option.map_map]
  congr 1
  funext r
  show _ = -(if decide (x < 0) = true then -r.value else r.value)
  cases decide (x < 0) with
  | false => rfl
  | true => exact (neg_neg r.value).symm

theorem map_value_nearestTo?_value (a : Decimal) : (nearestTo? a.value).map value = some a.value := by
  have hvalue : a.value = if a.negative = true then -((a.magnitude : ℚ) / tenPow a.scale)
      else a.magnitude / tenPow a.scale := by
    split
    · next h => exact value_of_negative h
    · next h => exact value_of_not_negative (Bool.eq_false_of_not_eq_true h)
  have hfit : roundRatio .toEven (a.magnitude * tenPow a.scale) (tenPow a.scale) = a.magnitude :=
    roundRatio_exact (tenPow_pos _)
  rw [← map_value_nearest?_eq (tenPow_pos _) a.scale_le (Or.inr (Dvd.intro_left _ rfl)) hvalue,
    nearest?_of_lt (hfit.symm ▸ a.magnitude_lt) a.scale_le, hfit, map_value_make? a.magnitude_lt a.scale_le, ← hvalue]

theorem exists_nearestTo?_neg (h : nearestTo? x = some r) :
    ∃ r', nearestTo? (-x) = some r' ∧ r'.value = -r.value := by
  have hmap := map_value_nearestTo?_neg x
  rw [h, Option.map_some] at hmap
  exact Option.map_eq_some_iff.mp hmap

/-- Rounding keeps the order of numbers. -/
theorem value_le_of_nearestTo? (hr : nearestTo? x = some r) (hr' : nearestTo? y = some r') (h : x ≤ y) :
    r.value ≤ r'.value := by
  -- on one side of zero it is the order of the ratios
  have hpositive {x y : ℚ} {r r' : Decimal} (hx : 0 ≤ x) (h : x ≤ y) (hr : nearestTo? x = some r)
      (hr' : nearestTo? y = some r') : r.value ≤ r'.value := by
    rw [nearestTo?, decide_eq_false (not_lt.mpr hx)] at hr
    rw [nearestTo?, decide_eq_false (not_lt.mpr (hx.trans h))] at hr'
    apply value_le_of_nearest? x.den_pos y.den_pos ?_ hr hr'
    have hsize : |x| ≤ |y| := abs_le_abs_of_nonneg hx h
    rw [← natAbs_num_div_den, ← natAbs_num_div_den,
      div_le_div_iff₀ (Nat.cast_pos.mpr x.den_pos) (Nat.cast_pos.mpr y.den_pos)] at hsize
    exact_mod_cast hsize
  rcases le_or_gt 0 x with hx | hx
  · exact hpositive hx h hr hr'
  · rcases le_or_gt 0 y with hy | hy
    · -- zero is in between
      have hlow : r.value ≤ zero.value :=
        (rounds_of_nearestTo? hr).le_of_le zero (Nat.zero_le _) (hx.le.trans value_zero.ge)
      have hhigh : zero.value ≤ r'.value :=
        (rounds_of_nearestTo? hr').ge_of_ge zero (Nat.zero_le _) (value_zero.le.trans hy)
      exact hlow.trans hhigh
    · -- below zero the order is turned
      obtain ⟨u, hu, hvalue⟩ := exists_nearestTo?_neg hr
      obtain ⟨u', hu', hvalue'⟩ := exists_nearestTo?_neg hr'
      have hopposite := hpositive (neg_nonneg.mpr hy.le) (neg_le_neg h) hu' hu
      linarith

/-- What is no larger than some decimal is rounded to one. -/
theorem isSome_nearestTo? (h : |x| ≤ |a.value|) : (nearestTo? x).isSome := by
  apply isSome_nearest?
  have hsize : x.num.natAbs ≤ a.magnitude * x.den := by
    have hunit : (1 : ℚ) ≤ tenPow a.scale := by exact_mod_cast tenPow_pos a.scale
    have hwhole : |x| ≤ a.magnitude := by
      rw [abs_value] at h
      exact h.trans (div_le_self (Nat.cast_nonneg _) hunit)
    rw [← natAbs_num_div_den, div_le_iff₀ (Nat.cast_pos.mpr x.den_pos)] at hwhole
    exact_mod_cast hwhole
  exact (roundRatio_le_of_le x.den_pos hsize).trans_lt a.magnitude_lt

/-! ## Operations -/

/-- Two decimals stand for the same number. -/
def SameValue (a b : Decimal) : Prop := b.value = a.value

/-- Two decimals stand for opposite numbers. -/
def OppositeValue (a b : Decimal) : Prop := b.value = -a.value

/-- A number that has a decimal: one of at most 28 places and 96 bits. -/
def IsDecimal (x : ℚ) : Prop := ∃ a : Decimal, a.value = x

/-- The outcome of an operation is its exact result `x`, rounded, or its fault if that gives
nothing. -/
def Gives (fault : Fault) (x : ℚ) (o : Except Fault Decimal) : Prop :=
  o.map value = (orFault fault (nearestTo? x)).map value

variable {fault fault' : Fault} {o o' : Except Fault Decimal}

/-- An operation whose search finds the nearest decimal gives that, or its fault where there is
none. -/
theorem gives_orFault {q : Option Decimal} (h : q.map value = (nearestTo? x).map value) :
    Gives fault x (orFault fault q) := by
  unfold Gives
  cases hx : nearestTo? x with
  | none =>
    rw [hx, Option.map_none, Option.map_eq_none_iff] at h
    rw [h]
  | some r =>
    rw [hx, Option.map_some, Option.map_eq_some_iff] at h
    obtain ⟨r', rfl, hvalue⟩ := h
    exact congrArg Except.ok hvalue

/-- A decimal is the rounding of its own value. -/
theorem gives_value (a : Decimal) : Gives fault a.value (.ok a) :=
  gives_orFault (q := some a) (map_value_nearestTo?_value a).symm

/-- Whatever the places of the operands, what is found for a sum is the decimal nearest to it. -/
theorem map_value_sum? (a b : Decimal) : (sum? a b).map value = (nearestTo? (a.value + b.value)).map value := by
  unfold sum?
  split
  · next hzero =>
    rw [value_eq_zero_iff.mpr hzero, zero_add, map_value_nearestTo?_value]
    rfl
  · split
    · next hzero =>
      rw [value_eq_zero_iff.mpr hzero, add_zero, map_value_nearestTo?_value]
      rfl
    · exact map_value_nearest?_eq (tenPow_pos _) (max_scale_le a b) (Or.inr (Dvd.intro_left _ rfl))
        (value_add_eq_ite a b)

theorem gives_add (a b : Decimal) : Gives .addition (a.value + b.value) (add a b) :=
  gives_orFault (map_value_sum? a b)

/-- Subtraction gives the difference, rounded. -/
theorem gives_sub (a b : Decimal) : Gives .subtraction (a.value - b.value) (sub a b) := by
  rw [sub_eq_add_neg, ← value_neg]
  exact gives_orFault (map_value_sum? a b.neg)

/-- What is found for a product is the decimal nearest to it, though its search may start at fewer
places than 28. -/
theorem map_value_product? (a b : Decimal) :
    (product? a b).map value = (nearestTo? (a.value * b.value)).map value := by
  unfold product?
  split
  · next hzero =>
    rw [value_mul_eq_zero hzero, map_value_nearestTo?_value]
    rfl
  · apply map_value_nearest?_eq (tenPow_pos _) (min_le_right _ _) ?_ (value_mul_eq_ite a b)
    rcases le_total (a.scale + b.scale) 28 with hall | hcut
    · rw [min_eq_left hall]
      exact Or.inr (Dvd.intro_left _ rfl)
    · exact Or.inl (min_eq_right hcut)

/-- Multiplication gives the product, rounded. -/
theorem gives_mul (a b : Decimal) : Gives .multiplication (a.value * b.value) (mul a b) :=
  gives_orFault (map_value_product? a b)

/-- Division by a number other than zero gives the quotient, rounded. -/
theorem gives_div (hb : b.value ≠ 0) : Gives .division (a.value / b.value) (div a b) := by
  have hmagnitude : b.magnitude ≠ 0 := fun h => hb (value_eq_zero_iff.mpr h)
  rw [div, if_neg hmagnitude]
  apply gives_orFault
  unfold quotient?
  split
  · next hzero =>
    rw [value_eq_zero_iff.mpr hzero, zero_div, ← value_zero, map_value_nearestTo?_value]
    rfl
  · exact map_value_nearest?_eq (Nat.mul_pos (Nat.pos_of_ne_zero hmagnitude) (tenPow_pos _)) le_rfl (Or.inl rfl)
      (value_div_eq_ite a b)

namespace Gives

/-- Where no decimal is near, the outcome is the fault. -/
theorem eq_error (h : Gives fault x o) (hx : nearestTo? x = none) : o = .error fault := by
  unfold Gives at h
  rw [hx] at h
  cases o with
  | error e => exact congrArg Except.error (Except.error.inj h)
  | ok r => cases h

/-- Where one is, the outcome is a decimal of its value. -/
theorem exists_eq_ok_of_some (h : Gives fault x o) (hx : nearestTo? x = some a) :
    ∃ r, o = .ok r ∧ r.value = a.value := by
  unfold Gives at h
  rw [hx] at h
  cases o with
  | error e => cases h
  | ok r => exact ⟨r, rfl, Except.ok.inj h⟩

/-- A decimal that comes out is of the value of the nearest one. -/
theorem exists_nearestTo? (h : Gives fault x (.ok r)) : ∃ a, nearestTo? x = some a ∧ a.value = r.value := by
  cases hx : nearestTo? x with
  | none => cases h.eq_error hx
  | some a =>
    obtain ⟨r', hr', hvalue⟩ := h.exists_eq_ok_of_some hx
    cases hr'
    exact ⟨a, rfl, hvalue.symm⟩

/-- Operations with the same exact result have the same outcome. -/
theorem same (h : Gives fault x o) (h' : Gives fault x o') : SameOutcome SameValue o o' := by
  cases hx : nearestTo? x with
  | none =>
    rw [h.eq_error hx, h'.eq_error hx]
    exact .error fault
  | some a =>
    obtain ⟨r, rfl, hr⟩ := h.exists_eq_ok_of_some hx
    obtain ⟨r', rfl, hr'⟩ := h'.exists_eq_ok_of_some hx
    exact .ok (hr'.trans hr.symm)

/-- Operations with opposite exact results have opposite outcomes. -/
theorem opposite (h : Gives fault x o) (h' : Gives fault (-x) o') : SameOutcome OppositeValue o o' := by
  have hneg := map_value_nearestTo?_neg x
  cases hx : nearestTo? x with
  | none =>
    rw [hx, Option.map_none, Option.map_eq_none_iff] at hneg
    rw [h.eq_error hx, h'.eq_error hneg]
    exact .error fault
  | some a =>
    rw [hx, Option.map_some, Option.map_eq_some_iff] at hneg
    obtain ⟨a', ha', hvalue⟩ := hneg
    obtain ⟨r, rfl, hr⟩ := h.exists_eq_ok_of_some hx
    obtain ⟨r', rfl, hr'⟩ := h'.exists_eq_ok_of_some ha'
    have hopposite : r'.value = -r.value := by rw [hr', hvalue, hr]
    exact .ok hopposite

/-- What an operation gives grows with its exact result. -/
theorem value_le (h : Gives fault x (.ok r)) (h' : Gives fault' y (.ok r')) (hle : x ≤ y) :
    r.value ≤ r'.value := by
  obtain ⟨a, ha, hr⟩ := h.exists_nearestTo?
  obtain ⟨a', ha', hr'⟩ := h'.exists_nearestTo?
  rw [← hr, ← hr']
  exact value_le_of_nearestTo? ha ha' hle

/-- A decimal above the exact result is above the rounded one. -/
theorem le_of_le (h : Gives fault x (.ok r)) (hx : x ≤ a.value) : r.value ≤ a.value :=
  h.value_le (gives_value a : Gives fault a.value (.ok a)) hx

/-- A decimal below the exact result is below the rounded one. -/
theorem ge_of_ge (h : Gives fault x (.ok r)) (hx : a.value ≤ x) : a.value ≤ r.value :=
  (gives_value a : Gives fault a.value (.ok a)).value_le h hx

/-- Rounding does not make a number negative. -/
theorem nonneg (h : Gives fault x (.ok r)) (hx : 0 ≤ x) : 0 ≤ r.value := by
  rw [← value_zero] at hx ⊢
  exact h.ge_of_ge hx

/-- A decimal that bounds the size of the exact result bounds the size of the rounded one. -/
theorem abs_le_of_abs_le (h : Gives fault x (.ok r)) (hx : |x| ≤ a.value) : |r.value| ≤ a.value := by
  obtain ⟨hlow, hhigh⟩ := abs_le.mp hx
  rw [← value_neg] at hlow
  exact abs_le.mpr ⟨value_neg a ▸ h.ge_of_ge hlow, h.le_of_le hhigh⟩

/-- There is a result where the exact one is no larger than some decimal. -/
theorem exists_eq_ok (h : Gives fault x o) (hx : |x| ≤ |a.value|) : ∃ r, o = .ok r := by
  obtain ⟨found, hfound⟩ := Option.isSome_iff_exists.mp (isSome_nearestTo? hx)
  obtain ⟨r, hr, -⟩ := h.exists_eq_ok_of_some hfound
  exact ⟨r, hr⟩

/-- Where the exact result is a decimal, it is what is given. -/
theorem exact (h : Gives fault x o) (hx : IsDecimal x) : ∃ r, o = .ok r ∧ r.value = x := by
  obtain ⟨a, rfl⟩ := hx
  have hown : Gives fault a.value (.ok a) := gives_value a
  obtain ⟨found, hfound, hvalue⟩ := hown.exists_nearestTo?
  obtain ⟨r, hr, hr'⟩ := h.exists_eq_ok_of_some hfound
  exact ⟨r, hr, hr'.trans hvalue⟩

end Gives

/-! ## Operations on related numbers -/

variable {a' b' : Decimal}

namespace SameValue

/-- Differences of the same numbers are the same, whatever the places. -/
theorem sub (ha : SameValue a a') (hb : SameValue b b') : SameOutcome SameValue (a.sub b) (a'.sub b') := by
  have hdifference := gives_sub a' b'
  rw [ha, hb] at hdifference
  exact (gives_sub a b).same hdifference

theorem mul (ha : SameValue a a') (hb : SameValue b b') : SameOutcome SameValue (a.mul b) (a'.mul b') := by
  have hproduct := gives_mul a' b'
  rw [ha, hb] at hproduct
  exact (gives_mul a b).same hproduct

theorem div (ha : SameValue a a') (hb : SameValue b b') (hne : b.value ≠ 0) :
    SameOutcome SameValue (a.div b) (a'.div b') := by
  have hquotient : Gives .division (a'.value / b'.value) (a'.div b') := gives_div (hb ▸ hne)
  rw [ha, hb] at hquotient
  exact (gives_div hne).same hquotient

/-- Between two limits the same numbers are brought to the same. -/
theorem clamp {lo hi : Decimal} (h : SameValue a b) (hlimits : lo.value ≤ hi.value) :
    SameValue (a.clamp lo hi) (b.clamp lo hi) := by
  unfold SameValue at h ⊢
  rw [value_clamp a hlimits, value_clamp b hlimits, h]

end SameValue

namespace OppositeValue

/-- A product with an opposite factor is the opposite product. -/
theorem mul (ha : OppositeValue a a') (hb : SameValue b b') :
    SameOutcome OppositeValue (a.mul b) (a'.mul b') := by
  have hproduct := gives_mul a' b'
  rw [ha, hb, neg_mul] at hproduct
  exact (gives_mul a b).opposite hproduct

/-- A quotient of an opposite number is the opposite quotient. -/
theorem div (ha : OppositeValue a a') (hb : SameValue b b') (hne : b.value ≠ 0) :
    SameOutcome OppositeValue (a.div b) (a'.div b') := by
  have hquotient : Gives .division (a'.value / b'.value) (a'.div b') := gives_div (hb ▸ hne)
  rw [ha, hb, neg_div] at hquotient
  exact (gives_div hne).opposite hquotient

/-- Opposite numbers stay opposite between limits equally far from zero. -/
theorem clamp {limit : Decimal} (h : OppositeValue a b) (hlimit : 0 ≤ limit.value) :
    OppositeValue (a.clamp limit.neg limit) (b.clamp limit.neg limit) := by
  have hlimits : limit.neg.value ≤ limit.value := by
    rw [value_neg]
    linarith
  have hswap : max (-limit.value) (min limit.value a.value) = min limit.value (max (-limit.value) a.value) := by
    rw [max_min_distrib_left, max_eq_right (by linarith)]
  have hsame : b.value = -a.value := h
  unfold OppositeValue
  rw [value_clamp a hlimits, value_clamp b hlimits, value_neg, hsame, hswap, ← max_neg_neg, ← min_neg_neg, neg_neg]

end OppositeValue

end Decimal

end BotSpec
