import Mathlib.Tactic.Ring
import BotSpec.Proofs.Decimal.Value

/-!
# What an operation rounds to

Sum, product and quotient of decimals are the exact result, rounded once by one search.
`Rounds x s r` says that `r` is such a result: it has at most `s` places, and no decimal with at
most `s` places gets on the other side of it. So a bound that is itself a decimal survives rounding,
and a result that is a decimal is not rounded at all (`Rounds.value_eq`).

> `rounds_of_nearest?`: what the search gives, whenever it gives something, is the ratio that it is
> given, rounded.

A result with fewer places than asked for is one whose magnitude would not fit otherwise. That is
the case to look at: a decimal with more places than the result is then far smaller than it, since
it fits and the result at its places does not (`le_of_unfit`).
-/

namespace BotSpec

/-! ## Ratios -/

section Ratio

variable {tie : Tie} {n d m : Nat}

/-- Rounding moves a ratio by at most one half, stated without fractions. -/
theorem roundRatio_near (hd : 0 < d) :
    2 * n ≤ 2 * (d * roundRatio tie n d) + d ∧ 2 * (d * roundRatio tie n d) ≤ 2 * n + d := by
  have hsplit : d * (n / d) + n % d = n := Nat.div_add_mod n d
  have hrest : n % d < d := Nat.mod_lt n hd
  have hsucc : d * (n / d + 1) = d * (n / d) + d := Nat.mul_succ d (n / d)
  simp only [roundRatio]
  split
  · next hup =>
    have htop : d ≤ 2 * (n % d) := by
      rcases hup with h | h
      · exact h.le
      · exact h.1.ge
    omega
  · next hdown =>
    have hlow : 2 * (n % d) ≤ d := by
      by_contra h
      exact hdown (Or.inl (by omega))
    omega

/-- A whole number below a ratio is below the rounded ratio. -/
theorem le_roundRatio (hd : 0 < d) (h : m * d ≤ n) : m ≤ roundRatio tie n d := by
  have hquot : m ≤ n / d := (Nat.le_div_iff_mul_le hd).mpr h
  simp only [roundRatio]
  split <;> omega

/-- A whole number above a ratio is above the rounded ratio. -/
theorem roundRatio_le_of_le (hd : 0 < d) (h : n ≤ m * d) : roundRatio tie n d ≤ m := by
  rcases Nat.lt_or_ge (n / d) m with hlt | hge
  · simp only [roundRatio]
    split <;> omega
  · -- the quotient is the bound itself, and nothing is left to round
    have hfloor : m * d ≤ n := (Nat.le_div_iff_mul_le hd).mp hge
    have heq : n = m * d := Nat.le_antisymm h hfloor
    have hrest : n % d = 0 := by rw [heq, Nat.mul_mod_left]
    have hquot : n / d = m := by rw [heq, Nat.mul_div_cancel _ hd]
    simp only [roundRatio, hrest, hquot]
    rw [if_neg (by omega)]

/-- A ratio that is more than one half below a number is not rounded to it. -/
theorem roundRatio_lt (hd : 0 < d) (h : 2 * n + d < 2 * (d * m)) : roundRatio tie n d < m := by
  have hlt : d * roundRatio tie n d < d * m := by
    have hnear : 2 * (d * roundRatio tie n d) ≤ 2 * n + d := (roundRatio_near hd).2
    omega
  exact Nat.lt_of_mul_lt_mul_left hlt

end Ratio

namespace Decimal

variable {negative : Bool} {n d s : Nat} {a b r : Decimal}

/-- What is made has the magnitude and the places that were given, and the sign unless it is a zero.
-/
theorem make?_eq_some {magnitude scale : Nat} (h : make? negative magnitude scale = some r) :
    r.negative = (negative && magnitude != 0) ∧ r.magnitude = magnitude ∧ r.scale = scale := by
  unfold make? at h
  split at h
  · cases h
    exact ⟨rfl, rfl, rfl⟩
  · cases h

/-- Nothing is made of a magnitude that does not fit. -/
theorem make?_eq_none {magnitude scale : Nat} (hscale : scale ≤ 28)
    (h : make? negative magnitude scale = none) : twoPow 96 ≤ magnitude := by
  unfold make? at h
  split at h
  · cases h
  · next hlimits => exact not_lt.mp fun hlt => hlimits ⟨hlt, hscale⟩

/-! ## The rounding search -/

/-- All that the search finds: the ratio rounded at the most places at which it fits. -/
theorem nearest?_eq_some (hs : s ≤ 28) (h : nearest? negative n d s = some r) :
    r.scale ≤ s ∧ r.negative = (negative && r.magnitude != 0) ∧
      r.magnitude = roundRatio .toEven (n * tenPow r.scale) d ∧
      ∀ t, r.scale < t → t ≤ s → twoPow 96 ≤ roundRatio .toEven (n * tenPow t) d := by
  -- on the places that the search may still use; what did not fit before does not come back
  induction s with
  | zero =>
    obtain ⟨hnegative, hmagnitude, hscale⟩ := make?_eq_some h
    rw [hscale, hmagnitude, tenPow_zero, Nat.mul_one]
    exact ⟨le_rfl, hnegative, rfl, fun t ht ht' => absurd ht (by omega)⟩
  | succ s ih =>
    rw [nearest?] at h
    cases hmake : make? negative (roundRatio .toEven (n * tenPow (s + 1)) d) (s + 1) with
    | some found =>
      rw [hmake] at h
      cases h
      obtain ⟨hnegative, hmagnitude, hscale⟩ := make?_eq_some hmake
      rw [hscale, hmagnitude]
      exact ⟨le_rfl, hnegative, rfl, fun t ht ht' => absurd ht (by omega)⟩
    | none =>
      rw [hmake, Option.none_or] at h
      obtain ⟨hscale, hnegative, hmagnitude, hunfit⟩ := ih (by omega) h
      refine ⟨by omega, hnegative, hmagnitude, ?_⟩
      intro t ht ht'
      rcases Nat.lt_or_ge s t with hlast | hbefore
      · have heq : t = s + 1 := by omega
        rw [heq]
        exact make?_eq_none hs hmake
      · exact hunfit t ht hbefore

/-- Something is found as soon as the ratio fits without places. -/
theorem isSome_nearest? (h : roundRatio .toEven n d < twoPow 96) : (nearest? negative n d s).isSome := by
  induction s with
  | zero =>
    rw [nearest?, make?, dif_pos ⟨h, Nat.zero_le 28⟩]
    rfl
  | succ s ih =>
    rw [nearest?, Option.isSome_or, ih, Bool.or_true]

/-- A ratio that does not fit at one more place is, at the places where it fits, at least as large
as every magnitude that fits with one more place. The last digit of the limit decides: `2 ^ 96` is 6
more than a multiple of ten, so a tenth of it rounds up. -/
theorem le_of_unfit {t m : Nat} (hd : 0 < d) (hunfit : twoPow 96 ≤ roundRatio .toEven (n * tenPow (t + 1)) d)
    (hm : m < twoPow 96) : m ≤ roundRatio .toEven (n * tenPow t) d * 10 := by
  -- rounding moves each side by one half at most, so ten times the shorter one is six short of the limit at worst
  set whole := roundRatio .toEven (n * tenPow t) d with hwhole
  have hlong : 2 * (d * twoPow 96) ≤ 2 * (n * tenPow (t + 1)) + d :=
    le_trans (Nat.mul_le_mul_left 2 (Nat.mul_le_mul_left d hunfit)) (roundRatio_near hd).2
  have hshort : 2 * (n * tenPow t) ≤ 2 * (d * whole) + d := (roundRatio_near hd).1
  have hplace : n * tenPow (t + 1) = 10 * (n * tenPow t) := by rw [tenPow_succ]; ring
  have hcancel : d * (2 * twoPow 96) ≤ d * (20 * whole + 11) := by
    have hleft : d * (2 * twoPow 96) = 2 * (d * twoPow 96) := by ring
    have hright : d * (20 * whole + 11) = 10 * (2 * (d * whole)) + 11 * d := by ring
    omega
  have hsize : 2 * twoPow 96 ≤ 20 * whole + 11 := Nat.le_of_mul_le_mul_left hcancel hd
  have hlimit : twoPow 96 = 79228162514264337593543950336 := by decide
  omega

/-- The search never ends at more places than it starts with. -/
theorem scale_of_nearest? (hs : s ≤ 28) (h : nearest? negative n d s = some r) : r.scale ≤ s :=
  (nearest?_eq_some hs h).1

section Search

variable (hd : 0 < d) (hs : s ≤ 28) (h : nearest? negative n d s = some r)

include hd hs h

/-- A ratio below a decimal is rounded to something below it. -/
theorem abs_value_le_of_nearest? (hb : b.scale ≤ s) (hle : (n : ℚ) / d ≤ |b.value|) :
    |r.value| ≤ |b.value| := by
  obtain ⟨-, -, hmagnitude, hunfit⟩ := nearest?_eq_some hs h
  rw [abs_value b, div_le_div_iff₀ (Nat.cast_pos.mpr hd) (cast_tenPow_pos _)] at hle
  have hratio : n * tenPow b.scale ≤ b.magnitude * d := by exact_mod_cast hle
  -- the bound fits at its own places, so the search did not go below them
  have hplaces : b.scale ≤ r.scale := by
    by_contra hmore
    have hfit : roundRatio .toEven (n * tenPow b.scale) d ≤ b.magnitude := roundRatio_le_of_le hd hratio
    have := hunfit b.scale (by omega) hb
    have := b.magnitude_lt
    omega
  have hround : r.magnitude ≤ b.magnitude * tenPow (r.scale - b.scale) := by
    rw [hmagnitude]
    apply roundRatio_le_of_le hd
    calc n * tenPow r.scale = tenPow (r.scale - b.scale) * (n * tenPow b.scale) := by
          rw [← tenPow_sub_mul hplaces]; ring
      _ ≤ tenPow (r.scale - b.scale) * (b.magnitude * d) := Nat.mul_le_mul_left _ hratio
      _ = b.magnitude * tenPow (r.scale - b.scale) * d := by ring
  rw [abs_value, abs_value, div_le_div_iff₀ (cast_tenPow_pos _) (cast_tenPow_pos _)]
  have hcross : r.magnitude * tenPow b.scale ≤ b.magnitude * tenPow r.scale := by
    calc r.magnitude * tenPow b.scale
        ≤ b.magnitude * tenPow (r.scale - b.scale) * tenPow b.scale := Nat.mul_le_mul_right _ hround
      _ = b.magnitude * tenPow r.scale := by rw [Nat.mul_assoc, tenPow_sub_mul hplaces]
  exact_mod_cast hcross

/-- A ratio above a decimal is rounded to something above it. -/
theorem le_abs_value_of_nearest? (hb : b.scale ≤ s) (hle : |b.value| ≤ (n : ℚ) / d) :
    |b.value| ≤ |r.value| := by
  obtain ⟨-, -, hmagnitude, hunfit⟩ := nearest?_eq_some hs h
  rw [abs_value b, div_le_div_iff₀ (cast_tenPow_pos _) (Nat.cast_pos.mpr hd)] at hle
  have hratio : b.magnitude * d ≤ n * tenPow b.scale := by exact_mod_cast hle
  rw [abs_value, abs_value, div_le_div_iff₀ (cast_tenPow_pos _) (cast_tenPow_pos _)]
  have hcross : b.magnitude * tenPow r.scale ≤ r.magnitude * tenPow b.scale := by
    rcases Nat.lt_or_ge r.scale b.scale with hmore | hplaces
    · -- the result had to give up a place that the bound has
      have hten : b.magnitude ≤ r.magnitude * 10 := by
        rw [hmagnitude]
        exact le_of_unfit hd (hunfit (r.scale + 1) (by omega) (by omega)) b.magnitude_lt
      calc b.magnitude * tenPow r.scale ≤ r.magnitude * 10 * tenPow r.scale := Nat.mul_le_mul_right _ hten
        _ = r.magnitude * tenPow (r.scale + 1) := by rw [tenPow_succ]; ring
        _ ≤ r.magnitude * tenPow b.scale := Nat.mul_le_mul_left _ (tenPow_le_tenPow hmore)
    · have hround : b.magnitude * tenPow (r.scale - b.scale) ≤ r.magnitude := by
        rw [hmagnitude]
        apply le_roundRatio hd
        calc b.magnitude * tenPow (r.scale - b.scale) * d
            = tenPow (r.scale - b.scale) * (b.magnitude * d) := by ring
          _ ≤ tenPow (r.scale - b.scale) * (n * tenPow b.scale) := Nat.mul_le_mul_left _ hratio
          _ = n * tenPow r.scale := by rw [← tenPow_sub_mul hplaces]; ring
      calc b.magnitude * tenPow r.scale
          = b.magnitude * tenPow (r.scale - b.scale) * tenPow b.scale := by
            rw [Nat.mul_assoc, tenPow_sub_mul hplaces]
        _ ≤ r.magnitude * tenPow b.scale := Nat.mul_le_mul_right _ hround
  exact_mod_cast hcross

end Search

/-! ## Rounded results -/

/-- `r` is `x` rounded to at most `s` places. -/
structure Rounds (x : ℚ) (s : Nat) (r : Decimal) : Prop where
  scale_le : r.scale ≤ s
  le_of_le : ∀ b : Decimal, b.scale ≤ s → x ≤ b.value → r.value ≤ b.value
  ge_of_ge : ∀ b : Decimal, b.scale ≤ s → b.value ≤ x → b.value ≤ r.value

/-- A number with so few places is not rounded. -/
theorem Rounds.value_eq {x : ℚ} (h : Rounds x s r) (hb : b.scale ≤ s) (hx : b.value = x) : r.value = x :=
  hx ▸ le_antisymm (h.le_of_le b hb hx.ge) (h.ge_of_ge b hb hx.le)

/-- A decimal with so few places is its own rounding. -/
theorem Rounds.of_value_eq (hs : a.scale ≤ s) : Rounds a.value s a where
  scale_le := hs
  le_of_le _ _ h := h
  ge_of_ge _ _ h := h

/-- Rounding looks at both sides alike. -/
theorem Rounds.of_neg {x : ℚ} (h : Rounds x s a) (hscale : r.scale = a.scale) (hvalue : r.value = -a.value) :
    Rounds (-x) s r where
  scale_le := hscale ▸ h.scale_le
  le_of_le b hb hx := by
    have := h.ge_of_ge b.neg (b.scale_neg ▸ hb) (by rw [value_neg]; linarith)
    rw [value_neg] at this
    linarith
  ge_of_ge b hb hx := by
    have := h.le_of_le b.neg (b.scale_neg ▸ hb) (by rw [value_neg]; linarith)
    rw [value_neg] at this
    linarith

theorem value_abs (a : Decimal) : a.abs.value = |a.value| := by
  rw [abs_value]
  exact value_of_not_negative rfl

/-- The search rounds the ratio that it is given; the sign is put to it afterwards. -/
theorem rounds_abs_of_nearest? (hd : 0 < d) (hs : s ≤ 28) (h : nearest? negative n d s = some r) :
    Rounds ((n : ℚ) / d) s r.abs where
  scale_le := show r.scale ≤ s from scale_of_nearest? hs h
  le_of_le b hb hx := by
    have hpos : |b.value| = b.value := abs_of_nonneg ((by positivity : (0 : ℚ) ≤ n / d).trans hx)
    rw [← hpos] at hx ⊢
    rw [value_abs]
    exact abs_value_le_of_nearest? hd hs h hb hx
  ge_of_ge b hb hx := by
    rw [value_abs]
    rcases le_total b.value 0 with hneg | hpos
    · exact hneg.trans (abs_nonneg _)
    · rw [← abs_of_nonneg hpos]
      exact le_abs_value_of_nearest? hd hs h hb (by rwa [abs_of_nonneg hpos])

/-- With its sign put to it, what is found is the signed ratio, rounded. -/
theorem rounds_of_nearest? {x : ℚ} (hd : 0 < d) (hs : s ≤ 28) (h : nearest? negative n d s = some r)
    (hx : x = if negative then -((n : ℚ) / d) else n / d) : Rounds x s r := by
  have habs : Rounds ((n : ℚ) / d) s r.abs := rounds_abs_of_nearest? hd hs h
  obtain ⟨-, hnegative, -, -⟩ := nearest?_eq_some hs h
  cases negative with
  | false =>
    have hr : r.abs = r := by
      have hplain : r.negative = false := hnegative
      unfold Decimal.abs
      rw [← hplain]
    rw [hr] at habs
    rw [hx, if_neg Bool.false_ne_true]
    exact habs
  | true =>
    rw [hx, if_pos rfl]
    refine habs.of_neg rfl ?_
    rw [value_abs, abs_value]
    by_cases hzero : r.magnitude = 0
    · rw [value_eq_zero_iff.mpr hzero, hzero, Nat.cast_zero, zero_div, neg_zero]
    · apply value_of_negative
      rw [hnegative, Bool.true_and, bne_iff_ne]
      exact hzero

end Decimal

end BotSpec
