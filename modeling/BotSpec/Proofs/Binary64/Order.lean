import Mathlib.Data.Prod.Lex
import Mathlib.Order.Compare
import Mathlib.Algebra.Order.Ring.Int

/-!
# The order of doubles

Doubles are compared by what they stand for: an infinity, a zero, or a mantissa at an exponent, each
with a sign, or nothing at all. `formOf` is this reading of a double, and every operation on doubles
is one on forms.

A form that is a number has a `place` in a linear order: by sign and kind first, then by exponent,
then by mantissa. The comparison of doubles is the comparison of their places:

> `compare_eq_compare_place`: two numbers compare as their places do.

So numbers are totally ordered, and what compares as equal is identical up to the sign of a zero
(`alike_of_beq`).
-/

namespace BotSpec.Binary64

open Float.Model UnpackedFloat

/-- What a double stands for. -/
def formOf (x : Float) : UnpackedFloat := x.toModel.unpack

/-- Ordered by kind, then by exponent, then by mantissa. -/
abbrev Place := ℤ ×ₗ ℤ ×ₗ ℤ

/-- The place of a number in the order of doubles. -/
def place : UnpackedFloat → Place
  | .notANumber => toLex (0, toLex (0, 0))
  | .infinity .negative => toLex (-2, toLex (0, 0))
  | .finite .negative m e _ => toLex (-1, toLex (-e, -m))
  | .zero _ => toLex (0, toLex (0, 0))
  | .finite .positive m e _ => toLex (1, toLex (e, m))
  | .infinity .positive => toLex (2, toLex (0, 0))

theorem compare_neg (a b : ℤ) : compare (-a) (-b) = compare b a := by
  have hanti : StrictAnti fun n : ℤ => -n := fun _ _ h => Int.neg_lt_neg h
  rw [← cmp_eq_compare, ← cmp_eq_compare]
  exact hanti.cmp_map_eq a b

theorem compare_natCast (m n : ℕ) : compare (m : ℤ) n = compare m n := by
  rw [← cmp_eq_compare, ← cmp_eq_compare]
  exact Int.natCast_strictMono.cmp_map_eq m n

/-- Numbers compare as their places do. -/
theorem compare_eq_compare_place {a b : UnpackedFloat} (ha : a ≠ .notANumber)
    (hb : b ≠ .notANumber) : a.compare b = some (compare (place a) (place b)) := by
  rcases a with ⟨_ | _⟩ | _ | _ | ⟨_ | _, m, e, hm⟩ <;>
    rcases b with ⟨_ | _⟩ | _ | _ | ⟨_ | _, m', e', hm'⟩ <;>
    first | exact absurd rfl ha | exact absurd rfl hb | rfl | skip
  -- what is left are two finite numbers of one sign, where exponents and mantissas decide
  case finite.negative.finite.negative =>
    show some ((compare e e').then (compare m m')).swap
      = some ((compare (-e) (-e')).then (compare (-m : ℤ) (-m' : ℤ)))
    rw [Ordering.swap_then, ← Std.OrientedOrd.eq_swap, ← Std.OrientedOrd.eq_swap, compare_neg,
      compare_neg, compare_natCast]
  case finite.positive.finite.positive =>
    show some ((compare e e').then (compare m m'))
      = some ((compare e e').then (compare (m : ℤ) m'))
    rw [compare_natCast]

/-- What is not a number compares with nothing. -/
theorem compare_notANumber (a : UnpackedFloat) :
    a.compare .notANumber = none ∧ UnpackedFloat.notANumber.compare a = none := by
  cases a <;> exact ⟨rfl, rfl⟩

/-- Whatever the outcome of a comparison is, both sides are numbers. -/
theorem ne_notANumber_of_compare {a b : UnpackedFloat} {o : Ordering} (h : a.compare b = some o) :
    a ≠ .notANumber ∧ b ≠ .notANumber := by
  constructor
  · rintro rfl
    rw [(compare_notANumber b).2] at h
    cases h
  · rintro rfl
    rw [(compare_notANumber a).1] at h
    cases h

/-! ## Comparisons of doubles -/

/-- Doubles are in order if their places are, and both are numbers. -/
theorem lt_iff {x y : Float} :
    x < y ↔ formOf x ≠ .notANumber ∧ formOf y ≠ .notANumber ∧ place (formOf x) < place (formOf y) := by
  have hlt : x < y ↔ (formOf x).compare (formOf y) = some .lt := by
    show decide ((formOf x).lt (formOf y) = true) = true ↔ _
    rw [decide_eq_true_iff, UnpackedFloat.lt, beq_iff_eq]
  rw [hlt]
  constructor
  · intro h
    obtain ⟨hx, hy⟩ := ne_notANumber_of_compare h
    rw [compare_eq_compare_place hx hy, Option.some_inj] at h
    exact ⟨hx, hy, compare_lt_iff_lt.mp h⟩
  · rintro ⟨hx, hy, h⟩
    rw [compare_eq_compare_place hx hy, compare_lt_iff_lt.mpr h]

/-- They are equal if their places are the same, and both are numbers. -/
theorem beq_iff {x y : Float} :
    (x == y) = true ↔
      formOf x ≠ .notANumber ∧ formOf y ≠ .notANumber ∧ place (formOf x) = place (formOf y) := by
  have hbeq : (x == y) = true ↔ (formOf x).compare (formOf y) = some .eq := by
    show ((formOf x).compare (formOf y) == some .eq) = true ↔ _
    rw [beq_iff_eq]
  rw [hbeq]
  constructor
  · intro h
    obtain ⟨hx, hy⟩ := ne_notANumber_of_compare h
    rw [compare_eq_compare_place hx hy, Option.some_inj] at h
    exact ⟨hx, hy, compare_eq_iff_eq.mp h⟩
  · rintro ⟨hx, hy, h⟩
    rw [compare_eq_compare_place hx hy, compare_eq_iff_eq.mpr h]

theorem le_iff {x y : Float} :
    x ≤ y ↔ formOf x ≠ .notANumber ∧ formOf y ≠ .notANumber ∧ place (formOf x) ≤ place (formOf y) := by
  have hle : x ≤ y ↔ ∃ o, (formOf x).compare (formOf y) = some o ∧ o.isLE := by
    show decide ((formOf x).le (formOf y) = true) = true ↔ _
    rw [decide_eq_true_iff, UnpackedFloat.le, Option.any_eq_true]
  rw [hle]
  constructor
  · rintro ⟨o, h, ho⟩
    obtain ⟨hx, hy⟩ := ne_notANumber_of_compare h
    rw [compare_eq_compare_place hx hy, Option.some_inj] at h
    refine ⟨hx, hy, not_lt.mp fun hgt => ?_⟩
    rw [compare_gt_iff_gt.mpr hgt] at h
    subst h
    cases ho
  · rintro ⟨hx, hy, h⟩
    refine ⟨_, compare_eq_compare_place hx hy, ?_⟩
    rcases h.lt_or_eq with hlt | heq
    · rw [compare_lt_iff_lt.mpr hlt]
      rfl
    · rw [compare_eq_iff_eq.mpr heq]
      rfl

/-- A value equals itself exactly if it is a number. -/
theorem beq_self_iff {x : Float} : (x == x) = true ↔ formOf x ≠ .notANumber := by
  rw [beq_iff]
  exact ⟨fun h => h.1, fun h => ⟨h, h, rfl⟩⟩

/-! ## Forms up to the sign of a zero -/

/-- Two forms are identical, or both are zeros. -/
def Alike (a b : UnpackedFloat) : Prop := a = b ∨ ∃ s t, a = .zero s ∧ b = .zero t

theorem alike_of_place_eq {a b : UnpackedFloat} (ha : a ≠ .notANumber) (hb : b ≠ .notANumber)
    (h : place a = place b) : Alike a b := by
  rcases a with ⟨_ | _⟩ | _ | s | ⟨_ | _, m, e, hm⟩ <;>
    rcases b with ⟨_ | _⟩ | _ | t | ⟨_ | _, m', e', hm'⟩ <;>
    dsimp only [place] at h <;>
    simp only [toLex_inj, Prod.mk.injEq, Int.neg_inj, Int.natCast_inj] at h <;>
    first
      | exact absurd rfl ha
      | exact absurd rfl hb
      | exact Or.inl rfl
      | exact Or.inr ⟨s, t, rfl, rfl⟩
      | omega
      | skip
  case finite.negative.finite.negative =>
    obtain ⟨-, rfl, rfl⟩ := h
    exact Or.inl rfl
  case finite.positive.finite.positive =>
    obtain ⟨-, rfl, rfl⟩ := h
    exact Or.inl rfl

/-- Equal doubles have forms that are equal but for the sign of a zero. -/
theorem alike_of_beq {x y : Float} (h : (x == y) = true) : Alike (formOf x) (formOf y) := by
  obtain ⟨hx, hy, hplace⟩ := beq_iff.mp h
  exact alike_of_place_eq hx hy hplace

end BotSpec.Binary64
