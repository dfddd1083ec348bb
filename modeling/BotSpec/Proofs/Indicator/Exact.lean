import Mathlib.Algebra.Order.Field.Rat
import Mathlib.Algebra.Order.BigOperators.Group.List
import Mathlib.Tactic.Linarith
import BotSpec.Proofs.Indicator.Laws

/-!
# Exact arithmetic

The indicator formulas over the rational numbers, without rounding. Two operations are left open:
what is made of a division by zero, and of a root. So what holds whatever the first one is holds
without a division by zero, and a run that is the same for all of them does not divide by zero at
all.

> `lawfulArith_exact`: the laws of the numbers that indicators compute with hold, and all numbers
> are numbers.
-/

namespace BotSpec.Arith

/-- A quotient, where the divisor is not zero. -/
def quotient (byZero : ℚ → ℚ) (a b : ℚ) : ℚ := if b = 0 then byZero a else a / b

/-- By a number that is not zero the quotient is that of the rational numbers, whatever else is set
for zero. -/
theorem quotient_of_ne {byZero : ℚ → ℚ} {a b : ℚ} (h : b ≠ 0) : quotient byZero a b = a / b := if_neg h

theorem quotient_of_pos {byZero : ℚ → ℚ} {a b : ℚ} (h : 0 < b) :
    quotient byZero a b = a / b := quotient_of_ne h.ne'

/-- What is made of a division by zero has no part in other quotients. -/
theorem quotient_eq {byZero byZero' : ℚ → ℚ} {a b : ℚ} (h : b ≠ 0) :
    quotient byZero a b = quotient byZero' a b := by
  rw [quotient_of_ne h, quotient_of_ne h]

/-- The rational numbers as the numbers of indicators. -/
@[reducible]
def exact (byZero root : ℚ → ℚ) : Arith ℚ where
  toAdd := inferInstance
  toSub := inferInstance
  toMul := inferInstance
  toDiv := ⟨quotient byZero⟩
  toNeg := inferInstance
  toLT := inferInstance
  toLE := inferInstance
  toBEq := inferInstance
  ofNat n := n
  sqrt := root
  decidableLT := inferInstance
  decidableLE := inferInstance

variable {byZero root : ℚ → ℚ} {a b : ℚ}

/-- Every rational number counts as a number. -/
theorem isNumber_exact (a : ℚ) : @IsNumber ℚ (exact byZero root) a := beq_self_eq_true a

/-- Every rational number can be summed. -/
theorem isAddable_exact (a : ℚ) : @IsAddable ℚ (exact byZero root) a := fun _ _ => isNumber_exact _

theorem same_exact_iff : @Same ℚ (exact byZero root) a b ↔ a = b := by
  constructor
  · rintro (rfl | h)
    · rfl
    · exact beq_iff_eq.mp h
  · rintro rfl
    exact .inl rfl

theorem abs_exact (byZero root : ℚ → ℚ) (a : ℚ) : @Arith.abs ℚ (exact byZero root) a = |a| := by
  show (if a < 0 then -a else a) = |a|
  by_cases h : a < 0
  · rw [if_pos h, abs_of_neg h]
  · rw [if_neg h, abs_of_nonneg (not_lt.mp h)]

theorem max_exact (byZero root : ℚ → ℚ) (a b : ℚ) : @Arith.max ℚ (exact byZero root) a b = Max.max a b := by
  show (if a < b then b else a) = Max.max a b
  by_cases h : a < b
  · rw [if_pos h, max_eq_right h.le]
  · rw [if_neg h, max_eq_left (not_lt.mp h)]

/-- **Exact arithmetic is lawful.** -/
theorem lawfulArith_exact (byZero root : ℚ → ℚ) : @LawfulArith ℚ (exact byZero root) := by
  let _ := exact byZero root
  exact
    { lt_irrefl := fun a => lt_irrefl a
      lt_trans := fun h h' => lt_trans h h'
      beq_of_not_lt := fun _ _ h h' => beq_iff_eq.mpr (le_antisymm (not_lt.mp h') (not_lt.mp h))
      le_iff_not_lt := fun _ _ => not_lt.symm
      isNumber_zero := isNumber_exact _
      beq_symm := fun h => beq_iff_eq.mpr (beq_iff_eq.mp h).symm
      beq_trans := fun h h' => beq_iff_eq.mpr ((beq_iff_eq.mp h).trans (beq_iff_eq.mp h'))
      lt_of_beq_of_lt := fun h h' => by rwa [beq_iff_eq.mp h]
      lt_of_lt_of_beq := fun h h' => by rwa [← beq_iff_eq.mp h']
      add_same := fun h h' => by rw [same_exact_iff.mp h, same_exact_iff.mp h']; exact .refl _
      sub_same := fun h h' => by rw [same_exact_iff.mp h, same_exact_iff.mp h']; exact .refl _
      mul_same := fun _ _ _ h => by rw [same_exact_iff.mp h]; exact .refl _
      div_same := fun _ h => by rw [same_exact_iff.mp h]; exact .refl _
      sub_eq_sub := fun _ h h' => by rw [same_exact_iff.mp h, same_exact_iff.mp h'] }

end BotSpec.Arith
