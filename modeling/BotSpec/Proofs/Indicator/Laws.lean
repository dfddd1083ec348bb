import BotSpec.Indicator.Arith

/-!
# Laws of the numbers that indicators compute with

The indicator formulas are written without laws. What is said about them here needs a few, and no
more than doubles have: `LawfulArith` lists them. Doubles have two peculiarities that every law has
to respect. Not every value is a number: `IsNumber a` says that `a` equals itself, and only numbers
are totally ordered; `IsAddable a` says that `a` leaves every sum a number, as an infinity would
not. And equal numbers need not be identical, since zero has two signs: `Same a b` says that `a` and
`b` are identical or equal.

Sums, differences and products of the same numbers are the same. Quotients are not, for a zero
divisor shows its sign; `sub_eq_sub` helps where the divisor is a difference of numbers that are not
equal, which is then identical.
-/

namespace BotSpec.Arith

variable {α : Type} [Arith α]

/-- A value that equals itself. -/
def IsNumber (a : α) : Prop := (a == a) = true

/-- Two values are identical, or equal as numbers. -/
def Same (a b : α) : Prop := a = b ∨ (a == b) = true

theorem Same.refl (a : α) : Same a a := Or.inl rfl

/-- A value that can be added to any number. -/
def IsAddable (a : α) : Prop := ∀ b, IsNumber b → IsNumber (b + a)

end BotSpec.Arith

namespace BotSpec

open Arith

/-- Numbers with a total order and with operations that respect equality, as far as doubles have
them. -/
class LawfulArith (α : Type) [Arith α] : Prop where
  lt_irrefl (a : α) : ¬ a < a
  lt_trans {a b c : α} : a < b → b < c → a < c
  beq_of_not_lt {a b : α} : IsNumber a → IsNumber b → ¬ a < b → ¬ b < a → (a == b) = true
  le_iff_not_lt {a b : α} : IsNumber a → IsNumber b → (a ≤ b ↔ ¬ b < a)
  isNumber_zero : IsNumber (ofNat 0 : α)
  beq_symm {a b : α} : (a == b) = true → (b == a) = true
  beq_trans {a b c : α} : (a == b) = true → (b == c) = true → (a == c) = true
  lt_of_beq_of_lt {a b c : α} : (a == b) = true → b < c → a < c
  lt_of_lt_of_beq {a b c : α} : a < b → (b == c) = true → a < c
  add_same {a a' b b' : α} : Same a a' → Same b b' → Same (a + b) (a' + b')
  sub_same {a a' b b' : α} : Same a a' → Same b b' → Same (a - b) (a' - b')
  mul_same (c : α) {a a' : α} : Same a a' → Same (c * a) (c * a')
  div_same {a a' : α} (c : α) : Same a a' → Same (a / c) (a' / c)
  /-- A difference of numbers that are not equal does not depend on the signs of zeros. -/
  sub_eq_sub {a a' b b' : α} : (a == b) = false → Same a a' → Same b b' → a - b = a' - b'

namespace Arith

variable {α : Type} [Arith α] [LawfulArith α]

theorem Same.symm {a b : α} (h : Same a b) : Same b a := by
  rcases h with rfl | h
  · exact .refl a
  · exact Or.inr (LawfulArith.beq_symm h)

/-- Numbers that compare alike with a third one compare alike with each other. -/
theorem Same.trans {a b c : α} (hab : Same a b) (hbc : Same b c) : Same a c := by
  rcases hab with rfl | hab
  · exact hbc
  · rcases hbc with rfl | hbc
    · exact Or.inr hab
    · exact Or.inr (LawfulArith.beq_trans hab hbc)

/-- Values that are the same compare alike. -/
theorem Same.lt_iff {a a' b b' : α} (ha : Same a a') (hb : Same b b') : a < b ↔ a' < b' := by
  have himp : ∀ {a a' b b' : α}, Same a a' → Same b b' → a < b → a' < b' := by
    intro a a' b b' ha hb h
    have hleft : a' < b := by
      rcases ha with rfl | ha
      · exact h
      · exact LawfulArith.lt_of_beq_of_lt (LawfulArith.beq_symm ha) h
    rcases hb with rfl | hb
    · exact hleft
    · exact LawfulArith.lt_of_lt_of_beq hleft hb
  exact ⟨himp ha hb, himp ha.symm hb.symm⟩

/-- Values that are the same are equal to the same values. -/
theorem Same.beq_eq {a a' b b' : α} (ha : Same a a') (hb : Same b b') : (a == b) = (a' == b') := by
  have himp : ∀ {a a' b b' : α}, Same a a' → Same b b' → (a == b) = true → (a' == b') = true := by
    intro a a' b b' ha hb h
    have hleft : (a' == b) = true := by
      rcases ha with rfl | ha
      · exact h
      · exact LawfulArith.beq_trans (LawfulArith.beq_symm ha) h
    rcases hb with rfl | hb
    · exact hleft
    · exact LawfulArith.beq_trans hleft hb
  rw [Bool.eq_iff_iff]
  exact ⟨himp ha hb, himp ha.symm hb.symm⟩

end Arith

end BotSpec
