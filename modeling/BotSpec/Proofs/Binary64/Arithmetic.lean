import BotSpec.Proofs.Binary64.Order
import BotSpec.Proofs.Indicator.Laws

/-!
# Arithmetic with doubles that are the same

Operations on doubles read both forms, compute a form and pack it into 64 bits. They respect
equality as far as `LawfulArith` asks: on forms that are alike they give forms that are alike, and
alike forms are packed to the same double (`same_ofForm`). The one peculiar case is a pair of zeros:
sums and differences see the sign of a zero only there (`ZeroBlind`), products and quotients
wherever there is a zero, but a zero is then all they give.
-/

namespace BotSpec.Binary64

open Float.Model UnpackedFloat
open Arith (IsNumber Same)

/-- The double of a form. -/
def ofForm (a : UnpackedFloat) : Float := .ofModel (.pack a)

/-- A sum of doubles is that of their forms, packed again. -/
theorem add_eq (x y : Float) : x + y = ofForm (add Format.binary64 (formOf x) (formOf y)) := rfl

/-- A quotient of doubles is that of their forms, packed again. -/
theorem div_eq (x y : Float) : x / y = ofForm (div Format.binary64 (formOf x) (formOf y)) := rfl

theorem formOf_ofForm_zero (s : Sign) : formOf (ofForm (.zero s)) = .zero s := by
  cases s <;> rfl

/-- Doubles that compare alike have forms that are equal but for the sign of a zero. -/
theorem alike_formOf {x y : Float} (h : Same x y) : Alike (formOf x) (formOf y) := by
  rcases h with rfl | h
  · exact Or.inl rfl
  · exact alike_of_beq h

theorem same_ofForm {a b : UnpackedFloat} (h : Alike a b) : Same (ofForm a) (ofForm b) := by
  rcases h with rfl | ⟨s, t, rfl, rfl⟩
  · exact Same.refl _
  · right
    rw [beq_iff, formOf_ofForm_zero, formOf_ofForm_zero]
    exact ⟨nofun, nofun, rfl⟩

/-! ## Alike operands -/

variable {a a' b b' : UnpackedFloat}

theorem Alike.refl (a : UnpackedFloat) : Alike a a := Or.inl rfl

/-- An operation that sees the sign of a zero only beside another zero, and then gives a zero. -/
structure ZeroBlind (op : UnpackedFloat → UnpackedFloat → UnpackedFloat) : Prop where
  zeros (s t : Sign) : ∃ u, op (.zero s) (.zero t) = .zero u
  left (s s' : Sign) {b : UnpackedFloat} : (∀ t, b ≠ .zero t) → op (.zero s) b = op (.zero s') b
  right (t t' : Sign) {a : UnpackedFloat} : (∀ s, a ≠ .zero s) → op a (.zero t) = op a (.zero t')

/-- A sum does not see the sign of a zero, but in the sign of a zero that comes out. -/
theorem zeroBlind_add : ZeroBlind (add Format.binary64) where
  zeros s t := by cases s <;> cases t <;> exact ⟨_, rfl⟩
  left s s' b hb := by
    cases b with
    | zero t => exact absurd rfl (hb t)
    | infinity t => rfl
    | notANumber => rfl
    | finite t m e hm => rfl
  right t t' a ha := by
    cases a with
    | zero s => exact absurd rfl (ha s)
    | infinity s => rfl
    | notANumber => rfl
    | finite s m e hm => rfl

/-- A difference does not see it either. -/
theorem zeroBlind_sub : ZeroBlind (sub Format.binary64) where
  zeros s t := by cases s <;> cases t <;> exact ⟨_, rfl⟩
  left s s' b hb := by
    cases b with
    | zero t => exact absurd rfl (hb t)
    | infinity t => rfl
    | notANumber => rfl
    | finite t m e hm => rfl
  right t t' a ha := by
    cases a with
    | zero s => exact absurd rfl (ha s)
    | infinity s => rfl
    | notANumber => rfl
    | finite s m e hm => rfl

namespace ZeroBlind

variable {op : UnpackedFloat → UnpackedFloat → UnpackedFloat}

/-- Where the operands are not both zero, the signs of zeros are not seen at all. -/
theorem eq_of_not_zeros (h : ZeroBlind op) (ha : Alike a a') (hb : Alike b b')
    (hne : ¬ ∃ s t, a = .zero s ∧ b = .zero t) : op a b = op a' b' := by
  rcases ha with rfl | ⟨s, s', rfl, rfl⟩
  · rcases hb with rfl | ⟨t, t', rfl, rfl⟩
    · rfl
    · exact h.right t t' fun s hs => hne ⟨s, t, hs, rfl⟩
  · rcases hb with rfl | ⟨t, t', rfl, rfl⟩
    · exact h.left s s' fun t ht => hne ⟨s, t, rfl, ht⟩
    · exact absurd ⟨s, t, rfl, rfl⟩ hne

theorem alike (h : ZeroBlind op) (ha : Alike a a') (hb : Alike b b') : Alike (op a b) (op a' b') := by
  have hkeep : ∀ {c c' : UnpackedFloat}, Alike c c' → ∀ s, c = .zero s → ∃ s', c' = .zero s' := by
    rintro c c' (rfl | ⟨_, s', -, rfl⟩) s hs
    · exact ⟨s, hs⟩
    · exact ⟨s', rfl⟩
  by_cases hzeros : ∃ s t, a = .zero s ∧ b = .zero t
  · obtain ⟨s, t, rfl, rfl⟩ := hzeros
    obtain ⟨s', rfl⟩ := hkeep ha s rfl
    obtain ⟨t', rfl⟩ := hkeep hb t rfl
    obtain ⟨u, hu⟩ := h.zeros s t
    obtain ⟨u', hu'⟩ := h.zeros s' t'
    exact Or.inr ⟨u, u', hu, hu'⟩
  · exact Or.inl (h.eq_of_not_zeros ha hb hzeros)

end ZeroBlind

/-- A product with a zero is a zero, or nothing whatever the zero's sign is. -/
theorem Alike.mul (c : UnpackedFloat) (ha : Alike a a') :
    Alike (mul Format.binary64 c a) (mul Format.binary64 c a') := by
  rcases ha with rfl | ⟨s, s', rfl, rfl⟩
  · exact .refl _
  · cases c with
    | zero t => exact Or.inr ⟨_, _, rfl, rfl⟩
    | infinity t => exact .refl _
    | notANumber => exact .refl _
    | finite t m e hm => exact Or.inr ⟨_, _, rfl, rfl⟩

/-- A quotient of a zero is a zero, or nothing whatever the zero's sign is. -/
theorem Alike.div (c : UnpackedFloat) (ha : Alike a a') :
    Alike (div Format.binary64 a c) (div Format.binary64 a' c) := by
  rcases ha with rfl | ⟨s, s', rfl, rfl⟩
  · exact .refl _
  · cases c with
    | zero t => exact .refl _
    | infinity t => exact Or.inr ⟨_, _, rfl, rfl⟩
    | notANumber => exact .refl _
    | finite t m e hm => exact Or.inr ⟨_, _, rfl, rfl⟩

end BotSpec.Binary64

namespace BotSpec

open Binary64

/-- Doubles keep the laws of indicators. -/
instance : LawfulArith Float where
  lt_irrefl x h := lt_irrefl _ (lt_iff.mp h).2.2
  lt_trans hxy hyz := by
    obtain ⟨hx, -, hxy⟩ := lt_iff.mp hxy
    obtain ⟨-, hz, hyz⟩ := lt_iff.mp hyz
    exact lt_iff.mpr ⟨hx, hz, lt_trans hxy hyz⟩
  beq_of_not_lt {x y} hx hy hxy hyx := by
    have hx : formOf x ≠ .notANumber := beq_self_iff.mp hx
    have hy : formOf y ≠ .notANumber := beq_self_iff.mp hy
    refine beq_iff.mpr ⟨hx, hy, ?_⟩
    rcases lt_trichotomy (place (formOf x)) (place (formOf y)) with h | h | h
    · exact absurd (lt_iff.mpr ⟨hx, hy, h⟩) hxy
    · exact h
    · exact absurd (lt_iff.mpr ⟨hy, hx, h⟩) hyx
  le_iff_not_lt {x y} hx hy := by
    have hx : formOf x ≠ .notANumber := beq_self_iff.mp hx
    have hy : formOf y ≠ .notANumber := beq_self_iff.mp hy
    rw [lt_iff, le_iff]
    constructor
    · rintro ⟨-, -, hle⟩ ⟨-, -, hlt⟩
      exact not_lt_of_ge hle hlt
    · intro h
      exact ⟨hx, hy, not_lt.mp fun hlt => h ⟨hy, hx, hlt⟩⟩
  isNumber_zero := rfl
  beq_symm h := by
    obtain ⟨hx, hy, hplace⟩ := beq_iff.mp h
    exact beq_iff.mpr ⟨hy, hx, hplace.symm⟩
  beq_trans hxy hyz := by
    obtain ⟨hx, -, hxy⟩ := beq_iff.mp hxy
    obtain ⟨-, hz, hyz⟩ := beq_iff.mp hyz
    exact beq_iff.mpr ⟨hx, hz, hxy.trans hyz⟩
  lt_of_beq_of_lt hxy hyz := by
    obtain ⟨hx, -, hxy⟩ := beq_iff.mp hxy
    obtain ⟨-, hz, hyz⟩ := lt_iff.mp hyz
    exact lt_iff.mpr ⟨hx, hz, hxy ▸ hyz⟩
  lt_of_lt_of_beq hxy hyz := by
    obtain ⟨hx, -, hxy⟩ := lt_iff.mp hxy
    obtain ⟨-, hz, hyz⟩ := beq_iff.mp hyz
    exact lt_iff.mpr ⟨hx, hz, hyz ▸ hxy⟩
  add_same hx hy := same_ofForm (zeroBlind_add.alike (alike_formOf hx) (alike_formOf hy))
  sub_same hx hy := same_ofForm (zeroBlind_sub.alike (alike_formOf hx) (alike_formOf hy))
  mul_same c _ _ hx := same_ofForm ((alike_formOf hx).mul (formOf c))
  div_same c hx := same_ofForm ((alike_formOf hx).div (formOf c))
  sub_eq_sub {x x' y y'} h hx hy := by
    have hzeros : ¬ ∃ s t, formOf x = .zero s ∧ formOf y = .zero t := by
      rintro ⟨s, t, hs, ht⟩
      have heq : (x == y) = true := by
        rw [beq_iff, hs, ht]
        exact ⟨nofun, nofun, rfl⟩
      exact Bool.noConfusion (h.symm.trans heq)
    exact congrArg ofForm (zeroBlind_sub.eq_of_not_zeros (alike_formOf hx) (alike_formOf hy) hzeros)

end BotSpec
