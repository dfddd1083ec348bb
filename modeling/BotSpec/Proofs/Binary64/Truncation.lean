import BotSpec.Proofs.Binary64.Magnitude
import BotSpec.Proofs.Binary64.Value

/-!
# Cutting off the fraction

A double is converted to a 64-bit count by cutting its fraction off; what is below zero becomes
zero, and what is too large the largest count. The larger of two doubles has the larger count:

> `toUInt64_mono`: if `y` is not below `x`, its count is not below that of `x`.

Places compare exponents before mantissas, a count has to do with both. That the orders agree is
because mantissas are normalized: a double is a number of the smallest doubles, `2 ^ (-1074)`, and
with a larger exponent there are more of them (`smallest_lt_smallest`). A count is this number
without its last 1074 bits (`roundToInt_positive`).
-/

namespace BotSpec.Binary64

open Float.Model UnpackedFloat

/-! ## Normalized mantissas -/

/-- A mantissa has 53 bits, or fewer at the smallest exponent. -/
def IsNormalized (m : ℕ) (e : ℤ) : Prop := m < 2 ^ 53 ∧ -1074 ≤ e ∧ (e = -1074 ∨ 2 ^ 52 ≤ m)

/-- What is unpacked is normalized: either the exponent is the smallest, or the leading bit is put
back. -/
theorem isNormalized_of_unpack {b : BitVec Format.binary64.numBits} {s : Sign} {m : ℕ} {e : ℤ} {hm : 0 < m}
    (h : UnpackedFloat.unpack Format.binary64 b = .finite s m e hm) : IsNormalized m e := by
  have hbias : ((Format.binary64.exponentBias : ℕ) : ℤ) = 1023 := rfl
  have hwidth : ((Format.binary64.mantissaBitsWithoutImplicit : ℕ) : ℤ) = 52 := rfl
  have hmantissa : (unpackMantissa b : BitVec 52).toNat < 2 ^ 52 := (unpackMantissa b : BitVec 52).isLt
  unfold UnpackedFloat.unpack at h
  rcases ite_eq_iff.mp h with ⟨-, h⟩ | ⟨-, h⟩
  · rcases ite_eq_iff.mp h with ⟨-, h⟩ | ⟨-, h⟩ <;> cases h
  rcases ite_eq_iff.mp h with ⟨hzero, h⟩ | ⟨hzero, h⟩
  · rcases dite_eq_iff.mp h with ⟨_, h⟩ | ⟨_, h⟩
    · cases h
    · injection h with _ hm he
      have hexponent : (unpackExponent b : BitVec 11).toNat = 0 := by rw [hzero]; rfl
      rw [hexponent, hbias, hwidth] at he
      exact ⟨by omega, by omega, .inl (by omega)⟩
  · injection h with _ hm he
    have hlead : (1#1 ++ (unpackMantissa b : BitVec 52)).toNat = 2 ^ 52 + (unpackMantissa b : BitVec 52).toNat := by
      rw [BitVec.toNat_append, ← Nat.shiftLeft_add_eq_or_of_lt (unpackMantissa b : BitVec 52).isLt]
      rfl
    have hexponent : (unpackExponent b : BitVec 11).toNat ≠ 0 := fun h => hzero (BitVec.eq_of_toNat_eq h)
    rw [hbias, hwidth] at he
    exact ⟨by omega, by omega, .inr (by omega)⟩

/-- How many of the smallest doubles a mantissa at an exponent is. -/
def smallest (m : ℕ) (e : ℤ) : ℕ := m * twoPow (e + 1074).toNat

/-- The larger exponent wins. -/
theorem smallest_lt_smallest {m m' : ℕ} {e e' : ℤ} (h : IsNormalized m e) (h' : IsNormalized m' e')
    (hlt : e < e') :
    smallest m e < smallest m' e' := by
  obtain ⟨hm, he, -⟩ := h
  have hm' : 2 ^ 52 ≤ m' := h'.2.2.resolve_left (by omega)
  calc smallest m e < twoPow 53 * twoPow (e + 1074).toNat := Nat.mul_lt_mul_of_pos_right hm (twoPow_pos _)
    _ = twoPow 52 * twoPow ((e + 1074).toNat + 1) := by
        rw [← twoPow_add, ← twoPow_add, Nat.add_comm _ 1, ← Nat.add_assoc]
    _ ≤ twoPow 52 * twoPow (e' + 1074).toNat :=
        Nat.mul_le_mul_left _ (Nat.pow_le_pow_right (by decide) (by omega))
    _ ≤ smallest m' e' := Nat.mul_le_mul_right _ hm'

/-! ## Counts -/

/-- Cutting off the fraction keeps the smallest doubles that make up whole numbers. -/
theorem roundToInt_positive {m : ℕ} {e : ℤ} (he : -1074 ≤ e) :
    roundToInt .positive m e = (smallest m e / twoPow 1074 : ℕ) := by
  have hvalue : roundToInt .positive m e = (m * twoPow e.toNat / twoPow (-e).toNat : ℕ) := by
    show (((ExtendedMantissa.ofMantissaAndAccuracy (m <<< (e - 0).toNat) .exact)
      >>> (0 - (e - ((e - 0).toNat : ℤ))).toNat).mantissa : ℤ) = _
    have hshift : (0 - (e - ((e - 0).toNat : ℤ))).toNat = (-e).toNat := by omega
    rw [mantissa_shiftRight, mantissa_ofMantissaAndAccuracy, Nat.shiftLeft_eq, hshift, Int.sub_zero]
    rfl
  -- both sides of the fraction gain the same power of two
  have hup : e.toNat + (1074 - (-e).toNat) = (e + 1074).toNat := by omega
  have hdown : (-e).toNat + (1074 - (-e).toNat) = 1074 := by omega
  have hextend : m * twoPow e.toNat / twoPow (-e).toNat = m * twoPow (e + 1074).toNat / twoPow 1074 :=
    calc m * twoPow e.toNat / twoPow (-e).toNat
        = m * twoPow e.toNat * twoPow (1074 - (-e).toNat) / (twoPow (-e).toNat * twoPow (1074 - (-e).toNat)) :=
          (Nat.mul_div_mul_right _ _ (twoPow_pos _)).symm
      _ = m * twoPow (e + 1074).toNat / twoPow 1074 := by
          rw [Nat.mul_assoc, ← twoPow_add, ← twoPow_add, hup, hdown]
  rw [hvalue, hextend, smallest]

/-- Of two normalized mantissas the one in the later place has the larger count. -/
theorem roundToInt_mono {m m' : ℕ} {e e' : ℤ} (h : IsNormalized m e) (h' : IsNormalized m' e')
    (hplace : toLex (e, (m : ℤ)) ≤ toLex (e', (m' : ℤ))) : roundToInt .positive m e ≤ roundToInt .positive m' e' := by
  rw [roundToInt_positive h.2.1, roundToInt_positive h'.2.1]
  refine Int.ofNat_le.mpr (Nat.div_le_div_right ?_)
  rcases Prod.Lex.toLex_le_toLex.mp hplace with hlt | ⟨heq, hle⟩
  · exact (smallest_lt_smallest h h' hlt).le
  · obtain rfl : e = e' := heq
    exact Nat.mul_le_mul_right _ (Int.ofNat_le.mp hle)

/-- The largest count. -/
def largestCount : ℕ := twoPow 64 - 1

/-- A count is never larger than the largest one, and a form below zero has none. -/
theorem toNat_toUInt64 (a : UnpackedFloat) :
    a.toUInt64.toNat = min (a.toInt 0 largestCount).toNat largestCount := by
  have hsize : UInt64.size = largestCount + 1 := by decide
  have hlargest : ((UInt64.size : ℤ) - 1) = (largestCount : ℤ) := by rw [hsize]; omega
  rw [UnpackedFloat.toUInt64, UInt64.ofNatClamp, hlargest]
  split
  next h =>
    rw [UInt64.toNat_ofNatLT]
    exact (Nat.min_eq_left (by omega)).symm
  next h =>
    rw [UInt64.toNat_ofNatLT]
    exact (Nat.min_eq_right (by omega)).symm

/-- Forms in order have counts in order. -/
theorem toUInt64_le_of_place_le {a b : UnpackedFloat} (ha : ∀ s m e h, a = .finite s m e h → IsNormalized m e)
    (hb : ∀ s m e h, b = .finite s m e h → IsNormalized m e) (hnumber : b ≠ .notANumber) (hplace : place a ≤ place b) :
    a.toUInt64.toNat ≤ b.toUInt64.toNat := by
  -- the kind of a form is the first thing that its place tells
  have hkind := Prod.Lex.monotone_fst _ _ hplace
  rw [toNat_toUInt64, toNat_toUInt64]
  rcases a with ⟨_ | _⟩ | _ | _ | ⟨_ | _, m, e, hm⟩
  case finite.positive =>
    rcases b with ⟨_ | _⟩ | _ | _ | ⟨_ | _, m', e', hm'⟩
    case infinity.positive => exact Nat.min_le_right _ _
    case finite.positive =>
      have hlex : toLex (e, (m : ℤ)) ≤ toLex (e', (m' : ℤ)) := by
        rcases Prod.Lex.toLex_le_toLex.mp hplace with hlt | ⟨-, hle⟩
        · exact absurd hlt (lt_irrefl _)
        · exact hle
      have hmono := roundToInt_mono (ha _ _ _ _ rfl) (hb _ _ _ _ rfl) hlex
      exact min_le_min_right _ (Int.toNat_le_toNat hmono)
    case notANumber => exact absurd rfl hnumber
    all_goals exact absurd hkind (of_decide_eq_false rfl)
  case infinity.positive =>
    rcases b with ⟨_ | _⟩ | _ | _ | ⟨_ | _, m', e', hm'⟩
    case infinity.positive => exact le_rfl
    case notANumber => exact absurd rfl hnumber
    all_goals exact absurd hkind (of_decide_eq_false rfl)
  -- every other form has no count
  case finite.negative =>
    have hnegative : roundToInt .negative m e ≤ 0 := neg_nonpos.mpr (Int.natCast_nonneg _)
    have hnone : (roundToInt .negative m e).toNat = 0 := Int.toNat_of_nonpos hnegative
    exact (Nat.min_le_left _ _).trans (hnone.le.trans (Nat.zero_le _))
  all_goals exact (Nat.min_le_left _ _).trans (Nat.zero_le _)

/-- **The larger double has the larger count.** -/
theorem toUInt64_mono {x y : Float} (hx : formOf x ≠ .notANumber) (hy : formOf y ≠ .notANumber)
    (h : ¬ y < x) :
    x.toUInt64.toNat ≤ y.toUInt64.toNat := by
  have hplace : place (formOf x) ≤ place (formOf y) := not_lt.mp fun hlt => h (lt_iff.mpr ⟨hy, hx, hlt⟩)
  show (formOf x).toUInt64.toNat ≤ (formOf y).toUInt64.toNat
  exact toUInt64_le_of_place_le (fun s m e h hform => isNormalized_of_unpack hform)
    (fun s m e h hform => isNormalized_of_unpack hform) hy hplace

end BotSpec.Binary64
