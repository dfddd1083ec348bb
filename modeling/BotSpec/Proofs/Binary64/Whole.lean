import BotSpec.Binary64.Whole
import BotSpec.Proofs.Binary64.Truncation

/-!
# Whole numbers as doubles

A whole number of at most 53 bits is a double exactly: its mantissa is the number with zeros behind
it (`wholeForm`). No rounding happens when a count is converted, and none when one is added:

> `toNat_toFloat`, `toNat_toFloat_add_one`: the count of the double of `n` is `n`, and of the double
> one above it `n + 1`.

Both are instances of `normalize_eq_wholeForm`, whatever power of two the mantissa is scaled by.
Numerals are such counts (`ofNat_eq_toFloat`).
-/

namespace BotSpec.Binary64

open Float.Model UnpackedFloat

/-- A number with as many zeros behind it as a full mantissa takes. -/
def filled (n : ℕ) : ℕ := n * twoPow (52 - n.log2)

theorem filled_pos {n : ℕ} (h : 0 < n) : 0 < filled n := Nat.mul_pos h (twoPow_pos _)

/-- The form of a whole number. -/
def wholeForm (n : ℕ) (h : 0 < n) : UnpackedFloat := .finite .positive (filled n) (n.log2 - 52) (filled_pos h)

/-- A power of two adds its exponent to the number of bits. -/
theorem log2_mul_twoPow {n : ℕ} (h : 0 < n) (t : ℕ) : (n * twoPow t).log2 = n.log2 + t := by
  induction t with
  | zero => rw [twoPow_zero, Nat.mul_one, Nat.add_zero]
  | succ t ih =>
    have hne : n * twoPow t ≠ 0 := (Nat.mul_pos h (twoPow_pos t)).ne'
    rw [twoPow_succ, ← Nat.mul_assoc, Nat.mul_comm, Nat.log2_two_mul hne, ih, Nat.add_assoc]

/-! ## No rounding -/

/-- Zeros that are shifted out leave no remainder. -/
theorem shiftRight_mul_twoPow (m r : ℕ) :
    (ExtendedMantissa.mk (m * twoPow r) false false) >>> r = ⟨m, false, false⟩ := by
  induction r generalizing m with
  | zero =>
    rw [twoPow_zero, Nat.mul_one]
    rfl
  | succ r ih =>
    have hdouble : m * twoPow (r + 1) = m * 2 * twoPow r := by rw [twoPow_succ, Nat.mul_assoc, Nat.mul_comm 2]
    show ((ExtendedMantissa.mk (m * twoPow (r + 1)) false false) >>> r).shiftRightOne = _
    rw [hdouble, ih, ExtendedMantissa.shiftRightOne]
    simp

/-- A whole number is brought to the exponent that leaves 53 bits of it. -/
theorem targetExponent_totalExponent {n : ℕ} (hn : 0 < n) (t : ℕ) :
    Format.binary64.targetExponent (totalExponent (n * twoPow t) (-t)) = n.log2 - 52 := by
  rw [targetExponent_eq, totalExponent, log2_mul_twoPow hn]
  omega

section Exact

variable {n : ℕ} (hn : 0 < n) (hbits : n < twoPow 53)

include hn hbits

theorem log2_le : n.log2 ≤ 52 := Nat.le_of_lt_succ ((Nat.log2_lt hn.ne').mpr hbits)

/-- Bringing it there loses nothing. -/
theorem shiftToTargetExponent_exact {t : ℕ} (ht : 52 - n.log2 ≤ t) :
    shiftToTargetExponent Format.binary64 (n * twoPow t) (-t) .exact =
      (ExtendedMantissa.mk (filled n) false false, (n.log2 : ℤ) - 52) := by
  have hlog := log2_le hn hbits
  obtain ⟨r, rfl⟩ := Nat.exists_eq_add_of_le' ht
  have hshift : ((n.log2 : ℤ) - 52 - -((r + (52 - n.log2) : ℕ) : ℤ)).toNat = r := by omega
  have hexponent : -((r + (52 - n.log2) : ℕ) : ℤ) + r = n.log2 - 52 := by omega
  have hmantissa : n * twoPow (r + (52 - n.log2)) = filled n * twoPow r := by
    rw [filled, Nat.add_comm, twoPow_add, Nat.mul_assoc]
  rw [shiftToTargetExponent, targetExponent_totalExponent hn, shiftToExponent, hshift, hexponent, hmantissa]
  exact Prod.ext (shiftRight_mul_twoPow _ r) rfl

theorem roundWithAccuracy_eq_wholeForm {t : ℕ} (ht : 52 - n.log2 ≤ t) :
    roundWithAccuracy Format.binary64 .positive (n * twoPow t) (-t) .exact = wholeForm n hn := by
  have hlog := log2_le hn hbits
  have hexponent : (n.log2 : ℤ) - 52 = -((52 - n.log2 : ℕ) : ℤ) := by omega
  -- the rounded mantissa is full already, so shifting it once more changes nothing
  have hagain : shiftToTargetExponent Format.binary64 (filled n) ((n.log2 : ℤ) - 52) .exact =
      (ExtendedMantissa.mk (filled n) false false, (n.log2 : ℤ) - 52) := by
    rw [hexponent]
    exact (shiftToTargetExponent_exact hn hbits (le_refl _)).trans (by rw [hexponent])
  have hrounded : (ExtendedMantissa.mk (filled n) false false).roundedMantissa = filled n := rfl
  unfold roundWithAccuracy
  rw [shiftToTargetExponent_exact hn hbits ht]
  dsimp only
  rw [hrounded, hagain]
  exact dif_neg (filled_pos hn).ne'

/-- A whole number is normalized to its form, whatever power of two it is scaled by. -/
theorem normalize_eq_wholeForm (j : ℕ) :
    UnpackedFloat.normalize Format.binary64 ((n * twoPow j : ℕ) : ℤ) (-j) .positive = wholeForm n hn := by
  have hlog := log2_le hn hbits
  have hpositive : compare ((n * twoPow j : ℕ) : ℤ) 0 = .gt :=
    compare_gt_iff_gt.mpr (Int.natCast_pos.mpr (Nat.mul_pos hn (twoPow_pos j)))
  rw [UnpackedFloat.normalize, hpositive]
  show UnpackedFloat.round Format.binary64 .positive (n * twoPow j) (-j) = _
  rw [UnpackedFloat.round, targetExponent_totalExponent hn, decreaseExponent]
  generalize hshift : (-(j : ℤ) - (n.log2 - 52)).toNat = s
  have hmantissa : (n * twoPow j) <<< s = n * twoPow (j + s) := by
    rw [Nat.shiftLeft_eq, Nat.mul_assoc, twoPow_add]
    rfl
  have hexponent : -(j : ℤ) - s = -((j + s : ℕ) : ℤ) := by omega
  show roundWithAccuracy Format.binary64 .positive ((n * twoPow j) <<< s) (-(j : ℤ) - s) .exact = _
  rw [hmantissa, hexponent]
  exact roundWithAccuracy_eq_wholeForm hn hbits (by omega)

end Exact

/-! ## Packing -/

/-- The leading bit of a full mantissa counts `2 ^ 52`. -/
theorem toNat_one_append (mantissa : BitVec 52) : (1#1 ++ mantissa).toNat = twoPow 52 + mantissa.toNat := by
  rw [BitVec.toNat_append, ← Nat.shiftLeft_add_eq_or_of_lt mantissa.isLt]
  rfl

theorem toNat_one_append_pos (mantissa : BitVec 52) : 0 < (1#1 ++ mantissa).toNat := by
  rw [toNat_one_append]
  exact Nat.add_pos_left (twoPow_pos 52) _

theorem sign_packComponents (s : Sign) (exponent : BitVec 11) (mantissa : BitVec 52) :
    Sign.ofBitVec (unpackSign (packComponents Format.binary64 s exponent mantissa)) = s := by
  have hfirst : unpackSign (packComponents Format.binary64 s exponent mantissa) = s.toBitVec := by
    ext i hi
    have hbehind : 63 + i - 52 - 11 = i := by omega
    show ((s.toBitVec ++ exponent ++ mantissa).extractLsb' 63 1)[i] = s.toBitVec[i]
    rw [BitVec.getElem_extractLsb', BitVec.getLsbD_append, if_neg (by omega), BitVec.getLsbD_append, if_neg (by omega),
      hbehind, BitVec.getLsbD_eq_getElem]
  rw [hfirst]
  cases s <;> rfl

/-- Bits with an exponent between the smallest and the largest stand for a full mantissa. -/
theorem unpack_packComponents (s : Sign) {exponent : BitVec 11} (mantissa : BitVec 52) (hones : exponent ≠ -1#11)
    (hzero : exponent ≠ 0#11) :
    UnpackedFloat.unpack Format.binary64 (packComponents Format.binary64 s exponent mantissa) =
      .finite s (1#1 ++ mantissa).toNat (exponent.toNat - (1023 + 52)) (toNat_one_append_pos mantissa) := by
  have hbias : ((Format.binary64.exponentBias : ℕ) : ℤ) = 1023 := rfl
  unfold UnpackedFloat.unpack
  dsimp only
  rw [unpackExponent_packComponents, if_neg hones, if_neg hzero, hbias]
  refine (UnpackedFloat.finite.injEq ..).mpr ⟨sign_packComponents s exponent mantissa, ?_, rfl⟩
  exact congrArg (fun m : BitVec 52 => (1#1 ++ m).toNat) unpackMantissa_packComponents

section Exact

variable {n : ℕ} (hn : 0 < n) (hbits : n < twoPow 53)

include hn hbits

theorem log2_filled : (filled n).log2 = 52 := by
  have hlog := log2_le hn hbits
  rw [filled, log2_mul_twoPow hn]
  omega

/-- The form of a whole number is not changed by packing. -/
theorem formOf_ofForm_wholeForm : formOf (ofForm (wholeForm n hn)) = wholeForm n hn := by
  have hlog := log2_le hn hbits
  have hne := (filled_pos hn).ne'
  have hlow : twoPow 52 ≤ filled n := (Nat.le_log2 hne).mp (log2_filled hn hbits).ge
  have hhigh : filled n < twoPow 53 := (Nat.log2_lt hne).mp (by rw [log2_filled hn hbits]; decide)
  have hbiased : ((n.log2 : ℤ) - 52 + 1075).toNat = n.log2 + 1023 := by omega
  have hpack : UnpackedFloat.pack Format.binary64 (wholeForm n hn) =
      packComponents Format.binary64 .positive (BitVec.ofNat 11 (n.log2 + 1023)) (BitVec.ofNat 52 (filled n)) := by
    obtain ⟨hlarge, -⟩ | ⟨-, -, hpack⟩ | ⟨-, hshort, -⟩ :=
      pack_finite_cases .positive ((n.log2 : ℤ) - 52) (filled_pos hn) hbiased
    · omega
    · exact hpack
    · exact absurd (log2_filled hn hbits) hshort
  have hexponent : (BitVec.ofNat 11 (n.log2 + 1023)).toNat = n.log2 + 1023 := toNat_biased (by omega)
  have hones : BitVec.ofNat 11 (n.log2 + 1023) ≠ -1#11 := ofNat_ne_ones (by omega)
  have hzero : BitVec.ofNat 11 (n.log2 + 1023) ≠ 0#11 := by
    intro heq
    have hval := hexponent.symm.trans (congrArg BitVec.toNat heq)
    have hzero : (0#11).toNat = 0 := rfl
    omega
  have hmantissa : (1#1 ++ BitVec.ofNat 52 (filled n)).toNat = filled n := by
    have hwidth : twoPow 53 = twoPow 52 + twoPow 52 := rfl
    have hmod : filled n % twoPow 52 = filled n - twoPow 52 := by
      rw [Nat.mod_eq_sub_mod hlow]
      exact Nat.mod_eq_of_lt (by omega)
    rw [toNat_one_append, BitVec.toNat_ofNat]
    show twoPow 52 + filled n % twoPow 52 = filled n
    omega
  rw [formOf_ofForm, hpack, unpack_packComponents _ _ hones hzero]
  refine (UnpackedFloat.finite.injEq ..).mpr ⟨rfl, hmantissa, ?_⟩
  rw [hexponent]
  omega

/-! ## Counts -/

/-- The count of a whole number's form is the number. -/
theorem toNat_toUInt64_wholeForm : (wholeForm n hn).toUInt64.toNat = n := by
  have hlog := log2_le hn hbits
  have hcount : roundToInt .positive (filled n) ((n.log2 : ℤ) - 52) = n := by
    rw [roundToInt_positive (by omega), smallest, filled, Nat.mul_assoc, ← twoPow_add]
    have hplaces : 52 - n.log2 + ((n.log2 : ℤ) - 52 + 1074).toNat = 1074 := by omega
    rw [hplaces, Nat.mul_div_cancel _ (twoPow_pos 1074)]
  have hlargest : n ≤ largestCount := hbits.le.trans (by decide)
  rw [toNat_toUInt64]
  show min (roundToInt .positive (filled n) ((n.log2 : ℤ) - 52)).toNat largestCount = n
  rw [hcount, Int.toNat_natCast, Nat.min_eq_left hlargest]

/-- A form that is a whole number's is that of the double, and gives the number back. -/
theorem toNat_ofForm {a : UnpackedFloat} (ha : a = wholeForm n hn) : (ofForm a).toUInt64.toNat = n := by
  subst ha
  show (formOf (ofForm (wholeForm n hn))).toUInt64.toNat = n
  rw [formOf_ofForm_wholeForm hn hbits, toNat_toUInt64_wholeForm hn hbits]

end Exact

/-- A count is converted to the double of its form. -/
theorem toFloat_eq_ofForm {n : UInt64} (hn : 0 < n.toNat) (hbits : n.toNat < twoPow 53) :
    n.toFloat = ofForm (wholeForm n.toNat hn) := by
  have hnormal := normalize_eq_wholeForm hn hbits 0
  rw [twoPow_zero, Nat.mul_one] at hnormal
  show ofForm (UnpackedFloat.normalize Format.binary64 (n.toNat : ℤ) (-(0 : ℕ)) .positive) = _
  rw [hnormal]

/-- The form of a count that is converted. -/
theorem formOf_toFloat {n : UInt64} (hn : 0 < n.toNat) (hbits : n.toNat < twoPow 53) :
    formOf n.toFloat = wholeForm n.toNat hn := by
  rw [toFloat_eq_ofForm hn hbits, formOf_ofForm_wholeForm hn hbits]

/-- A whole number that is written down is the one that a count is converted to. -/
theorem ofNat_eq_toFloat {n : ℕ} (hn : 0 < n) (hbits : n < twoPow 53) : Float.ofNat n = n.toUInt64.toFloat := by
  have hcount : n.toUInt64.toNat = n := UInt64.toNat_ofNat_of_lt' (lt_of_lt_of_le hbits (by decide))
  have hpos : 0 < n.toUInt64.toNat := hcount.symm ▸ hn
  have hlt : n.toUInt64.toNat < twoPow 53 := hcount.symm ▸ hbits
  have hscaled : Float.ofNat n = n.toUInt64.toFloat * 1 := by
    show Float.ofScientific n false 0 = _
    rw [Float.ofScientific, dif_pos ⟨hbits, by decide⟩]
    rfl
  have hone : formOf 1 = .finite .positive (twoPow 52) (-52) (twoPow_pos 52) := rfl
  have hproduct : n.toUInt64.toFloat * 1 = ofForm (mul Format.binary64 (formOf n.toUInt64.toFloat) (formOf 1)) := rfl
  have hlog := log2_le hpos hlt
  rw [hscaled, hproduct, formOf_toFloat hpos hlt, hone, toFloat_eq_ofForm hpos hlt]
  -- the product has the mantissa of the number, with 52 more zeros behind it
  have hmantissa : filled n.toUInt64.toNat * twoPow 52 =
      n.toUInt64.toNat * twoPow (52 - n.toUInt64.toNat.log2 + 52) := by
    rw [filled, Nat.mul_assoc, ← twoPow_add]
  have hexponent : (n.toUInt64.toNat.log2 : ℤ) - 52 + -52 = -((52 - n.toUInt64.toNat.log2 + 52 : ℕ) : ℤ) := by omega
  show ofForm (roundWithAccuracy Format.binary64 .positive (filled n.toUInt64.toNat * twoPow 52)
    ((n.toUInt64.toNat.log2 : ℤ) - 52 + -52) .exact) = _
  rw [hmantissa, hexponent, roundWithAccuracy_eq_wholeForm hpos hlt (Nat.le_add_right _ _)]

/-- **A count is converted exactly.** -/
theorem toNat_toFloat {n : UInt64} (hn : 0 < n.toNat) (hbits : n.toNat < twoPow 53) :
    n.toFloat.toUInt64.toNat = n.toNat := by
  show (formOf n.toFloat).toUInt64.toNat = n.toNat
  rw [formOf_toFloat hn hbits, toNat_toUInt64_wholeForm hn hbits]

/-- **One is added exactly.** -/
theorem toNat_toFloat_add_one {n : UInt64} (hn : 0 < n.toNat) (hbits : n.toNat + 1 < twoPow 53) :
    (n.toFloat + 1).toUInt64.toNat = n.toNat + 1 := by
  have hlog := log2_le hn (Nat.lt_of_succ_lt hbits)
  have hone : formOf 1 = .finite .positive (twoPow 52) (-52) (twoPow_pos 52) := rfl
  rw [add_eq, formOf_toFloat hn (Nat.lt_of_succ_lt hbits), hone]
  refine toNat_ofForm (Nat.succ_pos _) hbits ?_
  rw [← normalize_eq_wholeForm (Nat.succ_pos _) hbits 52]
  have hsmaller : min ((n.toNat.log2 : ℤ) - 52) (-52) = -52 := by omega
  unfold wholeForm UnpackedFloat.add decreaseExponent
  dsimp only
  rw [hsmaller]
  -- both mantissas count units of `2 ^ (-52)`
  have hshift : ((n.toNat.log2 : ℤ) - 52 - -52).toNat = n.toNat.log2 := by omega
  have hcount : filled n.toNat <<< n.toNat.log2 = n.toNat * twoPow 52 := by
    have hplaces : 52 - n.toNat.log2 + n.toNat.log2 = 52 := by omega
    rw [Nat.shiftLeft_eq, filled, Nat.mul_assoc]
    show n.toNat * (twoPow (52 - n.toNat.log2) * twoPow n.toNat.log2) = _
    rw [← twoPow_add, hplaces]
  rw [hshift, hcount]
  show UnpackedFloat.normalize Format.binary64 ((n.toNat * twoPow 52 : ℕ) + (twoPow 52 : ℕ) : ℤ) (-52) .positive =
    UnpackedFloat.normalize Format.binary64 (((n.toNat + 1) * twoPow 52 : ℕ) : ℤ) (-52) .positive
  rw [Nat.add_mul, Nat.one_mul, Nat.cast_add]

end BotSpec.Binary64
