import BotSpec.Proofs.Binary64.Whole

/-!
# Differences of doubles

Doubles are whole numbers of the smallest one, and so are their differences. Rounding may move a
difference, but it has no way of losing one that is not zero:

> `beq_of_sub_beq_zero`: a difference is zero only of equal numbers.

Two things have to be seen for this: no shift takes away all bits of a mantissa
(`exists_round_eq_finite`), and what is left survives the packing (`formOf_ofForm_ne_zero`). A
difference that is zero before it is rounded has operands of as many smallest doubles, and since
mantissas are normalized, these are the same (`eq_of_smallest_eq`).

Equal numbers are identical unless they are zeros: a double is determined by its form
(`formOf_injective`).
-/

namespace BotSpec.Binary64

open Float.Model UnpackedFloat

/-! ## Rounding -/

/-- Rounding a mantissa never makes it smaller. -/
theorem mantissa_le_roundedMantissa (em : ExtendedMantissa) : em.mantissa ≤ em.roundedMantissa := by
  unfold ExtendedMantissa.roundedMantissa
  rcases em.accuracy with _ | ⟨_ | _ | _⟩ <;> simp only [Accuracy.roundToNearestEven] <;> omega

/-- A shift to the target exponent leaves a mantissa that is not zero and not too long. -/
theorem div_targetShift_bounds {m : ℕ} {e : ℤ} (hm : m ≠ 0) (he : -1074 ≤ e) :
    0 < m / 2 ^ (Format.binary64.targetExponent (totalExponent m e) - e).toNat ∧
      m / 2 ^ (Format.binary64.targetExponent (totalExponent m e) - e).toNat < 2 ^ 53 := by
  have hshift : (Format.binary64.targetExponent (totalExponent m e) - e).toNat = m.log2 - 52 := by
    rw [targetExponent_eq, totalExponent]
    omega
  rw [hshift, Nat.div_lt_iff_lt_mul (Nat.two_pow_pos _), ← Nat.pow_add]
  constructor
  · have hle : 2 ^ (m.log2 - 52) ≤ m := (Nat.le_log2 hm).mp (Nat.sub_le _ _)
    exact Nat.div_pos hle (Nat.two_pow_pos _)
  · exact lt_of_lt_of_le Nat.lt_log2_self (Nat.pow_le_pow_right (by decide) (by omega))

/-- A mantissa at an exponent is one, unless nothing is left of it. -/
theorem exists_dite_eq_finite (s : Sign) {m : ℕ} {e : ℤ} (h : (0 < m ∧ m < 2 ^ 53) ∧ -1074 ≤ e) :
    ∃ m' e' hm', (if hm : m = 0 then .zero s else .finite s m e (Nat.pos_of_ne_zero hm)) =
      UnpackedFloat.finite s m' e' hm' ∧ m' < 2 ^ 53 ∧ -1074 ≤ e' :=
  ⟨m, e, h.1.1, dif_neg h.1.1.ne', h.1.2, h.2⟩

/-- What is not zero, and is no finer than the smallest double, is not rounded to zero. -/
theorem exists_roundWithAccuracy_eq_finite (s : Sign) {m : ℕ} {e : ℤ} (acc : Accuracy) (hm : m ≠ 0)
    (he : -1074 ≤ e) :
    ∃ m' e' hm', roundWithAccuracy Format.binary64 s m e acc = .finite s m' e' hm' ∧ m' < 2 ^ 53 ∧ -1074 ≤ e' := by
  unfold roundWithAccuracy
  apply exists_dite_eq_finite
  simp only [mantissa_shiftRight, mantissa_ofMantissaAndAccuracy]
  have hfirst := (div_targetShift_bounds hm he).1
  generalize (Format.binary64.targetExponent (totalExponent m e) - e).toNat = n at hfirst ⊢
  have hrounded := mantissa_le_roundedMantissa (ExtendedMantissa.ofMantissaAndAccuracy m acc >>> n)
  rw [mantissa_shiftRight, mantissa_ofMantissaAndAccuracy] at hrounded
  -- rounding may carry into one bit too many, and a second shift takes it back
  exact ⟨div_targetShift_bounds (by omega) (by omega), by omega⟩

/-- A mantissa that is not zero is rounded to something finite that is not zero, above the smallest
exponent. -/
theorem exists_round_eq_finite (s : Sign) {m : ℕ} {e : ℤ} (hm : m ≠ 0) (he : -1074 ≤ e) :
    ∃ m' e' hm', UnpackedFloat.round Format.binary64 s m e = .finite s m' e' hm' ∧ m' < 2 ^ 53 ∧ -1074 ≤ e' := by
  rw [UnpackedFloat.round, decreaseExponent]
  refine exists_roundWithAccuracy_eq_finite s .exact ?_ ?_
  · rw [Nat.shiftLeft_eq]
    exact (Nat.mul_pos (Nat.pos_of_ne_zero hm) (Nat.two_pow_pos _)).ne'
  · rw [targetExponent_eq]
    omega

/-- A whole number of smallest doubles that is not zero is not normalized to zero. -/
theorem exists_normalize_eq_finite (s : Sign) {M : ℤ} {e : ℤ} (hM : M ≠ 0) (he : -1074 ≤ e) :
    ∃ t m' e' hm', UnpackedFloat.normalize Format.binary64 M e s = .finite t m' e' hm' ∧ m' < 2 ^ 53 ∧ -1074 ≤ e' := by
  unfold UnpackedFloat.normalize
  rcases lt_trichotomy M 0 with hneg | hzero | hpos
  · rw [Int.compare_eq_lt.mpr hneg]
    exact ⟨_, exists_round_eq_finite .negative (by omega) he⟩
  · exact absurd hzero hM
  · rw [Int.compare_eq_gt.mpr hpos]
    exact ⟨_, exists_round_eq_finite .positive (by omega) he⟩

/-! ## Packing -/

/-- Only an exponent and a mantissa of zeros are the bits of a zero. -/
theorem eq_zero_of_unpack_eq_zero {b : BitVec Format.binary64.numBits} {t : Sign}
    (h : UnpackedFloat.unpack Format.binary64 b = .zero t) :
    (unpackExponent b : BitVec 11) = 0#11 ∧ (unpackMantissa b : BitVec 52) = 0#52 := by
  unfold UnpackedFloat.unpack at h
  rcases ite_eq_iff.mp h with ⟨-, h⟩ | ⟨-, h⟩
  · rcases ite_eq_iff.mp h with ⟨-, h⟩ | ⟨-, h⟩ <;> cases h
  rcases ite_eq_iff.mp h with ⟨hexponent, h⟩ | ⟨-, h⟩
  · rcases dite_eq_iff.mp h with ⟨hmantissa, -⟩ | ⟨_, h⟩
    · exact ⟨hexponent, hmantissa⟩
    · cases h
  · cases h

/-- A mantissa that fits does not vanish in 64 bits. -/
theorem formOf_ofForm_ne_zero (s : Sign) {m : ℕ} {e : ℤ} (hm : 0 < m) (hbits : m < 2 ^ 53)
    (he : -1074 ≤ e) (t : Sign) :
    formOf (ofForm (.finite s m e hm)) ≠ .zero t := by
  rw [formOf_ofForm]
  intro hzero
  obtain ⟨hexponent, hmantissa⟩ := eq_zero_of_unpack_eq_zero hzero
  obtain ⟨-, hpack⟩ | ⟨hsmall, -, hpack⟩ | ⟨-, hlog, hpack⟩ := pack_finite_cases s e hm rfl
  · rw [hpack, packedInfinity, unpackExponent_packComponents] at hexponent
    cases hexponent
  · -- the implicit bit is there, so the exponent is not the one of a zero
    rw [hpack, unpackExponent_packComponents] at hexponent
    have hval := (toNat_biased hsmall).symm.trans (congrArg BitVec.toNat hexponent)
    have hnone : (0#11).toNat = 0 := rfl
    omega
  · rw [hpack, unpackMantissa_packComponents] at hmantissa
    have hle : m.log2 < 53 := (Nat.log2_lt hm.ne').mpr hbits
    have hlt : m < 2 ^ 52 := (Nat.log2_lt hm.ne').mp (by omega)
    have hval := congrArg BitVec.toNat hmantissa
    rw [BitVec.toNat_ofNat, Nat.mod_eq_of_lt hlt] at hval
    exact hm.ne' hval

/-! ## Equal numbers -/

/-- Normalized mantissas that make up the same number are the same at the same exponent. -/
theorem eq_of_smallest_eq {m m' : ℕ} {e e' : ℤ} (h : IsNormalized m e) (h' : IsNormalized m' e')
    (heq : smallest m e = smallest m' e') : m = m' ∧ e = e' := by
  rcases lt_trichotomy e e' with hlt | rfl | hlt
  · exact absurd heq (smallest_lt_smallest h h' hlt).ne
  · exact ⟨Nat.eq_of_mul_eq_mul_right (twoPow_pos _) heq, rfl⟩
  · exact absurd heq (smallest_lt_smallest h' h hlt).ne'

/-- A mantissa brought to a smaller exponent makes up the same number. -/
theorem smallest_shiftLeft {m : ℕ} {e t : ℤ} (hte : t ≤ e) (ht : -1074 ≤ t) :
    smallest (m <<< (e - t).toNat) t = smallest m e := by
  have hplaces : (e - t).toNat + (t + 1074).toNat = (e + 1074).toNat := by omega
  rw [smallest, smallest, Nat.shiftLeft_eq, Nat.mul_assoc, ← hplaces, twoPow_add]
  rfl

theorem shiftLeft_pos {m : ℕ} (hm : 0 < m) (n : ℕ) : 0 < m <<< n := by
  rw [Nat.shiftLeft_eq]
  exact Nat.mul_pos hm (Nat.two_pow_pos n)

/-- Numbers with a sign agree in the sign, unless they are zero. -/
theorem eq_of_apply_eq {s t : Sign} {m m' : ℕ} (hm : 0 < m) (hm' : 0 < m')
    (h : s.apply (m : ℤ) = t.apply (m' : ℤ)) :
    s = t ∧ m = m' := by
  cases s <;> cases t <;> simp only [Sign.apply] at h
  · exact ⟨rfl, by omega⟩
  · omega
  · omega
  · exact ⟨rfl, by omega⟩

/-! ## Differences -/

/-- A form whose mantissa, if it has one, is normalized. -/
def NormalForm (a : UnpackedFloat) : Prop := ∀ s m e hm, a = .finite s m e hm → IsNormalized m e

/-- The form of a double is normal, since its mantissa has the leading bit or the smallest exponent.
-/
theorem normalForm_formOf (x : Float) : NormalForm (formOf x) := fun _ _ _ _ h => isNormalized_of_unpack h

section Difference

variable {m m' : ℕ} {e e' : ℤ} (hm : 0 < m) (hm' : 0 < m')

/-- A difference of two finite numbers is a zero or does not vanish. -/
theorem sub_finite_cases (s s' : Sign) (h : IsNormalized m e) (h' : IsNormalized m' e') :
    UnpackedFloat.finite s m e hm = .finite s' m' e' hm' ∨
      ∃ u r k hr, UnpackedFloat.sub Format.binary64 (.finite s m e hm) (.finite s' m' e' hm') = .finite u r k hr ∧
        r < 2 ^ 53 ∧ -1074 ≤ k := by
  have hleast : -1074 ≤ min e e' := le_min h.2.1 h'.2.1
  by_cases hdifference :
      s.apply ((m <<< (e - min e e').toNat : ℕ) : ℤ) - s'.apply ((m' <<< (e' - min e e').toNat : ℕ) : ℤ) = 0
  · left
    obtain ⟨rfl, hshifted⟩ := eq_of_apply_eq (shiftLeft_pos hm _) (shiftLeft_pos hm' _) (Int.sub_eq_zero.mp hdifference)
    have hsmallest : smallest m e = smallest m' e' := by
      rw [← smallest_shiftLeft (min_le_left e e') hleast, ← smallest_shiftLeft (min_le_right e e') hleast, hshifted]
    obtain ⟨rfl, rfl⟩ := eq_of_smallest_eq h h' hsmallest
    rfl
  · exact .inr (exists_normalize_eq_finite .positive hdifference hleast)

end Difference

/-- Only numbers at one place have a difference that is packed to a zero. -/
theorem place_eq_of_sub_eq_zero {a b : UnpackedFloat} (ha : NormalForm a) (hb : NormalForm b) {t : Sign}
    (h : formOf (ofForm (UnpackedFloat.sub Format.binary64 a b)) = .zero t) :
    (a ≠ .notANumber ∧ b ≠ .notANumber) ∧ place a = place b := by
  have hinfinity : ∀ c, (∃ s, c = .infinity s) → formOf (ofForm c) ≠ .zero t := by
    rintro _ ⟨_ | _, rfl⟩ hzero <;> cases hzero
  have hnone : ∀ c, c = .notANumber → formOf (ofForm c) ≠ .zero t := by
    rintro _ rfl hzero
    cases hzero
  rcases a with s | _ | s | ⟨s, m, e, hm⟩ <;> rcases b with s' | _ | s' | ⟨s', m', e', hm'⟩
  case finite.finite =>
    rcases sub_finite_cases hm hm' s s' (ha s m e hm rfl) (hb s' m' e' hm' rfl) with
      heq | ⟨u, r, k, hr, hsub, hbits, hk⟩
    · rw [heq]
      exact ⟨⟨UnpackedFloat.noConfusion, UnpackedFloat.noConfusion⟩, rfl⟩
    · rw [hsub] at h
      exact absurd h (formOf_ofForm_ne_zero u hr hbits hk t)
  case zero.zero => exact ⟨⟨UnpackedFloat.noConfusion, UnpackedFloat.noConfusion⟩, rfl⟩
  case zero.finite =>
    obtain ⟨hbits, hk, -⟩ := hb s' m' e' hm' rfl
    exact absurd h (formOf_ofForm_ne_zero _ hm' hbits hk t)
  case finite.zero =>
    obtain ⟨hbits, hk, -⟩ := ha s m e hm rfl
    exact absurd h (formOf_ofForm_ne_zero _ hm hbits hk t)
  -- what is left has an infinity or nothing for an operand, and is one of these itself
  case infinity.infinity =>
    rcases s with _ | _ <;> rcases s' with _ | _ <;>
      first | exact absurd h (hnone _ rfl) | exact absurd h (hinfinity _ ⟨_, rfl⟩)
  all_goals first | exact absurd h (hnone _ rfl) | exact absurd h (hinfinity _ ⟨_, rfl⟩)

/-- A difference of doubles is that of their forms, packed again. -/
theorem sub_eq (x y : Float) : x - y = ofForm (UnpackedFloat.sub Format.binary64 (formOf x) (formOf y)) := rfl

/-- **No difference is lost.** A difference is a zero only of equal numbers. -/
theorem beq_of_sub_beq_zero {x y : Float} (h : (x - y == 0) = true) : (x == y) = true := by
  have hzero : ∃ t, formOf (x - y) = .zero t := by
    rcases alike_of_beq h with heq | ⟨t, -, ht, -⟩
    · exact ⟨_, heq⟩
    · exact ⟨t, ht⟩
  obtain ⟨t, ht⟩ := hzero
  obtain ⟨⟨hx, hy⟩, hplace⟩ := place_eq_of_sub_eq_zero (normalForm_formOf x) (normalForm_formOf y) ht
  exact beq_iff.mpr ⟨hx, hy, hplace⟩

/-- A finite number has no difference from itself. -/
theorem sub_self_beq_zero {x : Float} {s : Sign} {m : ℕ} {e : ℤ} {hm : 0 < m}
    (h : formOf x = .finite s m e hm) :
    (x - x == 0) = true := by
  have hzero : UnpackedFloat.sub Format.binary64 (.finite s m e hm) (.finite s m e hm) = .zero .positive := by
    unfold UnpackedFloat.sub
    dsimp only
    rw [Int.sub_self]
    rfl
  rw [beq_iff, sub_eq, h, hzero, formOf_ofForm_zero]
  exact ⟨UnpackedFloat.noConfusion, UnpackedFloat.noConfusion, rfl⟩

/-! ## Doubles and their forms -/

/-- A word is made of its sign, its exponent and its mantissa. -/
theorem packComponents_unpack (b : BitVec Format.binary64.numBits) :
    packComponents Format.binary64 (Sign.ofBitVec (unpackSign b)) (unpackExponent b) (unpackMantissa b) = b := by
  have hsign : (Sign.ofBitVec (unpackSign b)).toBitVec = unpackSign b := by
    generalize unpackSign b = sign
    revert sign
    decide
  rw [packComponents, hsign]
  apply BitVec.eq_of_getLsbD_eq
  intro i hi
  unfold unpackSign unpackExponent unpackMantissa
  simp only [BitVec.getLsbD_append, BitVec.getLsbD_cast, BitVec.getLsbD_extractLsb]
  grind

/-- The implicit bit is the leading one. -/
theorem log2_one_append (mantissa : BitVec 52) : (1#1 ++ mantissa).toNat.log2 = 52 := by
  have hlt := mantissa.isLt
  rw [toNat_one_append, Nat.log2_eq_iff (Nat.add_pos_left (twoPow_pos 52) _).ne']
  show 2 ^ 52 ≤ 2 ^ 52 + mantissa.toNat ∧ 2 ^ 52 + mantissa.toNat < 2 ^ 53
  omega

/-- What was unpacked is packed to the same word, since there is one word only for what is not a
number. -/
theorem pack_unpack {b : BitVec Format.binary64.numBits} (hb : Format.binary64.Valid b) :
    UnpackedFloat.pack Format.binary64 (UnpackedFloat.unpack Format.binary64 b) = b := by
  have hword := packComponents_unpack b
  have hmantissaBits : (unpackMantissa b : BitVec 52).toNat < 2 ^ 52 := (unpackMantissa b : BitVec 52).isLt
  unfold UnpackedFloat.unpack
  dsimp only
  by_cases hones : (unpackExponent b : BitVec 11) = -1#11
  · rw [if_pos hones]
    by_cases hmantissa : (unpackMantissa b : BitVec 52) = 0#52
    · rw [if_pos hmantissa]
      rw [hones, hmantissa] at hword
      exact hword
    · rw [if_neg hmantissa]
      exact (hb.eq_packedNaN hones hmantissa).symm
  rw [if_neg hones]
  by_cases hzero : (unpackExponent b : BitVec 11) = 0#11
  · rw [if_pos hzero]
    by_cases hmantissa : (unpackMantissa b : BitVec 52) = 0#52
    · rw [dif_pos hmantissa]
      rw [hzero, hmantissa] at hword
      exact hword
    · have hpos : (unpackMantissa b : BitVec 52).toNat ≠ 0 := fun h => hmantissa (BitVec.eq_of_toNat_eq h)
      have hlog : (unpackMantissa b : BitVec 52).toNat.log2 < 52 := (Nat.log2_lt hpos).mpr hmantissaBits
      have hexponent : (unpackExponent b : BitVec 11).toNat = 0 := by rw [hzero]; rfl
      rw [dif_neg hmantissa, hexponent]
      obtain ⟨hlarge, -⟩ | ⟨-, hfull, -⟩ | ⟨-, -, hpack⟩ :=
        pack_finite_cases (Sign.ofBitVec (unpackSign b)) (-1074) (Nat.pos_of_ne_zero hpos) rfl
      · exact absurd hlarge (by decide)
      · exact absurd hfull hlog.ne
      · rw [BitVec.ofNat_toNat, BitVec.setWidth_eq, ← hzero] at hpack
        exact hpack.trans hword
  · have hexponentBits : (unpackExponent b : BitVec 11).toNat < 2 ^ 11 := (unpackExponent b : BitVec 11).isLt
    have hlast : (unpackExponent b : BitVec 11).toNat ≠ 2 ^ 11 - 1 := fun h => hones (BitVec.eq_of_toNat_eq h)
    have hlog := log2_one_append (unpackMantissa b : BitVec 52)
    have hbiased : (((unpackExponent b : BitVec 11).toNat : ℤ) - (1023 + 52) + 1075).toNat =
        (unpackExponent b : BitVec 11).toNat := by omega
    have hmantissa : BitVec.ofNat 52 (1#1 ++ (unpackMantissa b : BitVec 52)).toNat = unpackMantissa b := by
      rw [toNat_one_append, BitVec.ofNat_add, BitVec.ofNat_toNat, BitVec.setWidth_eq]
      exact BitVec.zero_add _
    rw [if_neg hzero]
    obtain ⟨hlarge, -⟩ | ⟨-, -, hpack⟩ | ⟨-, hshort, -⟩ :=
      pack_finite_cases (Sign.ofBitVec (unpackSign b)) _ (toNat_one_append_pos (unpackMantissa b)) hbiased
    · omega
    · rw [hmantissa, BitVec.ofNat_toNat, BitVec.setWidth_eq] at hpack
      exact hpack.trans hword
    · exact absurd hlog hshort

theorem ofForm_formOf (x : Float) : ofForm (formOf x) = x := by
  obtain ⟨⟨bits, hvalid⟩⟩ := x
  refine congrArg Float.ofModel ((Float.Model.mk.injEq ..).mpr ?_)
  exact congrArg UInt64.ofBitVec (pack_unpack hvalid)

/-- **A double is determined by its form.** -/
theorem formOf_injective : Function.Injective formOf :=
  Function.LeftInverse.injective ofForm_formOf

end BotSpec.Binary64
