import BotSpec.Proofs.Binary64.Arithmetic

/-!
# Magnitudes of doubles

An operation on doubles that are not too large gives a double, and not an infinity. How large a
result can be is followed here through the exponents: `Below k a` says that `a` is a zero or a
finite number under `2 ^ k`, and each operation has a lemma that says how much it adds to `k`.
Rounding adds at most one (`below_roundWithAccuracy`). Packing into 64 bits has three results
(`pack_finite_cases`), and keeps what is under `2 ^ 971` (`Below.pack`).

No precision is claimed: the bounds are for telling numbers from infinities, and generous.
-/

namespace BotSpec.Binary64

open Float.Model UnpackedFloat

/-- A zero, or a finite number whose leading bit stands below the place `k`. -/
def Below (k : ℤ) : UnpackedFloat → Prop
  | .zero _ => True
  | .finite _ m e _ => totalExponent m e ≤ k
  | _ => False

theorem Below.mono {k k' : ℤ} {a : UnpackedFloat} (h : Below k a) (hk : k ≤ k') : Below k' a := by
  cases a with
  | zero s => trivial
  | finite s m e hm => exact le_trans h hk
  | infinity s => exact h
  | notANumber => exact h

theorem Below.ne_notANumber {k : ℤ} {a : UnpackedFloat} (h : Below k a) : a ≠ .notANumber := by
  rintro rfl
  exact h

/-! ## Rounding -/

/-- A mantissa is brought to 53 bits, or to the smallest exponent where it has fewer. -/
theorem targetExponent_eq (t : ℤ) : Format.binary64.targetExponent t = max (t - 53) (-1074) := rfl

/-- Shifting right divides the mantissa; what falls off is remembered beside it. -/
theorem mantissa_shiftRight (n : ℕ) (em : ExtendedMantissa) :
    (em >>> n).mantissa = em.mantissa / 2 ^ n := by
  induction n with
  | zero => exact (Nat.div_one _).symm
  | succ n ih =>
    show (em >>> n).mantissa / 2 = em.mantissa / 2 ^ (n + 1)
    rw [ih, Nat.div_div_eq_div_mul, ← Nat.pow_succ]

theorem mantissa_ofMantissaAndAccuracy (m : ℕ) (acc : Accuracy) :
    (ExtendedMantissa.ofMantissaAndAccuracy m acc).mantissa = m := by
  rcases acc with _ | ⟨_ | _ | _⟩ <;> rfl

theorem roundedMantissa_le (em : ExtendedMantissa) : em.roundedMantissa ≤ em.mantissa + 1 := by
  unfold ExtendedMantissa.roundedMantissa
  rcases em.accuracy with _ | ⟨_ | _ | _⟩ <;> simp only [Accuracy.roundToNearestEven] <;> omega

theorem log2_lt_of_lt {m n : ℕ} (h : m < 2 ^ (n + 1)) : m.log2 < n + 1 := by
  by_cases hm : m = 0
  · rw [hm]
    exact Nat.succ_pos n
  · exact (Nat.log2_lt hm).mpr h

/-- Shifting takes bits away, and rounding adds at most one. -/
theorem log2_roundedMantissa_le (m n : ℕ) (acc : Accuracy) :
    (ExtendedMantissa.ofMantissaAndAccuracy m acc >>> n).roundedMantissa.log2 ≤ m.log2 + 1 - n := by
  have hrounded := roundedMantissa_le (ExtendedMantissa.ofMantissaAndAccuracy m acc >>> n)
  rw [mantissa_shiftRight, mantissa_ofMantissaAndAccuracy] at hrounded
  generalize (ExtendedMantissa.ofMantissaAndAccuracy m acc >>> n).roundedMantissa = r at hrounded ⊢
  have hdiv : m / 2 ^ n < 2 ^ (m.log2 + 1 - n) := by
    rw [Nat.div_lt_iff_lt_mul (Nat.two_pow_pos n), ← Nat.pow_add]
    exact lt_of_lt_of_le Nat.lt_log2_self (Nat.pow_le_pow_right (by decide) (by omega))
  have hr : r < 2 ^ (m.log2 + 1 - n + 1) := by
    have hpos := Nat.two_pow_pos (m.log2 + 1 - n)
    rw [Nat.pow_succ]
    omega
  exact Nat.lt_succ_iff.mp (log2_lt_of_lt hr)

/-- Dividing by a power of two takes so many bits off. -/
theorem log2_div_add_le {m n : ℕ} (h : m / 2 ^ n ≠ 0) : (m / 2 ^ n).log2 + n ≤ m.log2 := by
  have hm : m ≠ 0 := by
    rintro rfl
    exact h (Nat.zero_div _)
  rw [Nat.le_log2 hm, Nat.pow_add]
  calc 2 ^ (m / 2 ^ n).log2 * 2 ^ n
      ≤ m / 2 ^ n * 2 ^ n := Nat.mul_le_mul_right _ (Nat.log2_self_le h)
    _ ≤ m := Nat.div_mul_le_self m (2 ^ n)

/-- A mantissa at an exponent, or a zero if nothing is left of the mantissa. -/
theorem below_dite (s : Sign) {m : ℕ} {e k : ℤ} (h : m ≠ 0 → totalExponent m e ≤ k) :
    Below k (if hm : m = 0 then .zero s else .finite s m e (Nat.pos_of_ne_zero hm)) := by
  by_cases hm : m = 0
  · rw [dif_pos hm]
    trivial
  · rw [dif_neg hm]
    exact h hm

/-- Rounding moves the leading bit by at most one place, or to the last place there is. -/
theorem below_roundWithAccuracy (s : Sign) {m : ℕ} {e k : ℤ} (acc : Accuracy)
    (h : totalExponent m e ≤ k) (hk : -1074 ≤ k) :
    Below (k + 1) (roundWithAccuracy Format.binary64 s m e acc) := by
  unfold roundWithAccuracy
  apply below_dite
  intro hzero
  simp only [targetExponent_eq, mantissa_shiftRight, mantissa_ofMantissaAndAccuracy] at hzero ⊢
  have hlog := log2_roundedMantissa_le m (max (totalExponent m e - 53) (-1074) - e).toNat acc
  have hdiv := log2_div_add_le hzero
  show totalExponent (_ / 2 ^ _) (e + _ + _) ≤ k + 1
  -- what remains is about the two shifts, the leading bits and the exponent alone
  generalize hn : (max (totalExponent m e - 53) (-1074) - e).toNat = n at hlog hdiv ⊢
  generalize (ExtendedMantissa.ofMantissaAndAccuracy m acc >>> n).roundedMantissa = r at hlog hdiv ⊢
  generalize (max (totalExponent r (e + n) - 53) (-1074) - (e + n)).toNat = n' at hdiv ⊢
  unfold totalExponent at h hn ⊢
  omega

/-- What is below a power of two is rounded to something below the next one. -/
theorem below_round (s : Sign) {m : ℕ} {e k : ℤ} (h : totalExponent m e ≤ k)
    (hk : -1074 ≤ k) : Below (k + 1) (UnpackedFloat.round Format.binary64 s m e) := by
  unfold UnpackedFloat.round decreaseExponent
  apply below_roundWithAccuracy s .exact ?_ hk
  -- shifting to the left moves the exponent by as much as the leading bit
  rw [Nat.shiftLeft_eq]
  unfold totalExponent at h ⊢
  generalize (e - Format.binary64.targetExponent _).toNat = n
  have hlog : (m * 2 ^ n).log2 < m.log2 + n + 1 := by
    apply log2_lt_of_lt
    calc m * 2 ^ n
        < 2 ^ (m.log2 + 1) * 2 ^ n := Nat.mul_lt_mul_of_pos_right Nat.lt_log2_self (Nat.two_pow_pos n)
      _ = 2 ^ (m.log2 + n + 1) := by rw [← Nat.pow_add]; congr 1; omega
  omega

theorem below_normalize {M : ℤ} {n : ℕ} {e k : ℤ} (s : Sign) (hM : M.natAbs < 2 ^ n)
    (hn : n + e ≤ k) (hk : -1074 ≤ k) : Below (k + 1) (UnpackedFloat.normalize Format.binary64 M e s) := by
  have htotal : ∀ m : ℕ, m ≠ 0 → m = M.natAbs → totalExponent m e ≤ k := by
    intro m hm heq
    rw [← heq] at hM
    have hlog := (Nat.log2_lt hm).mpr hM
    unfold totalExponent
    omega
  unfold UnpackedFloat.normalize
  split
  next h =>
    have hneg := Int.compare_eq_lt.mp h
    exact below_round _ (htotal _ (by omega) (by omega)) hk
  next => trivial
  next h =>
    have hpos := Int.compare_eq_gt.mp h
    exact below_round _ (htotal _ (by omega) (by omega)) hk

/-! ## Operations -/

theorem natAbs_apply (s : Sign) (n : ℕ) : (s.apply n).natAbs = n := by
  cases s
  · exact Int.natAbs_neg n
  · rfl

/-- A mantissa brought to a smaller exponent. -/
theorem shiftLeft_lt {m : ℕ} {e t k : ℤ} (h : totalExponent m e ≤ k) (ht : t ≤ e) :
    m <<< (e - t).toNat < 2 ^ (k - t).toNat := by
  rw [Nat.shiftLeft_eq]
  unfold totalExponent at h
  calc m * 2 ^ (e - t).toNat
      < 2 ^ (m.log2 + 1) * 2 ^ (e - t).toNat :=
        Nat.mul_lt_mul_of_pos_right Nat.lt_log2_self (Nat.two_pow_pos _)
    _ = 2 ^ (m.log2 + 1 + (e - t).toNat) := by rw [← Nat.pow_add]
    _ ≤ 2 ^ (k - t).toNat := Nat.pow_le_pow_right (by decide) (by omega)

/-- A sum of two numbers below a power of two is below four times it. -/
theorem Below.add {k : ℤ} {a b : UnpackedFloat} (hk : -1074 ≤ k) (ha : Below k a) (hb : Below k b) :
    Below (k + 2) (add Format.binary64 a b) := by
  cases a with
  | infinity s => cases ha
  | notANumber => cases ha
  | zero s =>
    cases b with
    | infinity t => cases hb
    | notANumber => cases hb
    | zero t => cases s <;> cases t <;> trivial
    | finite t m e hm => exact hb.mono (by omega)
  | finite s m e hm =>
    cases b with
    | infinity t => cases hb
    | notANumber => cases hb
    | zero t => exact ha.mono (by omega)
    | finite t m' e' hm' =>
      -- both mantissas are brought to the smaller exponent before they are added
      have hleft : m <<< (e - min e e').toNat < 2 ^ (k - min e e').toNat :=
        shiftLeft_lt ha (min_le_left e e')
      have hright : m' <<< (e' - min e e').toNat < 2 ^ (k - min e e').toNat :=
        shiftLeft_lt hb (min_le_right e e')
      have hpositive : (0 : ℤ) ≤ k - min e e' := by
        have htotal : totalExponent m e ≤ k := ha
        unfold totalExponent at htotal
        omega
      have hsum : (s.apply (m <<< (e - min e e').toNat : ℕ)
          + t.apply (m' <<< (e' - min e e').toNat : ℕ)).natAbs < 2 ^ ((k - min e e').toNat + 1) := by
        rw [Nat.pow_succ]
        have hnorm := Int.natAbs_add_le (s.apply (m <<< (e - min e e').toNat : ℕ))
          (t.apply (m' <<< (e' - min e e').toNat : ℕ))
        rw [natAbs_apply, natAbs_apply] at hnorm
        omega
      have hresult := below_normalize .positive hsum
        (show (((k - min e e').toNat + 1 : ℕ) : ℤ) + min e e' ≤ k + 1 by omega) (by omega)
      exact hresult.mono (by omega)

/-- A product is below the product of the bounds, and one bit for the rounding. -/
theorem Below.mul {k l : ℤ} {a b : UnpackedFloat} (hkl : -1074 ≤ k + l) (ha : Below k a)
    (hb : Below l b) : Below (k + l + 1) (mul Format.binary64 a b) := by
  cases a with
  | infinity s => cases ha
  | notANumber => cases ha
  | zero s =>
    cases b with
    | infinity t => cases hb
    | notANumber => cases hb
    | zero t => trivial
    | finite t m e hm => trivial
  | finite s m e hm =>
    cases b with
    | infinity t => cases hb
    | notANumber => cases hb
    | zero t => trivial
    | finite t m' e' hm' =>
      -- a product has as many bits as its factors together, or one less
      have hlog : (m * m').log2 < m.log2 + m'.log2 + 1 + 1 := by
        apply log2_lt_of_lt
        calc m * m'
            < 2 ^ (m.log2 + 1) * 2 ^ (m'.log2 + 1) :=
              Nat.mul_lt_mul_of_lt_of_lt Nat.lt_log2_self Nat.lt_log2_self
          _ = 2 ^ (m.log2 + m'.log2 + 1 + 1) := by rw [← Nat.pow_add]; congr 1; omega
      apply below_roundWithAccuracy _ _ ?_ hkl
      unfold Below totalExponent at ha hb
      unfold totalExponent
      omega

/-- A quotient by a number whose leading bit stands at `l` or higher. -/
theorem Below.div {k l : ℤ} {a : UnpackedFloat} {t : Sign} {m' : ℕ} {e' : ℤ} {hm' : 0 < m'}
    (hkl : -1074 ≤ k - l) (ha : Below k a) (hb : l ≤ totalExponent m' e') :
    Below (k - l + 2) (div Format.binary64 a (.finite t m' e' hm')) := by
  cases a with
  | infinity s => cases ha
  | notANumber => cases ha
  | zero s => trivial
  | finite s m e hm =>
    have ha : totalExponent m e ≤ k := ha
    have hround : totalExponent (divCore Format.binary64 m e m' e').1
        (divCore Format.binary64 m e m' e').2.1 ≤ k - l + 1 := by
      simp only [divCore, targetExponent_eq]
      generalize htarget :
        min (e - e') (max (totalExponent m e - totalExponent m' e' - 53) (-1074)) = target
      rw [Nat.shiftLeft_eq]
      by_cases hq : m * 2 ^ (e - e' - target).toNat / m' = 0
      · -- the quotient is under one unit of the target exponent
        rw [hq]
        unfold totalExponent at *
        simp only [Nat.log2_zero]
        omega
      · -- the divisor takes away as many bits as it has but one
        have hlog : (m * 2 ^ (e - e' - target).toNat / m').log2 + m'.log2
            < m.log2 + 1 + (e - e' - target).toNat := by
          apply (Nat.pow_lt_pow_iff_right (by decide : 1 < 2)).mp
          calc 2 ^ ((m * 2 ^ (e - e' - target).toNat / m').log2 + m'.log2)
              = 2 ^ (m * 2 ^ (e - e' - target).toNat / m').log2 * 2 ^ m'.log2 := Nat.pow_add ..
            _ ≤ m * 2 ^ (e - e' - target).toNat / m' * m' :=
                Nat.mul_le_mul (Nat.log2_self_le hq) (Nat.log2_self_le (Nat.ne_of_gt hm'))
            _ ≤ m * 2 ^ (e - e' - target).toNat := Nat.div_mul_le_self _ _
            _ < 2 ^ (m.log2 + 1) * 2 ^ (e - e' - target).toNat :=
                Nat.mul_lt_mul_of_pos_right Nat.lt_log2_self (Nat.two_pow_pos _)
            _ = 2 ^ (m.log2 + 1 + (e - e' - target).toNat) := by rw [← Nat.pow_add]
        unfold totalExponent at *
        omega
    have hresult := below_roundWithAccuracy (s / t) (divCore Format.binary64 m e m' e').2.2 hround
      (by omega)
    exact hresult.mono (by omega)

theorem Below.neg {k : ℤ} {a : UnpackedFloat} (ha : Below k a) : Below k a.neg := by
  cases a with
  | zero s => trivial
  | finite s m e hm => exact ha
  | infinity s => cases ha
  | notANumber => cases ha

/-! ## Packing -/

/-- The form of a double that is packed from a form is that of its bits. -/
theorem formOf_ofForm (a : UnpackedFloat) :
    formOf (ofForm a) = UnpackedFloat.unpack Format.binary64 (UnpackedFloat.pack Format.binary64 a) := rfl

/-- The exponent in the bits of a double bounds it. -/
theorem below_unpack {b : BitVec Format.binary64.numBits} {k : ℤ}
    (hfinite : (unpackExponent b : BitVec 11) ≠ -1#11)
    (hexponent : ((unpackExponent b : BitVec 11).toNat : ℤ) ≤ k + 1022) :
    Below k (UnpackedFloat.unpack Format.binary64 b) := by
  have hbias : ((Format.binary64.exponentBias : ℕ) : ℤ) = 1023 := rfl
  unfold UnpackedFloat.unpack
  dsimp only
  rw [if_neg hfinite]
  by_cases hzero : (unpackExponent b : BitVec 11) = 0#11
  · rw [if_pos hzero]
    by_cases hm : (unpackMantissa b : BitVec 52) = 0#52
    · rw [dif_pos hm]
      trivial
    · rw [dif_neg hm]
      have hlog : (unpackMantissa b : BitVec 52).toNat.log2 < 52 :=
        log2_lt_of_lt (unpackMantissa b : BitVec 52).isLt
      show totalExponent _ _ ≤ k
      unfold totalExponent
      rw [hzero, hbias]
      simp only [BitVec.toNat_ofNat]
      omega
  · rw [if_neg hzero]
    have hlog : (1#1 ++ (unpackMantissa b : BitVec 52)).toNat.log2 < 53 :=
      log2_lt_of_lt (1#1 ++ (unpackMantissa b : BitVec 52)).isLt
    show totalExponent _ _ ≤ k
    unfold totalExponent
    rw [hbias]
    omega

theorem toNat_biased {biased : ℕ} (h : biased < 2047) : (BitVec.ofNat 11 biased).toNat = biased := by
  rw [BitVec.toNat_ofNat]
  exact Nat.mod_eq_of_lt (by omega)

/-- An exponent under the largest is not the one of what is not finite. -/
theorem ofNat_ne_ones {biased : ℕ} (h : biased < 2047) : BitVec.ofNat 11 biased ≠ -1#11 := by
  intro heq
  have hval := (toNat_biased h).symm.trans (congrArg BitVec.toNat heq)
  have hones : (-1#11).toNat = 2047 := rfl
  omega

/-- What packing makes of a finite form: an infinity of what is too large, a full mantissa without
its leading bit, and a shorter one under the smallest exponent. -/
theorem pack_finite_cases (s : Sign) {m : ℕ} (e : ℤ) (hm : 0 < m) {biased : ℕ}
    (hbiased : (e + 1075).toNat = biased) :
    2047 ≤ biased ∧ UnpackedFloat.pack Format.binary64 (.finite s m e hm) = packedInfinity Format.binary64 s ∨
    biased < 2047 ∧ m.log2 = 52 ∧ UnpackedFloat.pack Format.binary64 (.finite s m e hm) =
      packComponents Format.binary64 s (BitVec.ofNat 11 biased) (BitVec.ofNat 52 m) ∨
    biased < 2047 ∧ m.log2 ≠ 52 ∧ UnpackedFloat.pack Format.binary64 (.finite s m e hm) =
      packComponents Format.binary64 s 0#11 (BitVec.ofNat 52 m) := by
  have hbias : ((Format.binary64.exponentBias : ℕ) : ℤ) = 1023 := rfl
  have hwidth : ((Format.binary64.mantissaBitsWithoutImplicit : ℕ) : ℤ) = 52 := rfl
  have hsum : e + 1023 + 52 = e + 1075 := by omega
  have hfull : Format.binary64.mantissaBits = 53 := rfl
  unfold UnpackedFloat.pack
  dsimp only
  rw [hbias, hwidth, hsum, hbiased, hfull]
  by_cases hlarge : 2 ^ 11 ≤ biased + 1
  · exact .inl ⟨by omega, if_pos hlarge⟩
  rw [if_neg hlarge]
  by_cases hlog : m.log2 + 1 = 53
  · exact .inr (.inl ⟨by omega, by omega, if_pos hlog⟩)
  · exact .inr (.inr ⟨by omega, by omega, if_neg hlog⟩)

/-- What is not too large keeps its magnitude in 64 bits. -/
theorem Below.pack {k : ℤ} {a : UnpackedFloat} (hk : -1022 ≤ k) (hk' : k ≤ 971) (ha : Below k a) :
    Below k (formOf (ofForm a)) := by
  rw [formOf_ofForm]
  cases a with
  | infinity s => cases ha
  | notANumber => cases ha
  | zero s =>
    have hzero : UnpackedFloat.unpack Format.binary64 (UnpackedFloat.pack Format.binary64 (.zero s))
        = .zero s := formOf_ofForm_zero s
    rw [hzero]
    trivial
  | finite s m e hm =>
    have htotal : totalExponent m e ≤ k := ha
    unfold totalExponent at htotal
    obtain ⟨hlarge, -⟩ | ⟨hsmall, hlog, hpack⟩ | ⟨-, -, hpack⟩ := pack_finite_cases s e hm rfl
    · omega
    · rw [hpack]
      apply below_unpack
      · rw [unpackExponent_packComponents]
        exact ofNat_ne_ones hsmall
      · rw [unpackExponent_packComponents]
        show ((BitVec.ofNat 11 (e + 1075).toNat).toNat : ℤ) ≤ k + 1022
        rw [toNat_biased hsmall]
        omega
    · rw [hpack]
      apply below_unpack
      · rw [unpackExponent_packComponents]
        decide
      · rw [unpackExponent_packComponents]
        simp only [BitVec.toNat_ofNat]
        omega

/-- Bits that are not those of nothing. -/
theorem unpack_ne_notANumber {b : BitVec Format.binary64.numBits}
    (h : (unpackExponent b : BitVec 11) = -1#11 → (unpackMantissa b : BitVec 52) = 0#52) :
    UnpackedFloat.unpack Format.binary64 b ≠ .notANumber := by
  unfold UnpackedFloat.unpack
  dsimp only
  by_cases hones : (unpackExponent b : BitVec 11) = -1#11
  · rw [if_pos hones, if_pos (h hones)]
    intro hinfinity
    cases hinfinity
  · rw [if_neg hones]
    by_cases hzero : (unpackExponent b : BitVec 11) = 0#11
    · rw [if_pos hzero]
      by_cases hm : (unpackMantissa b : BitVec 52) = 0#52
      · rw [dif_pos hm]
        intro hnone
        cases hnone
      · rw [dif_neg hm]
        intro hsubnormal
        cases hsubnormal
    · rw [if_neg hzero]
      intro hnormal
      cases hnormal

/-- Only nothing is packed to nothing: what is too large becomes an infinity. -/
theorem formOf_ofForm_ne_notANumber {a : UnpackedFloat} (ha : a ≠ .notANumber) :
    formOf (ofForm a) ≠ .notANumber := by
  rw [formOf_ofForm]
  apply unpack_ne_notANumber
  cases a with
  | infinity s => exact fun _ => unpackMantissa_packComponents
  | notANumber => exact absurd rfl ha
  | zero s => exact fun _ => unpackMantissa_packComponents
  | finite s m e hm =>
    obtain ⟨-, hpack⟩ | ⟨hsmall, -, hpack⟩ | ⟨-, -, hpack⟩ := pack_finite_cases s e hm rfl
    · rw [hpack]
      exact fun _ => unpackMantissa_packComponents
    · rw [hpack, unpackExponent_packComponents]
      exact fun hones => absurd hones (ofNat_ne_ones hsmall)
    · rw [hpack, unpackExponent_packComponents]
      intro hones
      exact absurd hones (by decide)

/-! ## Doubles -/

/-- A double under `2 ^ k`. -/
def Under (k : ℤ) (x : Float) : Prop := Below k (formOf x)

theorem Under.mono {k k' : ℤ} {x : Float} (h : Under k x) (hk : k ≤ k') : Under k' x :=
  Below.mono h hk

/-- A double under a bound is a number. -/
theorem Under.isNumber {k : ℤ} {x : Float} (h : Under k x) : Arith.IsNumber x :=
  beq_self_iff.mpr (Below.ne_notANumber h)

/-- The bound of a sum, as long as the bounds are far from the largest double. -/
theorem Under.add {k : ℤ} {x y : Float} (hk : -1022 ≤ k) (hk' : k ≤ 969) (hx : Under k x)
    (hy : Under k y) : Under (k + 2) (x + y) :=
  Below.pack (by omega) (by omega) (Below.add (by omega) hx hy)

theorem Under.mul {k l : ℤ} {x y : Float} (hkl : -1022 ≤ k + l) (hkl' : k + l ≤ 970)
    (hx : Under k x) (hy : Under l y) : Under (k + l + 1) (x * y) :=
  Below.pack (by omega) (by omega) (Below.mul (by omega) hx hy)

theorem Under.neg {k : ℤ} {x : Float} (hk : -1022 ≤ k) (hk' : k ≤ 971) (hx : Under k x) :
    Under k (-x) :=
  Below.pack hk hk' (Below.neg hx)

/-- A double whose leading bit stands at `l` or higher. -/
def AtLeast (l : ℤ) (x : Float) : Prop :=
  ∃ s m e hm, formOf x = .finite s m e hm ∧ l ≤ totalExponent m e

/-- The bound of a quotient, whose divisor is at least some power of two. -/
theorem Under.div {k l : ℤ} {x y : Float} (hkl : -1022 ≤ k - l) (hkl' : k - l ≤ 969)
    (hx : Under k x) (hy : AtLeast l y) : Under (k - l + 2) (x / y) := by
  obtain ⟨s, m, e, hm, hform, htotal⟩ := hy
  unfold Under
  rw [div_eq, hform]
  exact Below.pack (by omega) (by omega) (Below.div (by omega) hx htotal)

/-- A sum with a number that is not infinite is a number: an infinity stays one. -/
theorem isNumber_add {k : ℤ} {x y : Float} (hx : Arith.IsNumber x) (hy : Under k y) :
    Arith.IsNumber (x + y) := by
  have hx : formOf x ≠ .notANumber := beq_self_iff.mp hx
  apply beq_self_iff.mpr
  rw [add_eq]
  apply formOf_ofForm_ne_notANumber
  unfold Under at hy
  generalize formOf x = a at hx
  generalize formOf y = b at hy
  have hinfinity : ∀ s, add Format.binary64 (.infinity s) b ≠ .notANumber := by
    intro s
    cases b with
    | infinity t => cases hy
    | notANumber => cases hy
    | zero t => nofun
    | finite t m e hm => nofun
  have hfinite : ∀ l, Below l a → add Format.binary64 a b ≠ .notANumber := by
    intro l ha
    have hsum : Below (max (max k l) (-1074) + 2) (add Format.binary64 a b) :=
      Below.add (le_max_right _ _) (ha.mono (by omega)) (hy.mono (by omega))
    exact hsum.ne_notANumber
  cases a with
  | notANumber => exact absurd rfl hx
  | infinity s => exact hinfinity s
  | zero s => exact hfinite 0 trivial
  | finite s m e hm => exact hfinite (totalExponent m e) (le_refl _)

end BotSpec.Binary64
