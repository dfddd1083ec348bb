import BotSpec.Proofs.Binary64.Difference
import BotSpec.Strategy.Factory

/-!
# Periods

A period is read from a double. It has three ways to be refused, and what is left are the whole
numbers from one to the longest period:

> `periodOf_eq_ok_iff`: a double is the period `n` exactly if it is `n`, for `1 ≤ n ≤ 10000`.

So no value that is not a number, infinite, or between two whole numbers is taken for a period. The
check for a fraction is a difference with the whole number below, and a difference is not lost in
rounding (`beq_of_sub_beq_zero`).
-/

namespace BotSpec

open Binary64

/-- A whole number that is accepted as a period. -/
def IsPeriod (x : Float) (n : Nat) : Prop := 1 ≤ n ∧ n ≤ 10000 ∧ x = Float.ofNat n

namespace IsPeriod

variable {x : Float} {n : Nat}

/-- A period is the double of a count. -/
theorem eq_toFloat (h : IsPeriod x n) : x = n.toUInt64.toFloat := by
  obtain ⟨hone, hlongest, rfl⟩ := h
  exact ofNat_eq_toFloat hone (lt_of_le_of_lt hlongest (by decide))

/-- As a count of 64 bits a period is the whole number that it is. -/
theorem bounds (h : IsPeriod x n) :
    0 < n.toUInt64.toNat ∧ n.toUInt64.toNat < twoPow 53 ∧ n.toUInt64.toNat = n := by
  obtain ⟨hone, hlongest, -⟩ := h
  have hcount : n.toUInt64.toNat = n := UInt64.toNat_ofNat_of_lt' (lt_of_le_of_lt hlongest (by decide))
  rw [hcount]
  exact ⟨hone, lt_of_le_of_lt hlongest (by decide), rfl⟩

/-- The count of a period is the period. -/
theorem toUInt64_eq (h : IsPeriod x n) : x.toUInt64 = n.toUInt64 := by
  obtain ⟨hpos, hbits, -⟩ := h.bounds
  rw [h.eq_toFloat]
  exact UInt64.toNat_inj.mp (toNat_toFloat hpos hbits)

theorem toNat_toUInt64 (h : IsPeriod x n) : x.toUInt64.toNat = n := by
  rw [h.toUInt64_eq, h.bounds.2.2]

theorem formOf_eq (h : IsPeriod x n) : formOf x = wholeForm n.toUInt64.toNat h.bounds.1 := by
  obtain ⟨hpos, hbits, -⟩ := h.bounds
  rw [h.eq_toFloat]
  exact formOf_toFloat hpos hbits

theorem formOf_ne_notANumber (h : IsPeriod x n) : formOf x ≠ .notANumber := by
  rw [h.formOf_eq]
  exact nofun

theorem not_lt_one (h : IsPeriod x n) : ¬ x < 1 := by
  intro hlt
  have hmono := toUInt64_mono h.formOf_ne_notANumber (lt_iff.mp hlt).2.1 fun hgt =>
    LawfulArith.lt_irrefl _ (LawfulArith.lt_trans hlt hgt)
  have hcount : (1 : Float).toUInt64.toNat = 1 := by decide +kernel
  rw [h.toNat_toUInt64, hcount] at hmono
  obtain ⟨hone, -, rfl⟩ := h
  obtain rfl : n = 1 := Nat.le_antisymm hmono hone
  exact LawfulArith.lt_irrefl _ hlt

theorem not_longest_lt (h : IsPeriod x n) : ¬ longestPeriod < x := by
  intro hlt
  have hmono := toUInt64_mono (lt_iff.mp hlt).1 h.formOf_ne_notANumber fun hgt =>
    LawfulArith.lt_irrefl _ (LawfulArith.lt_trans hlt hgt)
  have hcount : longestPeriod.toUInt64.toNat = 10000 := by decide +kernel
  rw [h.toNat_toUInt64, hcount] at hmono
  obtain ⟨-, hlongest, rfl⟩ := h
  obtain rfl : n = 10000 := Nat.le_antisymm hlongest hmono
  exact LawfulArith.lt_irrefl _ hlt

theorem sub_floor_beq_zero (h : IsPeriod x n) : (x - floor x == 0) = true := by
  have hfloor : floor x = x := by
    rw [floor, h.toUInt64_eq, ← h.eq_toFloat, ite_self]
  rw [hfloor]
  exact sub_self_beq_zero h.formOf_eq

end IsPeriod

theorem spec_of_periodOf {x : Float} {n : Nat} (h : periodOf x = .ok n) :
    ¬ x < 1 ∧ (x == floor x) = true ∧ ¬ longestPeriod < x ∧ x.toUInt64.toNat = n := by
  unfold periodOf at h
  split at h
  · cases h
  next hone =>
    split at h
    · cases h
    next hfraction =>
      split at h
      · cases h
      next hlongest =>
        cases h
        rw [bne, Bool.not_eq_true', Bool.not_eq_false] at hfraction
        exact ⟨hone, beq_of_sub_beq_zero hfraction, hlongest, rfl⟩

/-- What is not below one, nor above the longest period, and has no fraction is a period. -/
theorem isPeriod_of_periodOf {x : Float} {n : Nat} (h : periodOf x = .ok n) : IsPeriod x n := by
  obtain ⟨hone, hwhole, hlongest, rfl⟩ := spec_of_periodOf h
  obtain ⟨hnumber, -, -⟩ := beq_iff.mp hwhole
  have hnumbers : formOf 1 ≠ .notANumber ∧ formOf longestPeriod ≠ .notANumber := ⟨nofun, nofun⟩
  have hleast := toUInt64_mono hnumbers.1 hnumber hone
  have hmost := toUInt64_mono hnumber hnumbers.2 hlongest
  have hcounts : (1 : Float).toUInt64.toNat = 1 ∧ longestPeriod.toUInt64.toNat = 10000 := by decide +kernel
  rw [hcounts.1] at hleast
  rw [hcounts.2] at hmost
  -- below `2 ^ 53` a double and its count are one number
  have hsmall : x < wholeFrom := by
    have hbelow : longestPeriod < wholeFrom := by decide +kernel
    have hplace := not_lt.mp fun hgt => hlongest (lt_iff.mpr ⟨hnumbers.2, hnumber, hgt⟩)
    exact lt_iff.mpr ⟨hnumber, (lt_iff.mp hbelow).2.1, hplace.trans_lt (lt_iff.mp hbelow).2.2⟩
  have hbits : x.toUInt64.toNat < twoPow 53 := lt_of_le_of_lt hmost (by decide)
  have hform := formOf_toFloat hleast hbits
  rw [floor, if_pos hsmall] at hwhole
  have hequal : x = x.toUInt64.toFloat := by
    rcases alike_of_beq hwhole with heq | ⟨_, _, -, hzero⟩
    · exact formOf_injective heq
    · rw [hform] at hzero
      cases hzero
  refine ⟨hleast, hmost, ?_⟩
  rw [ofNat_eq_toFloat hleast hbits]
  simp only [Nat.toUInt64, UInt64.ofNat_toNat]
  exact hequal

/-- **The periods.** A double is a period exactly if it is one of the whole numbers from one to the
longest. -/
theorem periodOf_eq_ok_iff {x : Float} {n : Nat} : periodOf x = .ok n ↔ IsPeriod x n := by
  refine ⟨isPeriod_of_periodOf, fun h => ?_⟩
  have hfraction : ¬ (x - floor x != 0) = true := by
    rw [bne, h.sub_floor_beq_zero]
    exact nofun
  rw [periodOf, if_neg h.not_lt_one, if_neg hfraction, if_neg h.not_longest_lt, h.toNat_toUInt64]

/-- What is wrong with a number for a period. The first fault counts: a fraction below one is too
small, and what is not a whole number is not too large. -/
def RefusesPeriod (x : Float) : ParamFault → Prop
  | .periodTooSmall => x < 1
  | .periodFractional => ¬ x < 1 ∧ (x - floor x == 0) = false
  | .periodTooLarge => longestPeriod < x ∧ (x - floor x == 0) = true
  | .notPositive => False
  | .notDecimal => False

/-- A value is refused as a period exactly for the fault that it has. -/
theorem periodOf_eq_error_iff {x : Float} {fault : ParamFault} :
    periodOf x = .error fault ↔ RefusesPeriod x fault := by
  have hlarge : longestPeriod < x → ¬ x < 1 := fun hlongest hone =>
    absurd (LawfulArith.lt_trans hlongest hone) (by decide +kernel)
  unfold periodOf
  split
  next hone =>
    cases fault <;> simp [RefusesPeriod, hone]
    exact fun h => absurd hone (hlarge h)
  next hone =>
    split
    next hfraction =>
      rw [bne, Bool.not_eq_true'] at hfraction
      cases fault <;> simp [RefusesPeriod, hone, hfraction]
    next hfraction =>
      rw [bne, Bool.not_eq_true', Bool.not_eq_false] at hfraction
      split
      next hlongest =>
        cases fault <;> simp [RefusesPeriod, hone, hfraction]
        exact hlongest
      next hlongest =>
        cases fault <;> simp [RefusesPeriod, hone, hfraction]
        exact hlongest

end BotSpec
