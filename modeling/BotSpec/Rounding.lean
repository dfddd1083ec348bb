/-!
# Rounding a ratio

`roundRatio tie n d` is the whole number nearest to `n / d`. Where two whole numbers are as near,
the `Tie` decides: the even one, or the larger one.
-/

namespace BotSpec

/-- Where a value halfway between two whole numbers goes. -/
inductive Tie where
  | toEven
  | upward
  deriving DecidableEq

/-- Whether the middle between `q` and `q + 1` goes to `q + 1`. -/
def Tie.lifts : Tie → Nat → Bool
  | .toEven, q => q % 2 = 1
  | .upward, _ => true

/-- `n / d` rounded to the nearest whole number. -/
def roundRatio (tie : Tie) (n d : Nat) : Nat :=
  let q := n / d
  let r := n % d
  if 2 * r > d ∨ (2 * r = d ∧ tie.lifts q) then q + 1 else q

/-- Rounding never goes past the numerator. -/
theorem roundRatio_le (tie : Tie) (n : Nat) {d : Nat} (hd : 0 < d) : roundRatio tie n d ≤ n := by
  have he : d * (n / d) + n % d = n := Nat.div_add_mod n d
  have hq : 1 * (n / d) ≤ d * (n / d) := Nat.mul_le_mul_right _ hd
  simp only [roundRatio]
  split <;> omega

end BotSpec
