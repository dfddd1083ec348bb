import BotSpec.Indicator.Band
import BotSpec.Proofs.Indicator.Exact
import BotSpec.Proofs.Indicator.Stochastic
import BotSpec.Proofs.Indicator.Vwap
import BotSpec.Proofs.Indicator.WilliamsR

/-!
# What indicators divide by

In exact arithmetic a step of an indicator is the same whatever is made of a division by zero, so it
does not divide by zero: averages divide by a period or by the length of a window that has just got
a number, oscillators by the width of a range that has been compared with zero, the weighted average
by a volume that has.

The strength index and the directional index are not among these, since their divisors are positive
for a reason that holds along a run only (`Rsi.Follows.step_eq`, `Adx.step_eq`).
-/

namespace BotSpec.Indicator

open Arith

variable (byZero byZero' : ℚ → ℚ) {root : ℚ → ℚ}

/-- A quotient whose divisor is a count. -/
theorem div_ofNat_eq {n : Nat} (h : n ≠ 0) (a : ℚ) :
    @HDiv.hDiv ℚ ℚ ℚ (@instHDiv ℚ (exact byZero root).toDiv) a (@Arith.ofNat ℚ (exact byZero root) n) =
      @HDiv.hDiv ℚ ℚ ℚ (@instHDiv ℚ (exact byZero' root).toDiv) a (@Arith.ofNat ℚ (exact byZero' root) n) := by
  have hcount : (n : ℚ) ≠ 0 := by exact_mod_cast h
  exact quotient_eq hcount

/-! ## Averages -/

/-- The weight of an average is over its period and one. -/
theorem Ema.next_eq (e : Ema ℚ) (x : ℚ) :
    @next ℚ (exact byZero root) e x = @next ℚ (exact byZero' root) e x := by
  unfold next weight
  simp only [div_ofNat_eq byZero byZero' (Nat.succ_ne_zero e.period)]
  rfl

/-- A divergence is made of three averages and divides by nothing else. -/
theorem Divergence.next_eq (d : Divergence ℚ) (x : ℚ) :
    @next ℚ (exact byZero root) d x = @next ℚ (exact byZero' root) d x := by
  unfold next
  simp only [Ema.next_eq byZero byZero']

/-- A window that has just got a number is not empty. -/
theorem length_pushWindow_ne_zero {β : Type} {size : Nat} (h : 1 ≤ size) (window : List β) (x : β) :
    (pushWindow size window x).length ≠ 0 := by
  simp only [pushWindow]
  split
  next hfull =>
    rw [List.length_drop]
    omega
  next => simp

/-- A mean is over the window that holds the new number. -/
theorem Sma.next_eq {s : Sma ℚ} (h : 1 ≤ s.period) (x : ℚ) :
    @next ℚ (exact byZero root) s x = @next ℚ (exact byZero' root) s x := by
  unfold next
  simp only [div_ofNat_eq byZero byZero' (length_pushWindow_ne_zero h s.window x)]
  rfl

/-- The mean moves by a share of the period or of the window, and the squares are over the window.
-/
theorem Deviation.next_eq {s : Deviation ℚ} (h : 1 ≤ s.period) (x : ℚ) :
    @next ℚ (exact byZero root) s x = @next ℚ (exact byZero' root) s x := by
  unfold next
  simp only [div_ofNat_eq byZero byZero' (length_pushWindow_ne_zero h s.window x),
    div_ofNat_eq byZero byZero' (Nat.one_le_iff_ne_zero.mp h)]
  rfl

/-! ## Indicators of averages -/

theorem Macd.step_eq (s : Macd ℚ) (bar : Bar ℚ) :
    @step ℚ (exact byZero root) s bar = @step ℚ (exact byZero' root) s bar := by
  unfold step
  rw [Divergence.next_eq byZero byZero']
  rfl

theorem EmaCrossover.step_eq (s : EmaCrossover ℚ) (bar : Bar ℚ) :
    @step ℚ (exact byZero root) s bar = @step ℚ (exact byZero' root) s bar := by
  unfold step
  rw [Ema.next_eq byZero byZero', Ema.next_eq byZero byZero']

/-- The bands are a deviation around its mean, so the period alone has to be positive. -/
theorem Bollinger.step_eq {s : Bollinger ℚ} (h : 1 ≤ s.deviation.period) (bar : Bar ℚ) :
    @step ℚ (exact byZero root) s bar = @step ℚ (exact byZero' root) s bar := by
  unfold step
  rw [Deviation.next_eq byZero byZero' h]
  rfl

/-- Two averages are fed, that of the ranges and that of the closes. -/
theorem AtrReversion.step_eq {s : AtrReversion ℚ} (hrange : 1 ≤ s.range.period)
    (hmean : 1 ≤ s.mean.period) (bar : Bar ℚ) :
    @step ℚ (exact byZero root) s bar = @step ℚ (exact byZero' root) s bar := by
  unfold step
  rw [Sma.next_eq byZero byZero' hrange, Sma.next_eq byZero byZero' hmean]
  rfl

/-- The volumes are summed, and only the mean of the sums is divided. -/
theorem Obv.step_eq {s : Obv ℚ} (h : 1 ≤ s.average.period) (bar : Bar ℚ) :
    @step ℚ (exact byZero root) s bar = @step ℚ (exact byZero' root) s bar := by
  unfold step
  simp only [Sma.next_eq byZero byZero' h]
  rfl

/-! ## Rings -/

theorem Side.slotBeats_eq (side : Side) (s t : Option ℚ) :
    @slotBeats ℚ (exact byZero root) side s t = @slotBeats ℚ (exact byZero' root) side s t := by
  cases side <;> cases s <;> cases t <;> rfl

theorem Extremum.search_eq (side : Side) (slots : List (Option ℚ)) : ∀ (place best : Nat) (s : Option ℚ),
    @search ℚ (exact byZero root) side place best s slots = @search ℚ (exact byZero' root) side place best s slots := by
  induction slots with
  | nil => exact fun _ _ _ => rfl
  | cons slot rest ih =>
    intro place best s
    unfold search
    rw [Side.slotBeats_eq byZero byZero', ih, ih]

theorem Extremum.next_eq (e : Extremum ℚ) (x : ℚ) :
    @next ℚ (exact byZero root) e x = @next ℚ (exact byZero' root) e x := by
  unfold next
  simp only [Side.slotBeats_eq byZero byZero', search_eq byZero byZero']

variable {byZero byZero'} in
/-- A place in a range, of which there is one where the range has a width. -/
theorem place_eq {gap : Prop} [Decidable gap] {hh ll : ℚ} (a : ℚ) (hgap : hh = ll → gap) :
    (if gap then none else some (quotient byZero a (hh - ll))) =
      if gap then none else some (quotient byZero' a (hh - ll)) := by
  split
  next => rfl
  next hwide => rw [quotient_eq (sub_ne_zero.mpr fun heq => hwide (hgap heq))]

namespace WilliamsR

section Step

variable {α : Type} [Arith α]

/-- The value of %R on a bar. -/
def nextR (s : WilliamsR α) (bar : Bar α) : Option α :=
  let hh := (s.highest.next bar.high).1
  let ll := (s.lowest.next bar.low).1
  if s.bars + 1 < s.period ∨ (hh == ll) = true then none
  else some (-(ofNat 100) * (hh - bar.close) / (hh - ll))

/-- A step in terms of the reading that it makes. -/
theorem step_eq_nextR (s : WilliamsR α) (bar : Bar α) :
    s.step bar = (percentRVote s.overbought s.oversold (s.nextR bar),
      { s with
        highest := (s.highest.next bar.high).2, lowest := (s.lowest.next bar.low).2, bars := s.bars + 1
        reading := s.nextR bar }) := by
  unfold step nextR
  simp only
  split <;> rfl

end Step

/-- The width of the range is compared with zero before it divides. -/
theorem nextR_eq (s : WilliamsR ℚ) (bar : Bar ℚ) :
    @nextR ℚ (exact byZero root) s bar = @nextR ℚ (exact byZero' root) s bar := by
  unfold nextR
  rw [Extremum.next_eq byZero byZero', Extremum.next_eq byZero byZero']
  exact place_eq _ fun heq => .inr (beq_iff_eq.mpr heq)

theorem step_eq (s : WilliamsR ℚ) (bar : Bar ℚ) :
    @step ℚ (exact byZero root) s bar = @step ℚ (exact byZero' root) s bar := by
  rw [@step_eq_nextR _ (exact byZero root), @step_eq_nextR _ (exact byZero' root), nextR_eq byZero byZero',
    Extremum.next_eq byZero byZero', Extremum.next_eq byZero byZero']
  rfl

end WilliamsR

namespace Stochastic

section Step

variable {α : Type} [Arith α]

/-- %D over the values of %K that are remembered. -/
def nextD (s : Stochastic α) (k : α) : α := (pushWindow 3 s.recent k).foldl (fun a b => a + b) (ofNat 0) / ofNat 3

/-- A step in terms of the %K that it makes, and of the %D over the last three of them. -/
theorem step_eq_nextK (s : Stochastic α) (bar : Bar α) :
    s.step bar =
      let s' := { s with
        highest := (s.highest.next bar.high).2, lowest := (s.lowest.next bar.low).2, bars := s.bars + 1, k := s.nextK bar }
      match s.nextK bar with
      | none => (.hold, { s' with recent := [], previous := none })
      | some k =>
        if (pushWindow 3 s.recent k).length < 3 then (.hold, { s' with recent := pushWindow 3 s.recent k, previous := none })
        else (crossVote s.overbought s.oversold s.previous k (s.nextD k),
          { s' with recent := pushWindow 3 s.recent k, previous := some (k, s.nextD k) }) := by
  unfold step nextK
  simp only
  split
  next => rfl
  next => rfl

end Step

theorem nextK_eq (s : Stochastic ℚ) (bar : Bar ℚ) :
    @nextK ℚ (exact byZero root) s bar = @nextK ℚ (exact byZero' root) s bar := by
  unfold nextK
  rw [Extremum.next_eq byZero byZero', Extremum.next_eq byZero byZero']
  exact place_eq _ fun heq => .inr (beq_iff_eq.mpr heq)

theorem nextD_eq (s : Stochastic ℚ) (k : ℚ) :
    @nextD ℚ (exact byZero root) s k = @nextD ℚ (exact byZero' root) s k := by
  unfold nextD
  exact div_ofNat_eq byZero byZero' three_ne_zero _

theorem step_eq (s : Stochastic ℚ) (bar : Bar ℚ) :
    @step ℚ (exact byZero root) s bar = @step ℚ (exact byZero' root) s bar := by
  rw [@step_eq_nextK _ (exact byZero root), @step_eq_nextK _ (exact byZero' root), nextK_eq byZero byZero',
    Extremum.next_eq byZero byZero', Extremum.next_eq byZero byZero']
  simp only [nextD_eq byZero byZero']
  rfl

end Stochastic

/-! ## The weighted average -/

namespace Vwap

section Step

variable {α : Type} [Arith α]

/-- The average of a window, if there is volume in it. -/
def average? (window : List (α × α)) : Option α :=
  if (totals window).2 ≤ ofNat 0 then none else some ((totals window).1 / (totals window).2)

/-- A step in terms of the average over the window that it leaves. -/
theorem step_eq_average? (s : Vwap α) (bar : Bar α) :
    s.step bar =
      let s' := { s with window := pushWindow s.period s.window (weighted bar) }
      if s'.window.length < s.period then (.hold, s')
      else match average? s'.window with
        | none => (.hold, { s' with reading := none })
        | some x => (averageVote x bar.close, { s' with reading := some x }) := by
  unfold step average? weighted
  simp only
  split
  next => rfl
  next => split <;> rfl

end Step

theorem weighted_eq (bar : Bar ℚ) :
    @weighted ℚ (exact byZero root) bar = @weighted ℚ (exact byZero' root) bar := by
  unfold weighted typicalPrice
  simp only [div_ofNat_eq byZero byZero' three_ne_zero]

/-- The volume of the window is compared with zero before it divides. -/
theorem average?_eq (window : List (ℚ × ℚ)) :
    @average? ℚ (exact byZero root) window = @average? ℚ (exact byZero' root) window := by
  have htotals : @totals ℚ (exact byZero root) window = @totals ℚ (exact byZero' root) window := rfl
  unfold average?
  rw [htotals]
  generalize @totals ℚ (exact byZero' root) window = t
  show (if t.2 ≤ 0 then none else some (quotient byZero t.1 t.2)) =
    (if t.2 ≤ 0 then none else some (quotient byZero' t.1 t.2))
  split
  next => rfl
  next hsold => rw [quotient_eq (not_le.mp hsold).ne']

theorem step_eq (s : Vwap ℚ) (bar : Bar ℚ) :
    @step ℚ (exact byZero root) s bar = @step ℚ (exact byZero' root) s bar := by
  rw [@step_eq_average? _ (exact byZero root), @step_eq_average? _ (exact byZero' root), weighted_eq byZero byZero']
  simp only [average?_eq byZero byZero']
  rfl

end Vwap

end BotSpec.Indicator
