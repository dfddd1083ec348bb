import Mathlib.Tactic.Positivity
import Mathlib.Data.List.Induction
import BotSpec.Indicator.Oscillator
import BotSpec.Proofs.Indicator.Exact

/-!
# The relative strength index in exact arithmetic

`strength?` is the index as a formula: the gains and the losses from close to close are averaged
(`wilder`), and compared. The indicator keeps both averages:

> `Rsi.Follows.step`: one close more, and the reading is the formula's value for all closes so far.
> > `strength_bounds`: an index of averages that are not negative is in [0, 100], and 100 if there
> is no loss.

The averages of what is not negative are not negative (`wilder_nonneg`). That is also why no divisor
is zero (`Rsi.index_exact`).
-/

namespace BotSpec.Indicator

open Arith

variable {byZero byZero' root : ℚ → ℚ} {period : Nat} {closes : List ℚ}

/-! ## Averages of changes -/

/-- From each number to the next one. -/
def moves : List ℚ → List ℚ
  | a :: b :: rest => (b - a) :: moves (b :: rest)
  | _ => []

theorem length_moves : ∀ xs : List ℚ, (moves xs).length = xs.length - 1
  | [] => rfl
  | [_] => rfl
  | a :: b :: rest => by
    rw [moves, List.length_cons, length_moves (b :: rest)]
    rfl

theorem moves_concat (a b : ℚ) : ∀ xs : List ℚ, moves (xs ++ [a, b]) = moves (xs ++ [a]) ++ [b - a]
  | [] => rfl
  | [_] => rfl
  | x :: y :: rest => by
    have h := moves_concat a b (y :: rest)
    simp only [List.cons_append, moves] at h ⊢
    rw [h]

/-- The changes upwards, zero for the others. -/
def gains (closes : List ℚ) : List ℚ := (moves closes).map fun c => max c 0

/-- The changes downwards, zero for the others. -/
def losses (closes : List ℚ) : List ℚ := (moves closes).map fun c => max (-c) 0

/-- The mean of the first `period` numbers, smoothed with each further one. While there are fewer,
the missing ones are zero. -/
def wilder (period : Nat) (xs : List ℚ) : ℚ :=
  (xs.drop period).foldl (fun a x => (a * (period - 1) + x) / period) ((xs.take period).sum / period)

theorem wilder_nil (period : Nat) : wilder period [] = 0 := by simp [wilder]

/-- One number more: while there are too few the mean is filled up, later it is smoothed. -/
theorem wilder_concat (period : Nat) (xs : List ℚ) (x : ℚ) :
    wilder period (xs ++ [x]) =
      if xs.length + 1 ≤ period then wilder period xs + x / period
      else (wilder period xs * (period - 1) + x) / period := by
  split
  next hfilling =>
    have htake : xs.length ≤ period := by omega
    have htake' : (xs ++ [x]).length ≤ period := by simpa using hfilling
    rw [wilder, wilder, List.take_of_length_le htake, List.take_of_length_le htake', List.drop_of_length_le htake,
      List.drop_of_length_le htake', List.foldl_nil, List.foldl_nil, List.sum_append, List.sum_singleton, add_div]
  next hfull =>
    have hlong : period ≤ xs.length := by omega
    rw [wilder, wilder, List.take_append_of_le_length hlong, List.drop_append_of_le_length hlong, List.foldl_append]
    rfl

/-- A mean of numbers that are not negative is not negative, smoothed or not. -/
theorem wilder_nonneg (hperiod : 1 ≤ period) {xs : List ℚ} (h : ∀ x ∈ xs, 0 ≤ x) : 0 ≤ wilder period xs := by
  have hone : (1 : ℚ) ≤ period := by exact_mod_cast hperiod
  induction xs using List.reverseRecOn with
  | nil => simp [wilder]
  | append_singleton xs x ih =>
    have hbefore := ih fun y hy => h y (List.mem_append_left _ hy)
    have hx := h x (List.mem_append_right _ (List.mem_singleton_self x))
    rw [wilder_concat]
    split
    next => positivity
    next =>
      have hweight : (0 : ℚ) ≤ period - 1 := by linarith
      positivity

/-- Gains are not negative, so neither is their mean. -/
theorem wilder_gains_nonneg (hperiod : 1 ≤ period) : 0 ≤ wilder period (gains closes) := by
  refine wilder_nonneg hperiod fun x hx => ?_
  obtain ⟨c, -, rfl⟩ := List.mem_map.mp hx
  exact le_max_right c 0

/-- Losses are not negative, so neither is their mean. -/
theorem wilder_losses_nonneg (hperiod : 1 ≤ period) : 0 ≤ wilder period (losses closes) := by
  refine wilder_nonneg hperiod fun x hx => ?_
  obtain ⟨c, -, rfl⟩ := List.mem_map.mp hx
  exact le_max_right (-c) 0

/-! ## The index -/

/-- How strong gains are against losses, in percent. -/
def strength (gain loss : ℚ) : ℚ := if loss = 0 then 100 else 100 - 100 / (1 + gain / loss)

/-- The relative strength index after some closes, for which there have to be more than `period`. -/
def strength? (period : Nat) (closes : List ℚ) : Option ℚ :=
  if period < closes.length then some (strength (wilder period (gains closes)) (wilder period (losses closes))) else none

/-- **The index is a percentage, and 100 only without losses.** -/
theorem strength_bounds {gain loss : ℚ} (hgain : 0 ≤ gain) (hloss : 0 ≤ loss) :
    0 ≤ strength gain loss ∧ strength gain loss ≤ 100 ∧ (strength gain loss = 100 ↔ loss = 0) := by
  unfold strength
  split
  next hzero => exact ⟨by norm_num, le_refl _, ⟨fun _ => hzero, fun _ => rfl⟩⟩
  next hpos =>
    have hratio : 0 ≤ gain / loss := div_nonneg hgain hloss
    have hdivisor : 1 ≤ 1 + gain / loss := by linarith
    have hpart : 0 < 100 / (1 + gain / loss) := by positivity
    have hwhole : 100 / (1 + gain / loss) ≤ 100 := div_le_self (by norm_num) hdivisor
    refine ⟨by linarith, by linarith, ⟨fun h => ?_, fun h => absurd h hpos⟩⟩
    linarith

/-- As many closes as the period make one change too few. -/
theorem strength?_of_length_le (h : closes.length ≤ period) :
    strength? period closes = none := if_neg (Nat.not_lt.mpr h)

/-- Where there is an index, it is a percentage, and 100 exactly without losses. -/
theorem strength?_bounds (hperiod : 1 ≤ period) {x : ℚ} (h : strength? period closes = some x) :
    0 ≤ x ∧ x ≤ 100 ∧ (x = 100 ↔ wilder period (losses closes) = 0) := by
  obtain ⟨-, hx⟩ := Option.ite_none_right_eq_some.mp h
  obtain rfl := Option.some_inj.mp hx
  exact strength_bounds (wilder_gains_nonneg hperiod) (wilder_losses_nonneg hperiod)

namespace Rsi

/-! ## One step -/

section Step

variable {α : Type} [Arith α]

/-- The averaged gain after a close. -/
def nextGain (s : Rsi α) (previous close : α) : α := s.average s.gain (Arith.max (close - previous) (ofNat 0))

/-- The averaged loss after a close. -/
def nextLoss (s : Rsi α) (previous close : α) : α := s.average s.loss (Arith.max (-(close - previous)) (ofNat 0))

/-- A bar after another one: both averages move, and they are read once there are enough changes. -/
theorem step_of_previous {s : Rsi α} {previous : α} (h : s.previous = some previous) (bar : Bar α) :
    s.step bar =
      (if s.changes + 1 < s.period then .hold
        else levelVote s.overbought s.oversold (index (s.nextGain previous bar.close) (s.nextLoss previous bar.close)),
      { s with
        previous := some bar.close, changes := s.changes + 1
        gain := s.nextGain previous bar.close, loss := s.nextLoss previous bar.close
        reading := if s.changes + 1 < s.period then s.reading
          else some (index (s.nextGain previous bar.close) (s.nextLoss previous bar.close)) }) := by
  unfold step
  rw [h]
  by_cases hfilling : s.changes + 1 < s.period
  · simp only [hfilling, if_true]
    rfl
  · simp only [hfilling, if_false]
    rfl

end Step

variable {s : Rsi ℚ}

/-- In exact arithmetic the index is the formula, since one and a ratio that is not negative is not
zero. -/
theorem index_exact {gain loss : ℚ} (hgain : 0 ≤ gain) (hloss : 0 ≤ loss) :
    @index ℚ (exact byZero root) gain loss = strength gain loss := by
  show (if (loss == 0) = true then 100 else 100 - quotient byZero 100 (1 + quotient byZero gain loss)) = _
  simp only [beq_iff_eq, strength]
  split
  next => rfl
  next hpos =>
    have hdivisor : 0 < 1 + gain / loss := by positivity
    rw [quotient_of_ne hpos, quotient_of_pos hdivisor]

/-- In exact arithmetic an average is filled up and then smoothed, as `wilder` says. -/
theorem average_exact (h : 1 ≤ s.period) (current x : ℚ) :
    @average ℚ (exact byZero root) s current x =
      if s.changes + 1 ≤ s.period then current + x / s.period else (current * (s.period - 1) + x) / s.period := by
  have hpos : (0 : ℚ) < s.period := by exact_mod_cast h
  show (if _ then current + quotient byZero x s.period else quotient byZero (current * (s.period - 1) + x) s.period) = _
  rw [quotient_of_pos hpos, quotient_of_pos hpos]

theorem nextGain_exact (h : 1 ≤ s.period) (previous close : ℚ) :
    @nextGain ℚ (exact byZero root) s previous close =
      if s.changes + 1 ≤ s.period then s.gain + max (close - previous) 0 / s.period
      else (s.gain * (s.period - 1) + max (close - previous) 0) / s.period := by
  rw [← max_exact byZero root]
  exact average_exact h s.gain _

theorem nextLoss_exact (h : 1 ≤ s.period) (previous close : ℚ) :
    @nextLoss ℚ (exact byZero root) s previous close =
      if s.changes + 1 ≤ s.period then s.loss + max (-(close - previous)) 0 / s.period
      else (s.loss * (s.period - 1) + max (-(close - previous)) 0) / s.period := by
  rw [← max_exact byZero root]
  exact average_exact h s.loss _

/-! ## Runs -/

/-- What is known of the indicator after some closes. -/
structure Follows (s : Rsi ℚ) (period : Nat) (closes : List ℚ) : Prop where
  period_eq : s.period = period
  previous : s.previous = closes.getLast?
  changes_eq : s.changes = closes.length - 1
  gain : s.gain = wilder period (gains closes)
  loss : s.loss = wilder period (losses closes)
  reading : s.reading = strength? period closes

/-- Before the first close both averages are empty. -/
theorem follows_start (period : Nat) (overbought oversold : ℚ) :
    (@start ℚ (exact byZero root) period overbought oversold).Follows period [] where
  period_eq := rfl
  previous := rfl
  changes_eq := rfl
  gain := (wilder_nil period).symm
  loss := (wilder_nil period).symm
  reading := (strength?_of_length_le (Nat.zero_le _)).symm

/-- The averages after one close more. -/
theorem Follows.averages (byZero root : ℚ → ℚ) {earlier : List ℚ} {previous : ℚ} (hperiod : 1 ≤ period)
    (h : s.Follows period (earlier ++ [previous])) (close : ℚ) :
    @nextGain ℚ (exact byZero root) s previous close = wilder period (gains (earlier ++ [previous] ++ [close])) ∧
      @nextLoss ℚ (exact byZero root) s previous close = wilder period (losses (earlier ++ [previous] ++ [close])) := by
  obtain ⟨rfl, -, hchanges, hgain, hloss, -⟩ := h
  have hcount : s.changes = (moves (earlier ++ [previous])).length := by rw [hchanges, length_moves]
  have hlast : moves (earlier ++ [previous] ++ [close]) = moves (earlier ++ [previous]) ++ [close - previous] := by
    rw [List.append_assoc]
    exact moves_concat previous close earlier
  constructor
  · rw [nextGain_exact hperiod, gains, hlast, List.map_append, List.map_singleton, wilder_concat, hgain, gains,
      List.length_map, hcount]
  · rw [nextLoss_exact hperiod, losses, hlast, List.map_append, List.map_singleton, wilder_concat, hloss, losses,
      List.length_map, hcount]

theorem Follows.step (hperiod : 1 ≤ period) (h : s.Follows period closes) (bar : Bar ℚ) :
    (@Rsi.step ℚ (exact byZero root) s bar).2.Follows period (closes ++ [bar.close]) := by
  -- the first close moves nothing
  rcases List.eq_nil_or_concat closes with rfl | ⟨earlier, previous, rfl⟩
  · obtain ⟨rfl, hprevious, hchanges, hgain, hloss, hreading⟩ := h
    have hnone : s.previous = none := hprevious
    simp only [Rsi.step, hnone]
    exact ⟨rfl, rfl, hchanges, hgain, hloss,
      hreading.trans ((strength?_of_length_le (Nat.zero_le _)).trans (strength?_of_length_le hperiod).symm)⟩
  · rw [List.concat_eq_append] at *
    obtain ⟨hgain, hloss⟩ := h.averages byZero root hperiod bar.close
    obtain ⟨rfl, hprevious, hchanges, -, -, hreading⟩ := h
    have hsome : s.previous = some previous := hprevious.trans List.getLast?_concat
    have hcount : s.changes = earlier.length := by simpa using hchanges
    have hlength : (earlier ++ [previous] ++ [bar.close]).length = earlier.length + 2 := by simp
    rw [@step_of_previous _ (exact byZero root) _ _ hsome]
    refine ⟨rfl, List.getLast?_concat.symm, ?_, hgain, hloss, ?_⟩
    · show s.changes + 1 = (earlier ++ [previous] ++ [bar.close]).length - 1
      omega
    · show (if s.changes + 1 < s.period then s.reading else some _) = _
      rw [hgain, hloss, index_exact (wilder_gains_nonneg hperiod) (wilder_losses_nonneg hperiod), hreading]
      by_cases hfilling : s.changes + 1 < s.period
      · rw [if_pos hfilling, strength?_of_length_le (by simp; omega), strength?_of_length_le (by omega)]
      · rw [if_neg hfilling, strength?, if_pos (by omega)]

/-- No division by zero takes part in a step. -/
theorem Follows.step_eq (hperiod : 1 ≤ period) (h : s.Follows period closes) (bar : Bar ℚ) :
    @Rsi.step ℚ (exact byZero root) s bar = @Rsi.step ℚ (exact byZero' root) s bar := by
  rcases List.eq_nil_or_concat closes with rfl | ⟨earlier, previous, rfl⟩
  · have hnone : s.previous = none := h.previous
    simp only [Rsi.step, hnone]
  · rw [List.concat_eq_append] at h
    obtain ⟨hgain, hloss⟩ := h.averages byZero root hperiod bar.close
    obtain ⟨hgain', hloss'⟩ := h.averages byZero' root hperiod bar.close
    have hsome : s.previous = some previous := h.previous.trans List.getLast?_concat
    rw [@step_of_previous _ (exact byZero root) _ _ hsome, @step_of_previous _ (exact byZero' root) _ _ hsome, hgain, hgain',
      hloss, hloss', index_exact (wilder_gains_nonneg hperiod) (wilder_losses_nonneg hperiod),
      index_exact (wilder_gains_nonneg hperiod) (wilder_losses_nonneg hperiod)]
    rfl

end Rsi

end BotSpec.Indicator
