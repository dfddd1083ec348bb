import Mathlib.Data.List.Infix
import BotSpec.Indicator.Trend
import BotSpec.Proofs.Indicator.Laws
import BotSpec.Proofs.Strategy.Run

/-!
# Crossovers as formulas

Both crossovers compare two numbers on every bar: the histogram with zero, or the fast average with
the slow one. `Macd.compared?` and `EmaCrossover.compared?` give the two numbers as formulas over
the closes so far, and `crossingVote` votes on them and on those of the bar before. The indicators
compute both step by step:

> `Macd.Follows.replay`, `EmaCrossover.Follows.replay`: after any run the vote is the formula's
> vote.

What an indicator remembers of the bar before is set on every bar, those of the warm-up included.
This is the field `previous` of the invariants; without it the first vote after the warm-up would be
about a bar long gone.
-/

namespace BotSpec.Indicator

open Arith

variable {α : Type} [Arith α]

/-! ## Averages over a history -/

/-- An average moved towards a new number. -/
def blend (weight mean x : α) : α := weight * x + (ofNat 1 - weight) * mean

/-- The exponential average of some numbers: the first one, moved towards each later one. -/
def exponential? (period : Nat) : List α → Option α
  | [] => none
  | x :: xs => some (xs.foldl (blend (ofNat 2 / ofNat (period + 1))) x)

/-- One number more moves the average towards it, and the first number is the average. -/
theorem exponential?_concat (period : Nat) (xs : List α) (x : α) :
    exponential? period (xs ++ [x]) =
      some ((exponential? period xs).elim x fun mean => blend (ofNat 2 / ofNat (period + 1)) mean x) := by
  cases xs with
  | nil => rfl
  | cons first xs =>
    rw [List.cons_append, exponential?, exponential?, List.foldl_append]
    rfl

/-- How far the fast average is above the slow one. -/
def difference? (fast slow : Nat) (xs : List α) : Option α := do
  return (← exponential? fast xs) - (← exponential? slow xs)

/-- The differences after each of some numbers. -/
def differences (fast slow : Nat) (xs : List α) : List α := xs.inits.filterMap (difference? fast slow)

/-- The difference of the averages less the average of the differences. -/
def histogram? (fast slow line : Nat) (xs : List α) : Option α := do
  return (← difference? fast slow xs) - (← exponential? line (differences fast slow xs))

/-- The differences are those before and the newest one, once there is one. -/
theorem differences_concat {fast slow : Nat} {xs : List α} {x d : α}
    (h : difference? fast slow (xs ++ [x]) = some d) :
    differences fast slow (xs ++ [x]) = differences fast slow xs ++ [d] := by
  have hinits : (xs ++ [x]).inits = xs.inits ++ [xs ++ [x]] := by
    rw [List.inits_append]
    rfl
  rw [differences, hinits, List.filterMap_append, List.filterMap_cons_some h, List.filterMap_nil]
  rfl

/-- The average is that of the numbers so far. -/
structure Ema.Follows (e : Ema α) (period : Nat) (xs : List α) : Prop where
  period_eq : e.period = period
  current : e.current = exponential? period xs

namespace Ema

variable {period : Nat} {xs : List α}

/-- An average that is started follows the empty history, and its period is not zero. -/
theorem follows_start {e : Ema α} (h : start? period = some e) : period ≠ 0 ∧ e.Follows period [] := by
  unfold start? at h
  split at h
  next => cases h
  next hne =>
    cases h
    exact ⟨hne, rfl, rfl⟩

/-- One number more: what the average gives is the formula's value, and it follows the longer
history. -/
theorem Follows.next {e : Ema α} (h : e.Follows period xs) (x : α) :
    exponential? period (xs ++ [x]) = some (e.next x).1 ∧ (e.next x).2.Follows period (xs ++ [x]) := by
  obtain ⟨rfl, hcurrent⟩ := h
  have hnext : exponential? e.period (xs ++ [x]) = some (e.next x).1 := by
    rw [exponential?_concat, ← hcurrent, Ema.next]
    cases e.current <;> rfl
  exact ⟨hnext, rfl, hnext.symm⟩

end Ema

/-- The averages of both speeds, and the one over their differences. -/
structure Divergence.Follows (d : Divergence α) (fast slow line : Nat) (xs : List α) : Prop where
  fast_follows : d.fast.Follows fast xs
  slow_follows : d.slow.Follows slow xs
  line_follows : d.line.Follows line (differences fast slow xs)

/-- The same for the histogram, whose three averages are fed one after the other. -/
theorem Divergence.Follows.next {d : Divergence α} {fast slow line : Nat} {xs : List α}
    (h : d.Follows fast slow line xs) (x : α) :
    histogram? fast slow line (xs ++ [x]) = some (d.next x).1 ∧ (d.next x).2.Follows fast slow line (xs ++ [x]) := by
  obtain ⟨hfast, hfast'⟩ := h.fast_follows.next x
  obtain ⟨hslow, hslow'⟩ := h.slow_follows.next x
  have hdifference : difference? fast slow (xs ++ [x]) = some ((d.fast.next x).1 - (d.slow.next x).1) := by
    rw [difference?, hfast, hslow]
    rfl
  obtain ⟨hline, hline'⟩ := h.line_follows.next ((d.fast.next x).1 - (d.slow.next x).1)
  rw [← differences_concat hdifference] at hline hline'
  refine ⟨?_, hfast', hslow', hline'⟩
  rw [histogram?, hdifference, hline]
  rfl

/-! ## Votes on crossings -/

/-- The first number of a pair was not above the second one, and now it is; or the other way around.
-/
def turn (before now : α × α) : Signal :=
  if before.1 ≤ before.2 ∧ now.2 < now.1 then .buy
  else if before.2 ≤ before.1 ∧ now.1 < now.2 then .sell
  else .hold

/-- The vote on the last of some closes, when `compared?` gives the pairs. It looks at the last two
pairs alone. -/
def crossingVote (slow : Nat) (compared? : List α → Option (α × α)) (closes : List α) : Signal :=
  if closes.length ≤ slow then .hold
  else
    match compared? closes.dropLast, compared? closes with
    | some before, some now => turn before now
    | _, _ => .hold

theorem crossingVote_nil (slow : Nat) (compared? : List α → Option (α × α)) :
    crossingVote slow compared? [] = .hold :=
  if_pos (Nat.zero_le _)

/-- Behind the warm-up, and with two numbers on this bar and on the one before, the vote is the turn
between them. -/
theorem crossingVote_concat {slow : Nat} {compared? : List α → Option (α × α)} {closes : List α} {x : α}
    {before now : α × α} (hlong : slow < closes.length + 1) (hbefore : compared? closes = some before)
    (hnow : compared? (closes ++ [x]) = some now) : crossingVote slow compared? (closes ++ [x]) = turn before now := by
  have hlength : ¬ (closes ++ [x]).length ≤ slow := by
    rw [List.length_append, List.length_singleton]
    omega
  rw [crossingVote, if_neg hlength, List.dropLast_concat]
  simp only [hbefore, hnow]

/-- A turn is a buy exactly if the first number was not above the second and is now. -/
theorem turn_eq_buy_iff {before now : α × α} :
    turn before now = .buy ↔ before.1 ≤ before.2 ∧ now.2 < now.1 := by
  unfold turn
  split
  next h => exact ⟨fun _ => h, fun _ => rfl⟩
  next h =>
    refine ⟨fun hbuy => ?_, fun hbuy => absurd hbuy h⟩
    split at hbuy <;> cases hbuy

/-- A pair is not in both orders at once. -/
theorem turn_eq_sell_iff [LawfulArith α] {before now : α × α} :
    turn before now = .sell ↔ before.2 ≤ before.1 ∧ now.1 < now.2 := by
  unfold turn
  constructor
  · intro h
    split at h
    next => cases h
    next =>
      split at h
      next hsell => exact hsell
      next => cases h
  · intro h
    have hbuy : ¬ (before.1 ≤ before.2 ∧ now.2 < now.1) := by
      rintro ⟨-, habove⟩
      exact LawfulArith.lt_irrefl _ (LawfulArith.lt_trans habove h.2)
    rw [if_neg hbuy, if_pos h]

/-! ## Convergence and divergence -/

namespace Macd

/-- The histogram against zero. -/
def compared? (fast slow line : Nat) (closes : List α) : Option (α × α) :=
  (histogram? fast slow line closes).map fun x => (x, ofNat 0)

/-- What is known of the indicator after some closes. -/
structure Follows (s : Macd α) (fast slow line : Nat) (closes : List α) : Prop where
  slow_eq : s.slow = slow
  bars_eq : s.bars = closes.length
  divergence : s.divergence.Follows fast slow line closes
  previous : closes ≠ [] → compared? fast slow line closes = some (s.previous, ofNat 0)

variable {fast slow line : Nat}

/-- An indicator that is started follows the empty history, and its slow period is not zero. -/
theorem follows_start {s : Macd α} (h : start? fast slow line = some s) :
    slow ≠ 0 ∧ s.Follows fast slow line [] := by
  obtain ⟨d, hd, rfl⟩ := Option.map_eq_some_iff.mp h
  simp only [Divergence.start?, Option.bind_eq_bind, Option.bind_eq_some_iff] at hd
  obtain ⟨f, hf, l, hl, m, hm, heq⟩ := hd
  cases heq
  have hslow := Ema.follows_start hl
  exact ⟨hslow.1, rfl, rfl, ⟨(Ema.follows_start hf).2, hslow.2, (Ema.follows_start hm).2⟩, fun hne => absurd rfl hne⟩

theorem Follows.step {s : Macd α} {closes : List α} (h : s.Follows fast slow line closes) (hslow : slow ≠ 0)
    (bar : Bar α) :
    (s.step bar).1 = crossingVote slow (compared? fast slow line) (closes ++ [bar.close]) ∧
      (s.step bar).2.Follows fast slow line (closes ++ [bar.close]) := by
  obtain ⟨rfl, hbars, hdivergence, hprevious⟩ := h
  obtain ⟨hhistogram, hdivergence'⟩ := hdivergence.next bar.close
  have hnow : compared? fast s.slow line (closes ++ [bar.close]) = some ((s.divergence.next bar.close).1, ofNat 0) := by
    rw [compared?, hhistogram]
    rfl
  have hlength : (closes ++ [bar.close]).length = s.bars + 1 := by
    rw [List.length_append, List.length_singleton, hbars]
  refine ⟨?_, rfl, hlength.symm, hdivergence', fun _ => hnow⟩
  by_cases hwarm : s.bars + 1 ≤ s.slow
  · -- the warm-up is not over
    have hcold : decide (s.bars + 1 > s.slow) = false := decide_eq_false (Nat.not_lt.mpr hwarm)
    rw [crossingVote, if_pos (hlength.trans_le hwarm)]
    simp only [Macd.step, hcold, Bool.false_eq_true, false_and, if_false]
  · have hne : closes ≠ [] := by
      rintro rfl
      rw [hbars] at hwarm
      exact hwarm (Nat.one_le_iff_ne_zero.mpr hslow)
    have hhot : decide (s.bars + 1 > s.slow) = true := decide_eq_true (Nat.lt_of_not_le hwarm)
    rw [crossingVote_concat (by omega) (hprevious hne) hnow]
    simp only [Macd.step, turn, hhot, true_and]

/-- **The indicator votes on crossings of its formula.** -/
theorem Follows.replay {s : Macd α} (h : s.Follows fast slow line []) (hslow : slow ≠ 0)
    (bars : List (Bar α)) :
    (replay Macd.step s bars).1 = crossingVote slow (compared? fast slow line) (bars.map Bar.close) ∧
      (replay Macd.step s bars).2.Follows fast slow line (bars.map Bar.close) := by
  refine replay_follows (F := fun t bars => Follows t fast slow line (bars.map Bar.close))
    (V := fun bars => crossingVote slow (compared? fast slow line) (bars.map Bar.close)) (Q := fun _ => True)
    (crossingVote_nil _ _) ?_ h fun _ _ => trivial
  intro s bars bar hs _
  rw [List.map_append, List.map_singleton]
  exact hs.step hslow bar

end Macd

/-! ## Two averages -/

namespace EmaCrossover

/-- The fast average against the slow one. -/
def compared? (fast slow : Nat) (closes : List α) : Option (α × α) := do
  return (← exponential? fast closes, ← exponential? slow closes)

/-- What is known of the indicator after some closes. -/
structure Follows (s : EmaCrossover α) (fast slow : Nat) (closes : List α) : Prop where
  slow_eq : s.slowPeriod = slow
  bars_eq : s.bars = closes.length
  fast_follows : s.fast.Follows fast closes
  slow_follows : s.slow.Follows slow closes
  previous : closes ≠ [] → compared? fast slow closes = some (s.previousFast, s.previousSlow)

variable {fast slow : Nat}

/-- An indicator that is started follows the empty history, and its slow period is not zero. -/
theorem follows_start {s : EmaCrossover α} (h : start? fast slow = some s) :
    slow ≠ 0 ∧ s.Follows fast slow [] := by
  simp only [start?, Option.bind_eq_bind, Option.bind_eq_some_iff] at h
  obtain ⟨f, hf, l, hl, heq⟩ := h
  cases heq
  have hslow := Ema.follows_start hl
  exact ⟨hslow.1, rfl, rfl, (Ema.follows_start hf).2, hslow.2, fun hne => absurd rfl hne⟩

theorem Follows.step {s : EmaCrossover α} {closes : List α} (h : s.Follows fast slow closes) (hslow : slow ≠ 0)
    (bar : Bar α) :
    (s.step bar).1 = crossingVote slow (compared? fast slow) (closes ++ [bar.close]) ∧
      (s.step bar).2.Follows fast slow (closes ++ [bar.close]) := by
  obtain ⟨rfl, hbars, hfast, hslow', hprevious⟩ := h
  obtain ⟨hfastNow, hfastNext⟩ := hfast.next bar.close
  obtain ⟨hslowNow, hslowNext⟩ := hslow'.next bar.close
  have hnow : compared? fast s.slowPeriod (closes ++ [bar.close])
      = some ((s.fast.next bar.close).1, (s.slow.next bar.close).1) := by
    rw [compared?, hfastNow, hslowNow]
    rfl
  have hlength : (closes ++ [bar.close]).length = s.bars + 1 := by
    rw [List.length_append, List.length_singleton, hbars]
  refine ⟨?_, rfl, hlength.symm, hfastNext, hslowNext, fun _ => hnow⟩
  by_cases hwarm : s.bars + 1 ≤ s.slowPeriod
  · rw [crossingVote, if_pos (hlength.trans_le hwarm)]
    exact if_pos hwarm
  · have hne : closes ≠ [] := by
      rintro rfl
      rw [hbars] at hwarm
      exact hwarm (Nat.one_le_iff_ne_zero.mpr hslow)
    rw [crossingVote_concat (by omega) (hprevious hne) hnow]
    exact if_neg hwarm

/-- **The indicator votes on crossings of its formula.** -/
theorem Follows.replay {s : EmaCrossover α} (h : s.Follows fast slow []) (hslow : slow ≠ 0)
    (bars : List (Bar α)) :
    (replay EmaCrossover.step s bars).1 = crossingVote slow (compared? fast slow) (bars.map Bar.close) ∧
      (replay EmaCrossover.step s bars).2.Follows fast slow (bars.map Bar.close) := by
  refine replay_follows (F := fun t bars => Follows t fast slow (bars.map Bar.close))
    (V := fun bars => crossingVote slow (compared? fast slow) (bars.map Bar.close)) (Q := fun _ => True)
    (crossingVote_nil _ _) ?_ h fun _ _ => trivial
  intro s bars bar hs _
  rw [List.map_append, List.map_singleton]
  exact hs.step hslow bar

end EmaCrossover

end BotSpec.Indicator
