import BotSpec.Indicator.Volume
import BotSpec.Proofs.Indicator.Laws
import BotSpec.Proofs.Indicator.Window
import BotSpec.Proofs.Strategy.Run

/-!
# The volume-weighted average price as a formula

`vwap?` weighs the typical prices of the last bars with their volumes, and is undefined where these
bars are too few or have no volume. The indicator pushes a window along the bars and sums it up on
each:

> `Vwap.Follows.replay`: after any run the reading is the formula's value, and the vote is the
> formula's vote.

Here no number is compared but the sum of the volumes, so the reading is identical to the formula's
value. A reading that is left from an earlier bar is never seen: while the window fills there is
none, and afterwards each bar sets it.
-/

namespace BotSpec.Indicator

open Arith

variable {α : Type} [Arith α]

/-- A sum over bars in their order. -/
def total (f : Bar α → α) (bars : List (Bar α)) : α := bars.foldl (fun t bar => t + f bar) (ofNat 0)

/-- The typical price of the last bars, weighted with their volume. -/
def vwap? (period : Nat) (bars : List (Bar α)) : Option α :=
  let window := bars.rtake period
  if period ≤ bars.length ∧ ofNat 0 < total Bar.volume window then
    some (total (fun bar => Vwap.typicalPrice bar * bar.volume) window / total Bar.volume window)
  else none

/-- The vote on a close against an average. -/
def averageVote (average close : α) : Signal :=
  if close < average then .buy else if average < close then .sell else .hold

/-- The vote on the last close. -/
def vwapVote (period : Nat) (bars : List (Bar α)) : Signal :=
  match vwap? period bars, bars.getLast? with
  | some x, some bar => averageVote x bar.close
  | _, _ => .hold

/-- Fewer bars than the period have no average. -/
theorem vwap?_of_length_lt {period : Nat} {bars : List (Bar α)} (h : bars.length < period) :
    vwap? period bars = none :=
  if_neg fun hcon => Nat.not_le_of_lt h hcon.1

/-- Bars before the last ones have no part in the average. -/
theorem vwap?_append {period : Nat} {bars : List (Bar α)} (h : period ≤ bars.length)
    (older : List (Bar α)) : vwap? period (older ++ bars) = vwap? period bars := by
  have hlong : period ≤ (older ++ bars).length := by
    rw [List.length_append]
    omega
  simp only [vwap?, rtake_append h, h, hlong, true_and]

/-- A buy needs an average, and a close below it. -/
theorem vwapVote_eq_buy_iff {period : Nat} {bars : List (Bar α)} :
    vwapVote period bars = .buy ↔
      ∃ x bar, vwap? period bars = some x ∧ bars.getLast? = some bar ∧ bar.close < x := by
  unfold vwapVote
  cases vwap? period bars with
  | none => simp
  | some x =>
    cases bars.getLast? with
    | none => simp
    | some bar =>
      simp only [averageVote]
      by_cases hbelow : bar.close < x
      · simp [hbelow]
      · by_cases habove : x < bar.close <;> simp [hbelow, habove]

/-- A close is on one side of the average only. -/
theorem vwapVote_eq_sell_iff [LawfulArith α] {period : Nat} {bars : List (Bar α)} :
    vwapVote period bars = .sell ↔
      ∃ x bar, vwap? period bars = some x ∧ bars.getLast? = some bar ∧ x < bar.close := by
  unfold vwapVote
  cases vwap? period bars with
  | none => simp
  | some x =>
    cases bars.getLast? with
    | none => simp
    | some bar =>
      simp only [averageVote]
      by_cases habove : x < bar.close
      · have hbelow : ¬ bar.close < x := by
          intro hbelow
          exact LawfulArith.lt_irrefl _ (LawfulArith.lt_trans hbelow habove)
        simp [hbelow, habove]
      · by_cases hbelow : bar.close < x <;> simp [hbelow, habove]

namespace Vwap

/-- What the window keeps of a bar. -/
def weighted (bar : Bar α) : α × α := (typicalPrice bar * bar.volume, bar.volume)

theorem totals_map (bars : List (Bar α)) :
    totals (bars.map weighted)
      = (total (fun bar => typicalPrice bar * bar.volume) bars, total Bar.volume bars) := by
  have hfold : ∀ (bars : List (Bar α)) (t : α × α),
      (bars.map weighted).foldl (fun t x => (t.1 + x.1, t.2 + x.2)) t
        = (bars.foldl (fun t bar => t + typicalPrice bar * bar.volume) t.1,
          bars.foldl (fun t bar => t + bar.volume) t.2) := by
    intro bars
    induction bars with
    | nil => intro t; rfl
    | cons bar bars ih =>
      intro t
      rw [List.map_cons, List.foldl_cons, ih]
      rfl
  exact hfold bars (ofNat 0, ofNat 0)

variable [LawfulArith α]

/-- A sum of values that can be added is a number. -/
theorem isNumber_total {bars : List (Bar α)} (h : ∀ bar ∈ bars, IsAddable bar.volume) :
    IsNumber (total Bar.volume bars) := by
  have hfold : ∀ (bars : List (Bar α)) (t : α), (∀ bar ∈ bars, IsAddable bar.volume) → IsNumber t →
      IsNumber (bars.foldl (fun t bar => t + bar.volume) t) := by
    intro bars
    induction bars with
    | nil => intro t _ ht; exact ht
    | cons bar bars ih =>
      intro t hbars ht
      rw [List.foldl_cons]
      exact ih _ (fun b hb => hbars b (List.mem_cons_of_mem _ hb)) (hbars bar List.mem_cons_self t ht)
  exact hfold bars _ h LawfulArith.isNumber_zero

/-- What is known of the indicator after some bars. -/
structure Follows (s : Vwap α) (period : Nat) (bars : List (Bar α)) : Prop where
  period_eq : s.period = period
  window_eq : s.window = (bars.map weighted).rtake period
  reading : s.reading = vwap? period bars

omit [LawfulArith α] in
/-- A fresh window is that of the empty history. -/
theorem follows_start {period : Nat} (h : period ≠ 0) : (start period : Vwap α).Follows period [] where
  period_eq := rfl
  window_eq := (List.rtake_nil _).symm
  reading := (vwap?_of_length_lt (Nat.pos_of_ne_zero h)).symm

theorem Follows.step {s : Vwap α} {period : Nat} {bars : List (Bar α)} (h : s.Follows period bars)
    {bar : Bar α} (hbars : ∀ b ∈ bars ++ [bar], IsAddable b.volume) :
    (s.step bar).1 = vwapVote period (bars ++ [bar]) ∧
      (s.step bar).2.Follows period (bars ++ [bar]) := by
  obtain ⟨hperiod, hwindow, hreading⟩ := h
  have hpush : pushWindow period s.window (typicalPrice bar * bar.volume, bar.volume)
      = ((bars ++ [bar]).map weighted).rtake period := by
    rw [hwindow, List.map_append, List.map_singleton]
    exact pushWindow_rtake period (bars.map weighted) (weighted bar)
  have hlength : (((bars ++ [bar]).map weighted).rtake period).length
      = min period (bars ++ [bar]).length := by
    rw [length_rtake, List.length_map]
  have hlast : (bars ++ [bar]).getLast? = some bar := List.getLast?_concat
  simp only [Vwap.step, hperiod, hpush, hlength]
  -- the window is still filling, or it is full and has been sold in, or it is full and has not
  by_cases hshort : (bars ++ [bar]).length < period
  · have hmin : min period (bars ++ [bar]).length < period := lt_of_le_of_lt (min_le_right _ _) hshort
    have hbefore : bars.length < period := by
      rw [List.length_append] at hshort
      omega
    have hnone := vwap?_of_length_lt hshort
    rw [if_pos hmin]
    refine ⟨by simp only [vwapVote, hnone], rfl, rfl, ?_⟩
    rw [hnone, ← vwap?_of_length_lt hbefore]
    exact hreading
  · have hmin : ¬ min period (bars ++ [bar]).length < period := by omega
    have hnumber : IsNumber (total Bar.volume ((bars ++ [bar]).rtake period)) :=
      isNumber_total fun b hb => hbars b (mem_of_mem_rtake hb)
    have hsold := LawfulArith.le_iff_not_lt hnumber LawfulArith.isNumber_zero
    rw [if_neg hmin, rtake_map, totals_map]
    by_cases hpositive : ofNat 0 < total Bar.volume ((bars ++ [bar]).rtake period)
    · have hsome : vwap? period (bars ++ [bar])
          = some (total (fun b => typicalPrice b * b.volume) ((bars ++ [bar]).rtake period)
            / total Bar.volume ((bars ++ [bar]).rtake period)) :=
        if_pos ⟨Nat.le_of_not_lt hshort, hpositive⟩
      simp only [if_neg fun hle => hsold.mp hle hpositive]
      refine ⟨?_, rfl, (rtake_map _ _ _).symm, hsome.symm⟩
      simp only [vwapVote, hsome, hlast]
      rfl
    · have hnone : vwap? period (bars ++ [bar]) = none := if_neg fun hcon => hpositive hcon.2
      simp only [if_pos (hsold.mpr hpositive)]
      exact ⟨by simp only [vwapVote, hnone], rfl, (rtake_map _ _ _).symm, hnone.symm⟩

/-- **The volume-weighted average price is its formula.** -/
theorem Follows.replay {s : Vwap α} {period : Nat} (h : s.Follows period []) (hperiod : period ≠ 0)
    {bars : List (Bar α)} (hbars : ∀ b ∈ bars, IsAddable b.volume) :
    (replay Vwap.step s bars).1 = vwapVote period bars ∧
      (replay Vwap.step s bars).2.Follows period bars := by
  refine replay_follows (F := fun t bars => Follows t period bars) (V := vwapVote period) ?_ ?_ h hbars
  · rw [vwapVote, vwap?_of_length_lt (Nat.pos_of_ne_zero hperiod)]
  · intro s bars bar hs hbars
    exact hs.step hbars

end Vwap

end BotSpec.Indicator
