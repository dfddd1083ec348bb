import BotSpec.Indicator.Oscillator
import BotSpec.Proofs.Indicator.Extremum

/-!
# The range of the last bars

The oscillators look at the range of the last bars, from the lowest low to the highest high.
`range?` is this range as a formula over the history; it is undefined for a history shorter than the
period and for a range without width. The two rings of an oscillator follow it (`Tracks`), whatever
their places are:

> `Tracks.range?_eq`: the outcomes of the two rings have a width exactly if the range is defined,
> and then they are its ends.
-/

namespace BotSpec.Indicator

open Arith

variable {α : Type} [Arith α]

/-- Highs and lows that can be compared. -/
def IsPriced (bar : Bar α) : Prop := IsNumber bar.high ∧ IsNumber bar.low

/-- The highest high and the lowest low of the last bars, if there are enough of them and the two
differ. -/
def range? (period : Nat) (bars : List (Bar α)) : Option (α × α) := do
  if bars.length < period then none
  let highest ← Side.highest.extreme? ((bars.rtake period).map Bar.high)
  let lowest ← Side.lowest.extreme? ((bars.rtake period).map Bar.low)
  if highest == lowest then none else some (highest, lowest)

theorem range?_nil (period : Nat) : range? period ([] : List (Bar α)) = none := by
  simp [range?, List.rtake_nil, Side.extreme?]

/-- Bars before the last ones have no part in the range. -/
theorem range?_append {period : Nat} {bars : List (Bar α)} (h : period ≤ bars.length)
    (older : List (Bar α)) : range? period (older ++ bars) = range? period bars := by
  have hlong : ¬ older.length + bars.length < period := by omega
  have hlong' : ¬ bars.length < period := by omega
  simp only [range?, rtake_append h, List.length_append, if_neg hlong, if_neg hlong']

/-- Two rings that hold the highs and the lows of the last bars. -/
structure Tracks (highest lowest : Extremum α) (period : Nat) (bars : List (Bar α)) : Prop where
  highest_side : highest.side = .highest
  lowest_side : lowest.side = .lowest
  highest_length : highest.slots.length = period
  lowest_length : lowest.slots.length = period
  highest_holds : highest.Holds (bars.map Bar.high)
  lowest_holds : lowest.Holds (bars.map Bar.low)

namespace Tracks

variable {highest lowest : Extremum α} {period : Nat} {bars : List (Bar α)}

/-- Fresh rings track the empty history. -/
theorem start (h : period ≠ 0) :
    Tracks (Extremum.start .highest period : Extremum α) (Extremum.start .lowest period) period [] where
  highest_side := rfl
  lowest_side := rfl
  highest_length := List.length_replicate
  lowest_length := List.length_replicate
  highest_holds := Extremum.holds_start _ h
  lowest_holds := Extremum.holds_start _ h

theorem reset (h : Tracks highest lowest period bars) :
    Tracks highest.reset lowest.reset period [] where
  highest_side := h.highest_side
  lowest_side := h.lowest_side
  highest_length := List.length_replicate.trans h.highest_length
  lowest_length := List.length_replicate.trans h.lowest_length
  highest_holds := Extremum.holds_reset h.highest_holds.valid
  lowest_holds := Extremum.holds_reset h.lowest_holds.valid

variable [LawfulArith α]

/-- A bar puts its high into one ring and its low into the other. -/
theorem next (h : Tracks highest lowest period bars) (bar : Bar α) :
    Tracks (highest.next bar.high).2 (lowest.next bar.low).2 period (bars ++ [bar]) where
  highest_side := (highest.side_next _).trans h.highest_side
  lowest_side := (lowest.side_next _).trans h.lowest_side
  highest_length := (highest.length_slots_next _).trans h.highest_length
  lowest_length := (lowest.length_slots_next _).trans h.lowest_length
  highest_holds := by
    rw [List.map_append, List.map_singleton]
    exact h.highest_holds.next _
  lowest_holds := by
    rw [List.map_append, List.map_singleton]
    exact h.lowest_holds.next _

/-- The outcomes of the rings against the range of the last bars. -/
theorem range?_eq (h : Tracks highest lowest period bars) {bar : Bar α}
    (hbars : ∀ b ∈ bars ++ [bar], IsPriced b) :
    (range? period (bars ++ [bar]) = none ∧
      (bars.length + 1 < period ∨ ((highest.next bar.high).1 == (lowest.next bar.low).1) = true)) ∨
    ∃ hh ll, range? period (bars ++ [bar]) = some (hh, ll) ∧
      ¬ (bars.length + 1 < period ∨ ((highest.next bar.high).1 == (lowest.next bar.low).1) = true) ∧
      Same (highest.next bar.high).1 hh ∧ Same (lowest.next bar.low).1 ll := by
  -- each ring has an extreme that compares like that of the last bars
  obtain ⟨hh, hhighest, hsame⟩ := h.highest_holds.next_same (by
    intro y hy
    rw [← List.map_singleton, ← List.map_append] at hy
    obtain ⟨b, hb, rfl⟩ := List.mem_map.mp hy
    exact (hbars b hb).1)
  obtain ⟨ll, hlowest, hsame'⟩ := h.lowest_holds.next_same (by
    intro y hy
    rw [← List.map_singleton, ← List.map_append] at hy
    obtain ⟨b, hb, rfl⟩ := List.mem_map.mp hy
    exact (hbars b hb).2)
  rw [h.highest_side, h.highest_length, ← List.map_singleton, ← List.map_append, rtake_map] at hhighest
  rw [h.lowest_side, h.lowest_length, ← List.map_singleton, ← List.map_append, rtake_map] at hlowest
  have hrange : range? period (bars ++ [bar])
      = if bars.length + 1 < period ∨ (hh == ll) = true then none else some (hh, ll) := by
    simp only [range?, List.length_append, List.length_singleton, hhighest, hlowest]
    by_cases hshort : bars.length + 1 < period
    · simp [hshort]
    · by_cases hflat : (hh == ll) = true
      · simp [hshort, hflat]
      · simp [hshort, hflat]
  -- so both ask the same question: too few bars, or no width
  rw [hsame.beq_eq hsame', hrange]
  by_cases hnone : bars.length + 1 < period ∨ (hh == ll) = true
  · left
    exact ⟨if_pos hnone, hnone⟩
  · right
    exact ⟨hh, ll, if_neg hnone, hnone, hsame, hsame'⟩

end Tracks

end BotSpec.Indicator
