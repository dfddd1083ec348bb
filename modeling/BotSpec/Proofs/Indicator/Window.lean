import Mathlib.Data.List.DropRight
import Mathlib.Data.List.ReduceOption
import BotSpec.Indicator.Average

/-!
# Windows

The end of a history is what an indicator keeps of it. `xs.rtake size` is the last `size` elements
of `xs`, or all of them while there are fewer. A window that is pushed along a history is the end of
the history (`pushWindow_rtake`).
-/

namespace BotSpec.Indicator

variable {β : Type}

/-- Where the history fills the window, one element more drops the oldest one. -/
theorem drop_one_rtake_concat {size : Nat} {xs : List β} (h : size ≤ xs.length) (x : β) :
    (xs.rtake size ++ [x]).drop 1 = (xs ++ [x]).rtake size := by
  have hstart : xs.length + 1 - size = xs.length - size + 1 := by omega
  rw [List.rtake, List.rtake, List.length_append, List.length_singleton, hstart, ← List.drop_drop,
    List.drop_append_of_le_length (Nat.sub_le _ _)]

/-- While the window is not full, it is the history. -/
theorem rtake_eq_self {size : Nat} {xs : List β} (h : xs.length ≤ size) : xs.rtake size = xs := by
  rw [List.rtake, Nat.sub_eq_zero_of_le h, List.drop_zero]

/-- The last so many of a list are that many, or all. -/
theorem length_rtake (size : Nat) (xs : List β) : (xs.rtake size).length = min size xs.length := by
  rw [List.rtake, List.length_drop]
  omega

/-- A window pushed along a history is the end of the history. -/
theorem pushWindow_rtake (size : Nat) (xs : List β) (x : β) :
    pushWindow size (xs.rtake size) x = (xs ++ [x]).rtake size := by
  simp only [pushWindow, List.length_append, List.length_singleton, length_rtake]
  by_cases h : size ≤ xs.length
  · rw [if_pos (by omega)]
    exact drop_one_rtake_concat h x
  · rw [if_neg (by omega), rtake_eq_self (by omega), rtake_eq_self]
    rw [List.length_append, List.length_singleton]
    omega

/-- Elements of the window are elements of the history. -/
theorem mem_of_mem_rtake {size : Nat} {xs : List β} {x : β} (h : x ∈ xs.rtake size) : x ∈ xs :=
  List.mem_of_mem_drop h

theorem rtake_map {γ : Type} (f : β → γ) (size : Nat) (xs : List β) :
    (xs.map f).rtake size = (xs.rtake size).map f := by
  rw [List.rtake, List.rtake, List.length_map, List.map_drop]

/-- The end of a history with empty slots in front, without the empty slots. -/
theorem reduceOption_rtake {size : Nat} (xs : List β) :
    ((List.replicate size none ++ xs.map some).rtake size).reduceOption = xs.rtake size := by
  have hstart : (List.replicate size none ++ xs.map some).length - size = xs.length := by
    rw [List.length_append, List.length_replicate, List.length_map]
    omega
  rw [List.rtake, hstart, List.drop_append, List.reduceOption_append, List.drop_replicate,
    List.reduceOption_replicate_none, List.nil_append, List.length_replicate, ← List.map_drop,
    List.reduceOption, List.filterMap_map]
  exact List.filterMap_some

/-- A long enough history that ends in the window ends in it whatever comes before. -/
theorem rtake_append {size : Nat} {xs ys : List β} (h : size ≤ ys.length) :
    (xs ++ ys).rtake size = ys.rtake size := by
  rw [List.rtake, List.rtake, List.length_append, List.drop_append, List.drop_of_length_le (by omega),
    List.nil_append]
  congr 1
  omega

end BotSpec.Indicator
