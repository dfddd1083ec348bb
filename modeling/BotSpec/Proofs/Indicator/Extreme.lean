import BotSpec.Indicator.Extremum
import BotSpec.Proofs.Indicator.Laws

/-!
# The more extreme of two numbers

An extreme is what nothing beats. `Side.beats` is a strict order, on numbers a total one up to
equality, so a fold that keeps the better of two ends with an extreme:

> `extreme?_eq_some`: the extreme of a list is in the list, and nothing in the list beats it.

Two extremes of the same numbers need not be identical, as there are two zeros, but they are the
same number (`same_of_not_beats`). Slots are ordered like numbers, with the empty slot below all of
them.
-/

namespace BotSpec.Indicator

open Arith

variable {α : Type} [Arith α]

/-! ## Extremes of lists -/

/-- The first of the most extreme numbers. -/
def Side.extreme? (side : Side) : List α → Option α
  | [] => none
  | x :: xs => some (xs.foldl (fun best x => if side.beats x best then x else best) x)

namespace Side

variable [LawfulArith α] (side : Side)

theorem beats_irrefl (a : α) : side.beats a a = false := by
  cases side <;> exact decide_eq_false (LawfulArith.lt_irrefl a)

/-- What beats a better one beats the worse one. -/
theorem beats_trans {a b c : α} (hab : side.beats a b = true) (hbc : side.beats b c = true) :
    side.beats a c = true := by
  cases side with
  | highest =>
    exact decide_eq_true (LawfulArith.lt_trans (of_decide_eq_true hbc) (of_decide_eq_true hab))
  | lowest =>
    exact decide_eq_true (LawfulArith.lt_trans (of_decide_eq_true hab) (of_decide_eq_true hbc))

/-- Of two numbers one at most beats the other. -/
theorem not_beats_of_beats {a b : α} (h : side.beats a b = true) : side.beats b a = false := by
  rw [Bool.eq_false_iff]
  intro hba
  exact Bool.eq_false_iff.mp (beats_irrefl side a) (beats_trans side h hba)

/-- Two numbers of which neither beats the other are the same. -/
theorem same_of_not_beats {a b : α} (ha : IsNumber a) (hb : IsNumber b)
    (hab : side.beats a b = false) (hba : side.beats b a = false) : Same a b := by
  right
  cases side with
  | highest =>
    exact LawfulArith.beq_of_not_lt ha hb (of_decide_eq_false hba) (of_decide_eq_false hab)
  | lowest =>
    exact LawfulArith.beq_of_not_lt ha hb (of_decide_eq_false hab) (of_decide_eq_false hba)

/-- What a fold that keeps the better one ends with: a value it has seen, which nothing it has seen
beats. -/
private theorem foldl_better (xs : List α) :
    ∀ first : α,
      let m := xs.foldl (fun best x => if side.beats x best then x else best) first
      (m = first ∨ m ∈ xs) ∧ (m = first ∨ side.beats m first = true) ∧
        ∀ x ∈ xs, side.beats x m = false := by
  -- the start is what a step may change, so the induction is for every start
  induction xs with
  | nil =>
    intro first
    exact ⟨Or.inl rfl, Or.inl rfl, fun x h => nomatch h⟩
  | cons x xs ih =>
    intro first
    rw [List.foldl_cons]
    by_cases hx : side.beats x first = true
    · rw [if_pos hx]
      obtain ⟨hmem, hbest, hall⟩ := ih x
      refine ⟨?_, ?_, ?_⟩
      · right
        rcases hmem with heq | hmem
        · rw [heq]
          exact List.mem_cons_self
        · exact List.mem_cons_of_mem _ hmem
      · right
        rcases hbest with heq | hbest
        · rw [heq]
          exact hx
        · exact beats_trans side hbest hx
      · intro y hy
        rcases List.mem_cons.mp hy with rfl | hy
        · rcases hbest with heq | hbest
          · rw [heq]
            exact beats_irrefl side _
          · exact not_beats_of_beats side hbest
        · exact hall y hy
    · rw [if_neg hx]
      obtain ⟨hmem, hbest, hall⟩ := ih first
      refine ⟨hmem.imp id (List.mem_cons_of_mem _), hbest, ?_⟩
      intro y hy
      rcases List.mem_cons.mp hy with rfl | hy
      · rw [Bool.eq_false_iff]
        intro hcon
        rcases hbest with heq | hbest
        · rw [heq] at hcon
          exact hx hcon
        · exact hx (beats_trans side hcon hbest)
      · exact hall y hy

/-- The extreme of a list is in the list, and nothing in the list beats it. -/
theorem extreme?_eq_some {xs : List α} {m : α} (h : side.extreme? xs = some m) :
    m ∈ xs ∧ ∀ x ∈ xs, side.beats x m = false := by
  cases xs with
  | nil => cases h
  | cons first xs =>
    obtain ⟨hmem, hbest, hall⟩ := foldl_better side xs first
    cases h
    refine ⟨List.mem_cons.mpr hmem, ?_⟩
    intro x hx
    rcases List.mem_cons.mp hx with rfl | hx
    · rcases hbest with heq | hbest
      · rw [heq]
        exact beats_irrefl side _
      · exact not_beats_of_beats side hbest
    · exact hall x hx

/-! ## Slots -/

theorem slotBeats_irrefl (s : Option α) : side.slotBeats s s = false := by
  cases s with
  | none => rfl
  | some a => exact beats_irrefl side a

/-- Beating is transitive on slots as on numbers, with empty slots below all numbers. -/
theorem slotBeats_trans {s t u : Option α} (hst : side.slotBeats s t = true)
    (htu : side.slotBeats t u = true) : side.slotBeats s u = true := by
  cases s with
  | none => cases hst
  | some a =>
    cases u with
    | none => rfl
    | some c =>
      cases t with
      | none => cases htu
      | some b => exact beats_trans side hst htu

theorem not_slotBeats_of_slotBeats {s t : Option α} (h : side.slotBeats s t = true) :
    side.slotBeats t s = false := by
  rw [Bool.eq_false_iff]
  intro hts
  exact Bool.eq_false_iff.mp (slotBeats_irrefl side s) (slotBeats_trans side h hts)

/-- What loses against a slot that another one beats, loses against the other one. -/
theorem not_slotBeats_of_not_slotBeats {s t u : Option α} (hst : side.slotBeats s t = false)
    (hut : side.slotBeats u t = true) : side.slotBeats s u = false := by
  rw [Bool.eq_false_iff]
  intro hsu
  exact Bool.eq_false_iff.mp hst (slotBeats_trans side hsu hut)

end Side

end BotSpec.Indicator
