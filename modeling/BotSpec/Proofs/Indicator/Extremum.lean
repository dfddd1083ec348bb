import BotSpec.Proofs.Indicator.Extreme
import BotSpec.Proofs.Indicator.Window

/-!
# The extreme of the last numbers

`Extremum` keeps the last numbers in a ring, remembers the place of their extreme and searches for
it again only when that slot is overwritten. Here is what it computes: the extreme of the last
numbers, whatever came before them.

Two invariants carry this. `Leads`: no slot is more extreme than the one at the remembered place,
which a search establishes (`search_leads`) and a step keeps. `Holds e xs`: the ring in the order of
its numbers, oldest first, is the end of `xs`, with empty slots in front while there are too few of
them. Together:

> `next_same`: the outcome of a step is the same number as the extreme of the last numbers.

The same number, not an identical one: of two zeros with different signs the places decide which is
kept. For this reason alone the outcome depends on more than the last numbers. A reset keeps both
places, and `Holds e.reset []` is all that is left to say of it: what the places were is forgotten
with the first number.
-/

namespace BotSpec.Indicator

open Arith

variable {α : Type} [Arith α]

namespace Extremum

/-! ## The search -/

/-- A search ends at the slot it began with or at one it has passed, and no slot it has passed beats
that one. -/
theorem search_spec [LawfulArith α] (side : Side) (rest : List (Option α)) :
    ∀ (place bestPlace : Nat) (best : Option α), ∃ s,
      (search side place bestPlace best rest = bestPlace ∧ s = best ∨
        ∃ i, search side place bestPlace best rest = place + i ∧ rest[i]? = some s) ∧
      (s = best ∨ side.slotBeats s best = true) ∧ ∀ t ∈ rest, side.slotBeats t s = false := by
  -- the slots behind are searched with the best one so far, so it is left open in the induction
  induction rest with
  | nil =>
    intro place bestPlace best
    exact ⟨best, Or.inl ⟨rfl, rfl⟩, Or.inl rfl, fun t h => nomatch h⟩
  | cons r rest ih =>
    intro place bestPlace best
    rw [search]
    by_cases hr : side.slotBeats r best = true
    · rw [if_pos hr]
      obtain ⟨s, hplace, hbest, hall⟩ := ih (place + 1) place r
      have hsr : side.slotBeats r s = false := by
        rcases hbest with rfl | hbest
        · exact side.slotBeats_irrefl s
        · exact side.not_slotBeats_of_slotBeats hbest
      refine ⟨s, ?_, ?_, ?_⟩
      · right
        rcases hplace with ⟨heq, rfl⟩ | ⟨i, heq, hi⟩
        · exact ⟨0, heq, rfl⟩
        · exact ⟨i + 1, by rw [heq]; omega, hi⟩
      · right
        rcases hbest with rfl | hbest
        · exact hr
        · exact side.slotBeats_trans hbest hr
      · intro t ht
        rcases List.mem_cons.mp ht with rfl | ht
        · exact hsr
        · exact hall t ht
    · rw [if_neg hr]
      obtain ⟨s, hplace, hbest, hall⟩ := ih (place + 1) bestPlace best
      have hsr : side.slotBeats r s = false := by
        rcases hbest with rfl | hbest
        · exact Bool.eq_false_iff.mpr hr
        · exact side.not_slotBeats_of_not_slotBeats (Bool.eq_false_iff.mpr hr) hbest
      refine ⟨s, ?_, hbest, ?_⟩
      · rcases hplace with hstart | ⟨i, heq, hi⟩
        · exact Or.inl hstart
        · exact Or.inr ⟨i + 1, by rw [heq]; omega, hi⟩
      · intro t ht
        rcases List.mem_cons.mp ht with rfl | ht
        · exact hsr
        · exact hall t ht

/-- A place leads when no slot beats the one at it. -/
def Leads (side : Side) (slots : List (Option α)) (place : Nat) : Prop :=
  place < slots.length ∧ ∀ s ∈ slots, side.slotBeats s (slot slots place) = false

omit [Arith α] in
theorem slot_eq_of_getElem? {slots : List (Option α)} {i : Nat} {s : Option α}
    (h : slots[i]? = some s) : slot slots i = s := by
  rw [slot, List.getD_eq_getElem?_getD, h, Option.getD_some]

/-- A search over all slots finds a place that leads. -/
theorem search_leads [LawfulArith α] (side : Side) {slots : List (Option α)} (h : slots ≠ []) :
    Leads side slots (search side 0 0 none slots) := by
  obtain ⟨s, hplace, -, hall⟩ := search_spec side slots 0 0 none
  rcases hplace with ⟨heq, rfl⟩ | ⟨i, heq, hi⟩
  · -- nothing beats an empty slot, so all slots are empty
    rw [heq]
    refine ⟨List.length_pos_iff.mpr h, ?_⟩
    have hnone : slot slots 0 = none := by
      cases slots with
      | nil => rfl
      | cons r rest =>
        cases r with
        | none => rfl
        | some a => exact absurd (hall (some a) List.mem_cons_self) (by simp [Side.slotBeats])
    rw [hnone]
    exact hall
  · rw [heq, Nat.zero_add]
    refine ⟨(List.getElem?_eq_some_iff.mp hi).1, ?_⟩
    rw [slot_eq_of_getElem? hi]
    exact hall

/-! ## Steps -/

/-- The ring in the order of its numbers, the oldest slot first. -/
def inOrder (e : Extremum α) : List (Option α) := e.slots.drop e.cursor ++ e.slots.take e.cursor

/-- Both places are places of the ring, and the remembered one leads. -/
structure Valid (e : Extremum α) : Prop where
  cursor_lt : e.cursor < e.slots.length
  leads : Leads e.side e.slots e.best

/-- The place that a step remembers. -/
def nextBest (e : Extremum α) (x : α) : Nat :=
  let slots := e.slots.set e.cursor (some x)
  if e.side.slotBeats (some x) (slot slots e.best) then e.cursor
  else if e.best = e.cursor then search e.side 0 0 none slots
  else e.best

/-- All that a number changes: the slot at the cursor, the cursor and the best place. -/
theorem next_snd (e : Extremum α) (x : α) :
    (e.next x).2 = ⟨e.side, e.slots.set e.cursor (some x),
      if e.cursor + 1 < e.slots.length then e.cursor + 1 else 0, e.nextBest x⟩ := by
  simp only [next, nextBest, List.length_set]

omit [Arith α] in
theorem slot_set_self {slots : List (Option α)} {i : Nat} (h : i < slots.length) (s : Option α) :
    slot (slots.set i s) i = s :=
  slot_eq_of_getElem? (List.getElem?_set_self h)

omit [Arith α] in
theorem slot_set_ne {slots : List (Option α)} {i j : Nat} (h : i ≠ j) (s : Option α) :
    slot (slots.set i s) j = slot slots j := by
  rw [slot, slot, List.getD_eq_getElem?_getD, List.getD_eq_getElem?_getD, List.getElem?_set_ne h]

/-- The place that a step remembers leads, in each of the three ways in which it is found. -/
theorem nextBest_leads [LawfulArith α] {e : Extremum α} (he : e.Valid) (x : α) :
    Leads e.side (e.slots.set e.cursor (some x)) (e.nextBest x) := by
  have hmem : ∀ s ∈ e.slots.set e.cursor (some x), s = some x ∨ s ∈ e.slots := by
    intro s hs
    exact (List.mem_or_eq_of_mem_set hs).symm
  unfold nextBest
  by_cases hbeats :
      e.side.slotBeats (some x) (slot (e.slots.set e.cursor (some x)) e.best) = true
  · -- the new number is the most extreme one
    simp only [hbeats, if_true]
    have hne : e.cursor ≠ e.best := by
      intro heq
      rw [← heq, slot_set_self he.cursor_lt, Side.slotBeats_irrefl] at hbeats
      cases hbeats
    rw [slot_set_ne hne] at hbeats
    refine ⟨by rw [List.length_set]; exact he.cursor_lt, ?_⟩
    intro s hs
    rw [slot_set_self he.cursor_lt]
    rcases hmem s hs with rfl | hs
    · exact e.side.slotBeats_irrefl _
    · exact e.side.not_slotBeats_of_not_slotBeats (he.leads.2 s hs) hbeats
  · simp only [hbeats, if_false, Bool.false_eq_true]
    by_cases heq : e.best = e.cursor
    · -- its slot is overwritten by a number that is not more extreme
      rw [if_pos heq]
      apply search_leads
      intro hnil
      have hlen := congrArg List.length hnil
      rw [List.length_set, List.length_nil] at hlen
      exact Nat.not_lt_zero _ (hlen ▸ he.cursor_lt)
    · -- it keeps its slot
      rw [if_neg heq]
      rw [Bool.not_eq_true] at hbeats
      refine ⟨by rw [List.length_set]; exact he.leads.1, ?_⟩
      intro s hs
      rcases hmem s hs with rfl | hs
      · exact hbeats
      · rw [slot_set_ne (Ne.symm heq)]
        exact he.leads.2 s hs

/-- A number keeps a ring valid, whichever of the two ways the best place was found. -/
theorem valid_next [LawfulArith α] {e : Extremum α} (he : e.Valid) (x : α) : (e.next x).2.Valid := by
  rw [next_snd]
  refine ⟨?_, nextBest_leads he x⟩
  have hpos : 0 < e.slots.length := Nat.lt_of_le_of_lt (Nat.zero_le _) he.cursor_lt
  show (if e.cursor + 1 < e.slots.length then e.cursor + 1 else 0) < (e.slots.set _ _).length
  rw [List.length_set]
  split
  next h => exact h
  next => exact hpos

/-- A step drops the oldest slot and puts the number behind the newest one. -/
theorem inOrder_next {e : Extremum α} (h : e.cursor < e.slots.length) (x : α) :
    (e.next x).2.inOrder = (e.inOrder ++ [some x]).drop 1 := by
  -- the oldest slot is the one at the cursor
  have hold : e.slots.drop e.cursor = e.slots[e.cursor] :: e.slots.drop (e.cursor + 1) :=
    List.drop_eq_getElem_cons h
  have hlater : (e.slots.set e.cursor (some x)).drop (e.cursor + 1) = e.slots.drop (e.cursor + 1) :=
    List.drop_set_of_lt (Nat.lt_succ_self _)
  have hearlier :
      (e.slots.set e.cursor (some x)).take (e.cursor + 1) = e.slots.take e.cursor ++ [some x] := by
    rw [List.take_succ_eq_append_getElem (by rw [List.length_set]; exact h), List.getElem_set_self,
      List.take_set_of_le (Nat.le_refl _)]
  rw [next_snd]
  simp only [inOrder, hold, List.cons_append, List.drop_succ_cons, List.drop_zero]
  split
  next hlt => rw [hlater, hearlier, List.append_assoc]
  next hge =>
    -- the ring is written to its end, and the cursor goes back to its start
    have hend : e.cursor + 1 = e.slots.length := by omega
    have hlen : (e.slots.set e.cursor (some x)).length = e.cursor + 1 := by
      rw [List.length_set, hend]
    rw [List.drop_zero, List.take_zero, List.append_nil, List.drop_of_length_le (Nat.le_of_eq hend.symm),
      List.nil_append, ← hearlier, List.take_of_length_le (Nat.le_of_eq hlen)]

/-! ## Runs -/

/-- The ring holds the end of a history, with empty slots in front while the history is shorter. -/
structure Holds (e : Extremum α) (xs : List α) : Prop where
  valid : e.Valid
  inOrder_eq :
    e.inOrder = (List.replicate e.slots.length none ++ xs.map some).rtake e.slots.length

theorem length_slots_next (e : Extremum α) (x : α) :
    (e.next x).2.slots.length = e.slots.length := by
  rw [next_snd, List.length_set]

theorem side_next (e : Extremum α) (x : α) : (e.next x).2.side = e.side := by
  rw [next_snd]

/-- A ring with both places inside and all slots empty holds nothing, whatever the places are. -/
theorem holds_nil {side : Side} {period cursor best : Nat} (hcursor : cursor < period)
    (hbest : best < period) :
    Holds (⟨side, List.replicate period none, cursor, best⟩ : Extremum α) [] where
  valid :=
    { cursor_lt := by rw [List.length_replicate]; exact hcursor
      leads := by
        refine ⟨by rw [List.length_replicate]; exact hbest, ?_⟩
        intro s hs
        rw [List.eq_of_mem_replicate hs]
        rfl }
  inOrder_eq := by
    have hsplit : period - cursor + min cursor period = period := by omega
    simp only [inOrder, List.drop_replicate, List.take_replicate, List.replicate_append_replicate,
      List.length_replicate, List.map_nil, List.append_nil, hsplit]
    exact (rtake_eq_self (Nat.le_of_eq List.length_replicate)).symm

theorem holds_start (side : Side) {period : Nat} (h : period ≠ 0) :
    (start side period : Extremum α).Holds [] :=
  holds_nil (Nat.pos_of_ne_zero h) (Nat.pos_of_ne_zero h)

/-- A reset ring holds nothing either, though its cursor and its best place are where they were. -/
theorem holds_reset {e : Extremum α} (he : e.Valid) : e.reset.Holds [] :=
  holds_nil he.cursor_lt he.leads.1

theorem Holds.next [LawfulArith α] {e : Extremum α} {xs : List α} (he : e.Holds xs) (x : α) :
    (e.next x).2.Holds (xs ++ [x]) where
  valid := valid_next he.valid x
  inOrder_eq := by
    rw [inOrder_next he.valid.cursor_lt, he.inOrder_eq, length_slots_next, List.map_append,
      ← List.append_assoc]
    refine drop_one_rtake_concat ?_ _
    rw [List.length_append, List.length_replicate]
    exact Nat.le_add_right _ _

/-- The outcome of a step is the same as the extreme of the last numbers. -/
theorem Holds.next_same [LawfulArith α] {e : Extremum α} {xs : List α} (he : e.Holds xs) {x : α}
    (hxs : ∀ y ∈ xs ++ [x], IsNumber y) :
    ∃ m, e.side.extreme? ((xs ++ [x]).rtake e.slots.length) = some m ∧ Same (e.next x).1 m := by
  have hnext := he.next x
  have hslots : ∀ s, s ∈ (e.next x).2.slots ↔ s ∈ (e.next x).2.inOrder := by
    intro s
    rw [inOrder, List.mem_append, or_comm, ← List.mem_append, List.take_append_drop]
  have hwindow : (e.next x).2.inOrder.reduceOption = (xs ++ [x]).rtake e.slots.length := by
    rw [hnext.inOrder_eq, length_slots_next, reduceOption_rtake]
  have hmem : ∀ y, some y ∈ (e.next x).2.slots ↔ y ∈ (xs ++ [x]).rtake e.slots.length := by
    intro y
    rw [hslots, ← List.reduceOption_mem_iff, hwindow]
  obtain ⟨hlt, hleads⟩ := hnext.valid.leads
  have hx : some x ∈ (e.next x).2.slots := by
    rw [next_snd]
    exact List.mem_set he.valid.cursor_lt _
  have hplace : slot (e.next x).2.slots (e.next x).2.best ∈ (e.next x).2.slots := by
    rw [slot, List.getD_eq_getElem?_getD, List.getElem?_eq_getElem hlt, Option.getD_some]
    exact List.getElem_mem hlt
  rw [show (e.next x).1 = (slot (e.next x).2.slots (e.next x).2.best).getD x from rfl]
  rw [side_next] at hleads
  cases hbest : slot (e.next x).2.slots (e.next x).2.best with
  | none =>
    -- the new number beats an empty slot
    have hbeaten := hleads (some x) hx
    rw [hbest] at hbeaten
    cases hbeaten
  | some y =>
    rw [hbest] at hplace
    cases hm : e.side.extreme? ((xs ++ [x]).rtake e.slots.length) with
    | none =>
      cases hnil : (xs ++ [x]).rtake e.slots.length with
      | nil =>
        rw [hmem, hnil] at hx
        cases hx
      | cons z zs =>
        rw [hnil] at hm
        cases hm
    | some m =>
      obtain ⟨hmwindow, hmbest⟩ := e.side.extreme?_eq_some hm
      have hywindow := (hmem y).mp hplace
      refine ⟨m, rfl, ?_⟩
      -- both are extremes of the window, so neither beats the other
      apply e.side.same_of_not_beats (hxs y (mem_of_mem_rtake hywindow))
        (hxs m (mem_of_mem_rtake hmwindow))
      · exact hmbest y hywindow
      · have hbeaten := hleads (some m) ((hmem m).mpr hmwindow)
        rw [hbest] at hbeaten
        exact hbeaten

end Extremum

end BotSpec.Indicator
