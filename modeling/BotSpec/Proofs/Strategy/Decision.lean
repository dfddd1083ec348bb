import Mathlib.Data.List.Basic
import Mathlib.Data.List.Count
import BotSpec.Proofs.Strategy.Pointwise

/-!
# What a composition decides

`Composition.compose` walks through the votes in a way of its own for every mode. What it decides
can be said without the walk: `CompositionMode.Carries` tells which action the votes carry.

> `compose_decides`: votes are refused for their number only, and otherwise an action is taken
> exactly if the votes carry it.

Everything else follows from what it means to carry an action. It needs a vote for it, it does not
tell the two directions apart, and it counts votes without looking at their places, except that the
primary's place is the first. A veto is the one thing whose place is reported
(`exists_firstVeto_of_hold`).
-/

namespace BotSpec

/-! ## Directions -/

namespace Signal

theorem opposite_involutive : Function.Involutive opposite := fun a => by cases a <;> rfl

/-- Signals that are the same direction or none are the same. -/
theorem eq_of_eq_iff {x y : Signal} (h : ∀ a, a ≠ hold → (x = a ↔ y = a)) : x = y := by
  cases x with
  | buy => exact ((h buy nofun).mp rfl).symm
  | sell => exact ((h sell nofun).mp rfl).symm
  | hold =>
    cases y with
    | buy => exact (h buy nofun).mpr rfl
    | sell => exact (h sell nofun).mpr rfl
    | hold => rfl

/-- A vote is for one direction at most. -/
theorem count_buy_add_count_sell_le (votes : List Signal) :
    votes.count buy + votes.count sell ≤ votes.length := by
  induction votes with
  | nil => exact Nat.le_refl 0
  | cons v votes ih => cases v <;> simp <;> omega

end Signal

/-! ## Votes that carry an action -/

/-- The votes carry an action: all are for it, or the primary is and no confirmer is against it, or
two are. -/
def CompositionMode.Carries (mode : CompositionMode) (votes : List Signal) (a : Signal) : Prop :=
  match mode with
  | .unanimous => ∀ v ∈ votes, v = a
  | .primaryConfirmer => votes.head? = some a ∧ a.opposite ∉ votes.tail
  | .majority => 2 ≤ votes.count a

namespace CompositionMode

variable {mode : CompositionMode} {votes votes' : List Signal} {a : Signal}

/-- Nothing is carried without a vote for it. -/
theorem Carries.mem (h : mode.Carries votes a) (hvotes : votes ≠ []) : a ∈ votes := by
  cases mode with
  | unanimous =>
    obtain ⟨v, hv⟩ := List.exists_mem_of_ne_nil votes hvotes
    exact (h v hv) ▸ hv
  | primaryConfirmer => exact List.mem_of_mem_head? h.1
  | majority =>
    have hcount : 2 ≤ votes.count a := h
    exact List.count_pos_iff.mp (by omega)

/-- Swapped votes carry the swapped action. -/
theorem carries_map_opposite : mode.Carries (votes.map Signal.opposite) a ↔ mode.Carries votes a.opposite := by
  cases mode with
  | unanimous => simp only [Carries, List.forall_mem_map, Signal.opposite_involutive.eq_iff]
  | primaryConfirmer =>
    have hhead : (votes.map Signal.opposite).head? = some a ↔ votes.head? = some a.opposite := by
      rw [List.head?_map, Option.map_eq_some_iff]
      constructor
      · rintro ⟨v, hv, rfl⟩
        rw [hv, Signal.opposite_involutive v]
      · exact fun h => ⟨_, h, Signal.opposite_involutive a⟩
    have htail : a.opposite ∈ (votes.map Signal.opposite).tail ↔ a.opposite.opposite ∈ votes.tail := by
      rw [← List.map_tail, Signal.opposite_involutive a, List.mem_map_of_injective Signal.opposite_involutive.injective]
    rw [Carries, Carries, hhead, htail]
  | majority =>
    have hcount : (votes.map Signal.opposite).count a.opposite.opposite = votes.count a.opposite :=
      List.count_map_of_injective votes Signal.opposite Signal.opposite_involutive.injective a.opposite
    rw [Signal.opposite_involutive a] at hcount
    rw [Carries, Carries, hcount]

/-- The order of the votes has no part in what they carry, but for the primary's. -/
theorem carries_perm (h : votes.Perm votes')
    (hprimary : mode = .primaryConfirmer → votes.head? = votes'.head?) :
    mode.Carries votes' a ↔ mode.Carries votes a := by
  cases mode with
  | unanimous => simp only [Carries, h.mem_iff]
  | majority => rw [Carries, Carries, h.count_eq]
  | primaryConfirmer =>
    have hhead := hprimary rfl
    cases votes with
    | nil => rw [h.nil_eq]
    | cons primary confirmers =>
      cases votes' with
      | nil => cases hhead
      | cons primary' confirmers' =>
        cases hhead
        simp only [Carries, List.head?_cons, List.tail_cons, ((List.perm_cons primary).mp h).mem_iff]

end CompositionMode

/-! ## Decisions -/

namespace Composition

open CompositionMode (Carries)

/-- What a composition can be, mode by mode. -/
inductive Composed : CompositionMode → List Signal → Composition → Prop where
  | unanimous (first : Signal) (rest : List Signal) : Composed .unanimous (first :: rest) (unanimous (first :: rest) first)
  | confirmed (primary : Signal) (confirmers : List Signal) :
      Composed .primaryConfirmer (primary :: confirmers) (confirmed primary confirmers)
  | majority {votes : List Signal} (hlength : votes.length = 3) : Composed .majority votes (majority votes)

/-- What composes is described by its mode. -/
theorem composed_of_compose {mode : CompositionMode} {votes : List Signal} {c : Composition}
    (h : compose mode votes = .ok c) : Composed mode votes c := by
  cases votes with
  | nil => cases h
  | cons first rest =>
    cases mode with
    | unanimous =>
      cases h
      exact .unanimous first rest
    | primaryConfirmer =>
      simp only [compose] at h
      split at h
      next => cases h
      next =>
        cases h
        exact .confirmed first rest
    | majority =>
      simp only [compose] at h
      split at h
      next hlength =>
        cases h
        exact .majority hlength
      next => cases h

variable {mode : CompositionMode} {votes votes' : List Signal} {a : Signal} {c : Composition}

section Modes

variable (ha : a ≠ .hold)

include ha

/-- An action is unanimous exactly if every vote is for it. -/
theorem action_unanimous_eq_iff (first : Signal) (rest : List Signal) :
    (unanimous (first :: rest) first).action = a ↔ Carries .unanimous (first :: rest) a := by
  rw [unanimous]
  split
  next h =>
    have hall : ∀ v ∈ first :: rest, v = first := by simpa using h.2
    constructor
    · rintro rfl
      exact hall
    · exact fun hcarries => hcarries first List.mem_cons_self
  next h =>
    -- if all voted for the direction the first one did, and it was taken
    refine iff_of_false (Ne.symm ha) fun hcarries => h ?_
    have hall : ∀ v ∈ first :: rest, v = a := hcarries
    obtain rfl : first = a := hall first List.mem_cons_self
    exact ⟨ha, List.all_eq_true.mpr fun v hv => decide_eq_true (hall v hv)⟩

/-- An action of the primary is confirmed exactly if no confirmer votes for the other direction. -/
theorem action_confirmed_eq_iff (primary : Signal) (confirmers : List Signal) :
    (confirmed primary confirmers).action = a ↔ Carries .primaryConfirmer (primary :: confirmers) a := by
  have hcarries : Carries .primaryConfirmer (primary :: confirmers) a ↔ primary = a ∧ a.opposite ∉ confirmers := by
    rw [Carries, List.head?_cons, Option.some_inj, List.tail_cons]
  rw [hcarries, confirmed]
  split
  next hhold =>
    exact iff_of_false (Ne.symm ha) fun h => ha (h.1 ▸ hhold)
  next =>
    split
    next i hveto =>
      refine iff_of_false (Ne.symm ha) fun h => ?_
      -- the confirmer that was found votes for the other direction
      obtain ⟨hlt, hopposite, -⟩ := List.findIdx?_eq_some_iff_getElem.mp hveto
      obtain ⟨rfl, hnone⟩ := h
      exact hnone (of_decide_eq_true hopposite ▸ List.getElem_mem hlt)
    next hveto =>
      have hnone := List.findIdx?_eq_none_iff.mp hveto
      constructor
      · rintro rfl
        exact ⟨rfl, fun hmem => of_decide_eq_false (hnone _ hmem) rfl⟩
      · exact fun h => h.1

/-- Of three votes, two cannot be for either side. -/
theorem action_majority_eq_iff (hlength : votes.length = 3) :
    (majority votes).action = a ↔ Carries .majority votes a := by
  -- buying is asked first, which does not matter: two and two votes would be four
  have htotal := Signal.count_buy_add_count_sell_le votes
  show (majority votes).action = a ↔ 2 ≤ votes.count a
  unfold majority
  simp only
  cases a with
  | hold => exact absurd rfl ha
  | buy =>
    by_cases hbuys : 2 ≤ votes.count .buy
    · rw [if_pos hbuys]
      exact iff_of_true rfl hbuys
    · rw [if_neg hbuys]
      refine iff_of_false ?_ hbuys
      split <;> exact nofun
  | sell =>
    by_cases hbuys : 2 ≤ votes.count .buy
    · rw [if_pos hbuys]
      exact iff_of_false nofun (by omega)
    · rw [if_neg hbuys]
      split
      next hsells => exact iff_of_true rfl hsells
      next hsells => exact iff_of_false nofun hsells

/-- **The decision.** What is composed is a direction exactly if the votes carry it. -/
theorem action_eq_iff (h : compose mode votes = .ok c) : c.action = a ↔ mode.Carries votes a := by
  cases composed_of_compose h with
  | unanimous first rest => exact action_unanimous_eq_iff ha first rest
  | confirmed primary confirmers => exact action_confirmed_eq_iff ha primary confirmers
  | majority hlength => exact action_majority_eq_iff ha hlength

end Modes

theorem ne_nil_of_compose_eq_ok (h : compose mode votes = .ok c) : votes ≠ [] := by
  rintro rfl
  cases h

/-- A direction that is taken was voted for. -/
theorem mem_of_action_ne_hold (h : compose mode votes = .ok c) (hdirected : c.action ≠ .hold) :
    c.action ∈ votes :=
  ((action_eq_iff hdirected h).mp rfl).mem (ne_nil_of_compose_eq_ok h)

/-! ## Vetoes -/

/-- The first confirmer that opposes a primary with a direction. The primary has the index zero. -/
structure FirstVeto (votes : List Signal) (primary : Signal) (index : Nat) : Prop where
  isConfirmer : 0 < index
  opposes : votes[index]? = some primary.opposite
  isFirst : ∀ earlier, 0 < earlier → earlier < index → votes[earlier]? ≠ some primary.opposite

/-- What is said of a veto. -/
def vetoText (primary : Signal) (index : Nat) : String :=
  s!"primary votes {primary.text}, vetoed by confirmer {index} voting {primary.opposite.text}"

/-- Where a primary with a direction does not get its way, the first confirmer against it is named. -/
theorem exists_firstVeto_of_hold {primary : Signal} (h : compose .primaryConfirmer votes = .ok c)
    (hhead : votes.head? = some primary) (hdirected : primary ≠ .hold) (hhold : c.action = .hold) :
    ∃ index, FirstVeto votes primary index ∧ c.rationale = vetoText primary index := by
  cases composed_of_compose h with
  | confirmed first confirmers =>
    obtain rfl : first = primary := Option.some.inj hhead
    unfold confirmed at hhold ⊢
    rw [if_neg hdirected] at hhold ⊢
    cases hveto : confirmers.findIdx? fun v => v = first.opposite with
    | none =>
      rw [hveto] at hhold
      exact absurd hhold hdirected
    | some i =>
      obtain ⟨hlt, hopposite, hbefore⟩ := List.findIdx?_eq_some_iff_getElem.mp hveto
      refine ⟨i + 1, ⟨Nat.succ_pos i, ?_, fun earlier hpos hlt' => ?_⟩, rfl⟩
      · rw [List.getElem?_cons_succ, List.getElem?_eq_getElem hlt, of_decide_eq_true hopposite]
      · obtain ⟨j, rfl⟩ := Nat.exists_eq_succ_of_ne_zero (Nat.ne_of_gt hpos)
        have hj : j < i := Nat.lt_of_succ_lt_succ hlt'
        rw [List.getElem?_cons_succ, List.getElem?_eq_getElem (Nat.lt_trans hj hlt)]
        exact fun heq => hbefore j hj (decide_eq_true (Option.some.inj heq))

/-! ## Symmetries -/

/-- The action that votes are composed to, without the reason. -/
def actionOf (mode : CompositionMode) (votes : List Signal) : Except CompositionError Signal :=
  (compose mode votes).map action

/-- As many votes that carry the renamed directions are composed to the renamed action. -/
theorem actionOf_eq_map {f : Signal → Signal} (hf : Function.Involutive f) (hhold : f .hold = .hold)
    (hlength : votes'.length = votes.length)
    (hcarries : ∀ a, a ≠ .hold → (mode.Carries votes' a ↔ mode.Carries votes (f a))) :
    actionOf mode votes' = (actionOf mode votes).map f := by
  unfold actionOf
  cases h : compose mode votes with
  | error e =>
    rw [(compose_eq_error_iff_of_length_eq hlength mode e).mpr h]
    rfl
  | ok c =>
    cases h' : compose mode votes' with
    | error e => exact absurd ((compose_eq_error_iff_of_length_eq hlength mode e).mp h') (by rw [h]; exact nofun)
    | ok c' =>
      refine congrArg Except.ok (Signal.eq_of_eq_iff fun a ha => ?_)
      have hfa : f a ≠ .hold := fun heq => ha (hf.injective (heq.trans hhold.symm))
      rw [action_eq_iff ha h', hcarries a ha, ← action_eq_iff hfa h, hf.eq_iff]

/-- **The composition rule.** Votes are refused exactly for a number that does not suit the mode.
Otherwise a direction is the action exactly if the votes carry it; some vote is then for it; and
where a primary with a direction is held back, the reason names the first confirmer against it.
Swapping all votes swaps the action, and reordering them, with the primary left in its place where
there is one, changes nothing. -/
theorem compose_decides (mode : CompositionMode) (votes : List Signal) :
    (∀ e, compose mode votes = .error e ↔ mode.Refuses votes.length e) ∧
    (∀ c, compose mode votes = .ok c →
      (∀ a, a ≠ .hold → (c.action = a ↔ mode.Carries votes a)) ∧
      (c.action ≠ .hold → c.action ∈ votes) ∧
      ∀ primary, mode = .primaryConfirmer → votes.head? = some primary → primary ≠ .hold → c.action = .hold →
        ∃ index, FirstVeto votes primary index ∧ c.rationale = vetoText primary index) ∧
    actionOf mode (votes.map Signal.opposite) = (actionOf mode votes).map Signal.opposite ∧
    ∀ votes', votes.Perm votes' → (mode = .primaryConfirmer → votes.head? = votes'.head?) →
      actionOf mode votes' = actionOf mode votes := by
  refine ⟨fun e => ?_, fun c hc => ⟨fun a ha => action_eq_iff ha hc, mem_of_action_ne_hold hc, ?_⟩, ?_, ?_⟩
  · rw [compose_eq_error_iff, CompositionMode.misfit?_eq_some_iff]
  · rintro primary rfl hhead hdirected hhold
    exact exists_firstVeto_of_hold hc hhead hdirected hhold
  · exact actionOf_eq_map Signal.opposite_involutive rfl (List.length_map _) fun a _ =>
      CompositionMode.carries_map_opposite
  · intro votes' hperm hprimary
    have hsame := actionOf_eq_map (f := id) (fun _ => rfl) rfl hperm.length_eq.symm fun a _ =>
      CompositionMode.carries_perm (a := a) hperm hprimary
    rw [hsame]
    cases actionOf mode votes <;> rfl

/-- A primary that is vetoed by its second confirmer and again by its third, with the confirmers in
another order. -/
theorem compose_decides_veto :
    compose .primaryConfirmer [.buy, .hold, .sell, .sell] = .ok ⟨.hold, vetoText .buy 2⟩ ∧
      actionOf .primaryConfirmer [.buy, .sell, .sell, .hold] = .ok .hold := by
  obtain ⟨-, hdecided, -, hperm⟩ := compose_decides .primaryConfirmer [.buy, .hold, .sell, .sell]
  have hcomposed : ∃ c, compose .primaryConfirmer [.buy, .hold, .sell, .sell] = .ok c ∧ c.action = .hold := ⟨_, rfl, rfl⟩
  obtain ⟨c, hc, hhold⟩ := hcomposed
  obtain ⟨-, -, hveto⟩ := hdecided c hc
  obtain ⟨index, hfirst, hrationale⟩ := hveto .buy rfl rfl nofun hhold
  have hindex : index = 2 := by
    have hopposes := hfirst.opposes
    have hbefore := hfirst.isFirst 2 (by decide)
    match index with
    | 0 => cases hfirst.isConfirmer
    | 1 => cases hopposes
    | 2 => rfl
    | 3 => exact absurd rfl (hbefore (by decide))
    | _ + 4 => cases hopposes
  subst hindex
  refine ⟨?_, ?_⟩
  · rw [hc]
    exact congrArg Except.ok (by cases c; cases hhold; cases hrationale; rfl)
  · rw [hperm [.buy, .sell, .sell, .hold] (by decide) (fun _ => rfl), actionOf, hc]
    exact congrArg Except.ok hhold

end Composition

end BotSpec
