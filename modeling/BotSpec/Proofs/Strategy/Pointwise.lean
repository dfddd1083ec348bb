import BotSpec.Proofs.Strategy.Run
import BotSpec.Strategy.Factory

/-!
# A combo is the composition of its parts

A combo is told to take a bar or to start over, again and again. Its parts do not see each other:
each is where it would be if it had been told the same alone (`Combo.parts_after`), whatever the
others voted. On a bar the combo composes what the parts would say alone:

> `combo_is_pointwise`: a combo is refused for the number of its parts only, and otherwise its vote
> on a bar, after any bars and resets, is the composition of the votes of its parts.

Composing cannot fail later on. Whether it does depends on the number of votes and the mode
(`Composition.compose_eq_error_iff`), neither of which changes; `Combo.Fits` is kept by bars and by
resets.
-/

namespace BotSpec

/-- What a machine is told: to take a bar, or to start over. -/
inductive Event (α : Type) where
  | bar (bar : Bar α)
  | reset

section Machines

variable {α : Type} [Arith α]

/-- The generator after it is told something. -/
def Generator.handle (g : Generator α) : Event α → Generator α
  | .bar bar => (g.step bar).2
  | .reset => g.reset

/-- The generator after some events. -/
def Generator.after (g : Generator α) (events : List (Event α)) : Generator α := events.foldl handle g

/-- The combo after it is told something. -/
def Combo.handle (c : Combo α) : Event α → Combo α
  | .bar bar => (c.step bar).2
  | .reset => c.reset

/-- The combo after some events. -/
def Combo.after (c : Combo α) (events : List (Event α)) : Combo α := events.foldl handle c

end Machines

/-! ## Numbers of parts -/

namespace CompositionMode

/-- A mode composes so many votes. -/
def Admits : CompositionMode → Nat → Prop
  | .unanimous, count => 1 ≤ count
  | .primaryConfirmer, count => 2 ≤ count
  | .majority, count => count = 3

/-- Why a mode does not compose so many votes. -/
inductive Refuses : CompositionMode → Nat → CompositionError → Prop where
  | noVotes (mode : CompositionMode) : Refuses mode 0 .noVotes
  | missingConfirmer : Refuses .primaryConfirmer 1 (.missingConfirmer 1)
  | majorityArity {count : Nat} (hsome : count ≠ 0) (hthree : count ≠ 3) : Refuses .majority count (.majorityArity count)

/-- A number of components that is no misfit is admitted. -/
theorem misfit?_eq_none_iff {mode : CompositionMode} {count : Nat} :
    mode.misfit? count = none ↔ mode.Admits count := by
  cases mode <;> simp only [misfit?, Admits] <;> grind

/-- One that is a misfit is refused, with the error that says which bound it misses. -/
theorem misfit?_eq_some_iff {mode : CompositionMode} {count : Nat} {e : CompositionError} :
    mode.misfit? count = some e ↔ mode.Refuses count e := by
  constructor
  · intro h
    -- no votes are a fault in every mode, and it is found first
    by_cases hzero : count = 0
    · subst hzero
      cases h
      exact .noVotes mode
    · cases mode with
      | unanimous => simp [misfit?, hzero] at h
      | primaryConfirmer =>
        by_cases hone : count = 1
        · subst hone
          cases h
          exact .missingConfirmer
        · simp [misfit?, hzero, hone] at h
      | majority =>
        by_cases hthree : count = 3
        · simp [misfit?, hthree] at h
        · simp only [misfit?, hzero, hthree, if_false, Option.some.injEq] at h
          subst h
          exact .majorityArity hzero hthree
  · intro h
    cases h with
    | noVotes => rfl
    | missingConfirmer => rfl
    | majorityArity hsome hthree => simp [misfit?, hsome, hthree]

end CompositionMode

namespace Combo

variable {α : Type} {name : String} {parts : List (Generator α)} {mode : CompositionMode}

/-- A combo is started exactly with a number of components that its mode admits. -/
theorem start_eq_ok_iff {c : Combo α} :
    start name parts mode = .ok c ↔ mode.Admits parts.length ∧ c = ⟨name, parts, mode, none⟩ := by
  constructor
  · intro h
    obtain ⟨hfits, rfl⟩ := fits_of_start h
    exact ⟨CompositionMode.misfit?_eq_none_iff.mp hfits, rfl⟩
  · rintro ⟨hadmits, rfl⟩
    have hfits : mode.misfit? (parts.map fun _ => Signal.hold).length = none := by
      rw [List.length_map]
      exact CompositionMode.misfit?_eq_none_iff.mpr hadmits
    obtain ⟨composition, hcomposition⟩ := Composition.exists_compose_eq_ok hfits
    rw [start, hcomposition]

/-- The error says why the number is refused. -/
theorem start_eq_error_iff {e : CompositionError} :
    start name parts mode = .error e ↔ mode.Refuses parts.length e := by
  have hlength : (parts.map fun _ => Signal.hold).length = parts.length := List.length_map _
  rw [← CompositionMode.misfit?_eq_some_iff, ← hlength, ← Composition.compose_eq_error_iff, start]
  cases Composition.compose mode (parts.map fun _ => .hold) with
  | ok composition => exact ⟨nofun, nofun⟩
  | error e' => exact ⟨fun h => by cases h; rfl, fun h => by cases h; rfl⟩

/-- Building a combo from parameters only gives the error another name. -/
theorem ofParts_eq (name : String) (parts : List (Generator Float)) (mode : CompositionMode) :
    ofParts name parts mode = (start name parts mode).mapError .composition := by
  rw [ofParts]
  cases start name parts mode <;> rfl

theorem ofParts_eq_ok_iff {parts : List (Generator Float)} {c : Combo Float} :
    ofParts name parts mode = .ok c ↔ mode.Admits parts.length ∧ c = ⟨name, parts, mode, none⟩ := by
  rw [← start_eq_ok_iff, ofParts_eq]
  cases start name parts mode <;> simp [Except.mapError]

/-- The error of a combo is passed on as that of its formula. -/
theorem ofParts_eq_error_iff {parts : List (Generator Float)} {err : FormulaError} :
    ofParts name parts mode = .error err ↔ ∃ e, mode.Refuses parts.length e ∧ err = .composition e := by
  have hstart (e : CompositionError) : mode.Refuses parts.length e ↔ start name parts mode = .error e :=
    start_eq_error_iff.symm
  simp only [hstart, ofParts_eq]
  cases start name parts mode <;> simp [Except.mapError, eq_comm]

/-! ## Events -/

variable [Arith α] {c : Combo α}

theorem fits_reset (hc : c.Fits) : c.reset.Fits := by
  show c.mode.misfit? (c.parts.map Generator.reset).length = none
  rw [List.length_map]
  exact hc

theorem fits_handle (hc : c.Fits) (event : Event α) : (c.handle event).Fits := by
  cases event with
  | bar bar => exact fits_step hc bar
  | reset => exact fits_reset hc

/-- An event reaches every part, and leaves the mode. -/
theorem handle_eq (hc : c.Fits) (event : Event α) :
    (c.handle event).mode = c.mode ∧ (c.handle event).parts = c.parts.map fun g => g.handle event := by
  cases event with
  | bar bar =>
    obtain ⟨composition, -, hstep⟩ := step_eq hc bar
    rw [handle, hstep]
    exact ⟨rfl, rfl⟩
  | reset => exact ⟨rfl, rfl⟩

/-- After any events, each part is where it would be alone. -/
theorem parts_after (hc : c.Fits) (events : List (Event α)) :
    (c.after events).Fits ∧ (c.after events).mode = c.mode ∧
      (c.after events).parts = c.parts.map fun g => g.after events := by
  induction events generalizing c with
  | nil => exact ⟨hc, rfl, (List.map_id' c.parts).symm⟩
  | cons event events ih =>
    obtain ⟨hmode, hparts⟩ := handle_eq hc event
    obtain ⟨hfits, hmodeAfter, hpartsAfter⟩ := ih (fits_handle hc event)
    refine ⟨hfits, hmodeAfter.trans hmode, ?_⟩
    rw [after, List.foldl_cons, ← after, hpartsAfter, hparts, List.map_map]
    rfl

end Combo

/-- **A combo composes what its parts say alone.** It is built exactly if its mode admits the number
of its parts, and otherwise the error says what is wrong with that number. On every bar, after
whatever bars and resets, its parts' votes can be composed; they are the votes of the parts alone,
and the composition is the combo's vote and its last composition. Before the first bar, and after a
reset, there is none. -/
theorem combo_is_pointwise (name : String) (parts : List (Generator Float)) (mode : CompositionMode) :
    ((∃ c, Combo.ofParts name parts mode = .ok c) ↔ mode.Admits parts.length) ∧
    (∀ err, Combo.ofParts name parts mode = .error err ↔ ∃ e, mode.Refuses parts.length e ∧ err = .composition e) ∧
    ∀ c, Combo.ofParts name parts mode = .ok c → c.last = none ∧ ∀ events : List (Event Float),
      (c.after events).reset.last = none ∧
      ∀ bar, ∃ composition,
        Composition.compose mode (parts.map fun g => ((g.after events).step bar).1) = .ok composition ∧
        Composition.compose (c.after events).mode ((c.after events).parts.map fun g => (g.step bar).1)
          = .ok composition ∧
        ((c.after events).step bar).1 = composition.action ∧
        ((c.after events).step bar).2.last = some composition := by
  refine ⟨?_, fun err => Combo.ofParts_eq_error_iff, fun c hc => ?_⟩
  · simp only [Combo.ofParts_eq_ok_iff]
    exact ⟨fun ⟨_, hadmits, _⟩ => hadmits, fun hadmits => ⟨_, hadmits, rfl⟩⟩
  · obtain ⟨hadmits, rfl⟩ := Combo.ofParts_eq_ok_iff.mp hc
    have hfits : (Combo.mk name parts mode none).Fits := CompositionMode.misfit?_eq_none_iff.mpr hadmits
    refine ⟨rfl, fun events => ⟨rfl, fun bar => ?_⟩⟩
    obtain ⟨hnow, hmode, hparts⟩ := Combo.parts_after hfits events
    obtain ⟨composition, hcomposed, hstep⟩ := Combo.step_eq hnow bar
    have hpointwise : ((Combo.mk name parts mode none).after events).parts.map (fun g => (g.step bar).1)
        = parts.map fun g => ((g.after events).step bar).1 := by
      rw [hparts, List.map_map]
      rfl
    refine ⟨composition, ?_, hcomposed, by rw [hstep], by rw [hstep]⟩
    rw [← hpointwise, ← hcomposed, hmode]

/-- Two price averages that disagree with a jump: a bar, a reset, and two bars later both sell. -/
theorem combo_is_pointwise_vwap :
    let flat : Bar Float := ⟨100, 100, 100, 1⟩
    let jump : Bar Float := ⟨110, 110, 110, 1⟩
    let parts : List (Generator Float) := [.vwap (.start 2), .vwap (.start 2)]
    ∃ c, Combo.ofParts "VWAP+VWAP" parts .unanimous = .ok c ∧
      ((c.after [.bar jump, .reset, .bar flat]).step jump).1 = .sell := by
  intro flat jump parts
  obtain ⟨hbuilt, -, hruns⟩ := combo_is_pointwise "VWAP+VWAP" parts .unanimous
  obtain ⟨c, hc⟩ := hbuilt.mpr (by decide : 1 ≤ 2)
  obtain ⟨composition, hcomposed, -, hvote, -⟩ := ((hruns c hc).2 [.bar jump, .reset, .bar flat]).2 jump
  refine ⟨c, hc, hvote.trans ?_⟩
  have hvotes : (parts.map fun g => ((g.after [.bar jump, .reset, .bar flat]).step jump).1) = [.sell, .sell] := by
    decide +kernel
  rw [hvotes] at hcomposed
  cases hcomposed
  rfl

end BotSpec
