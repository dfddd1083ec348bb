import BotSpec.Strategy.Composition

/-!
# When votes can be composed

`Composition.compose` looks at the votes for two different things: whether there are as many of them
as the mode needs, and what they say. Only the first can fail. `CompositionMode.misfit?` is that
first half alone, a function of the number of votes:

> `compose_eq_error_iff`: `compose mode votes = .error e` exactly when
> `mode.misfit? votes.length = some e`.

So a combo that composes any votes at all composes every later vote of its parts
(`exists_compose_eq_ok`), and two lists of as many votes fail in the same way
(`compose_eq_error_iff_of_length_eq`).
-/

namespace BotSpec

/-- Why a mode cannot compose so many votes. -/
def CompositionMode.misfit? (mode : CompositionMode) (count : Nat) : Option CompositionError :=
  if count = 0 then some .noVotes
  else
    match mode with
    | .unanimous => none
    | .primaryConfirmer => if count = 1 then some (.missingConfirmer count) else none
    | .majority => if count = 3 then none else some (.majorityArity count)

namespace Composition

/-- Votes are refused exactly if there are too few or too many of them for the mode. -/
theorem compose_eq_error_iff (mode : CompositionMode) (votes : List Signal)
    (e : CompositionError) :
    compose mode votes = .error e ↔ mode.misfit? votes.length = some e := by
  cases votes with
  | nil => simp [compose, CompositionMode.misfit?]
  | cons first rest =>
    cases mode with
    | unanimous => simp [compose, CompositionMode.misfit?]
    | primaryConfirmer =>
      cases rest with
      | nil => simp [compose, CompositionMode.misfit?]
      | cons second rest => simp [compose, CompositionMode.misfit?]
    | majority =>
      by_cases h : rest.length = 2
      · simp [compose, CompositionMode.misfit?, h]
      · simp [compose, CompositionMode.misfit?, h]

/-- What the votes say has no part in the error. -/
theorem compose_eq_error_iff_of_length_eq {votes votes' : List Signal}
    (h : votes.length = votes'.length) (mode : CompositionMode) (e : CompositionError) :
    compose mode votes = .error e ↔ compose mode votes' = .error e := by
  rw [compose_eq_error_iff, compose_eq_error_iff, h]

/-- As many votes as suit the mode can be composed, whatever they are. -/
theorem exists_compose_eq_ok {mode : CompositionMode} {votes : List Signal}
    (h : mode.misfit? votes.length = none) : ∃ c, compose mode votes = .ok c := by
  cases hc : compose mode votes with
  | ok c => exact ⟨c, rfl⟩
  | error e =>
    rw [compose_eq_error_iff, h] at hc
    cases hc

theorem misfit?_eq_none_of_compose_eq_ok {mode : CompositionMode} {votes : List Signal}
    {c : Composition} (h : compose mode votes = .ok c) : mode.misfit? votes.length = none := by
  cases hm : mode.misfit? votes.length with
  | none => rfl
  | some e =>
    rw [(compose_eq_error_iff mode votes e).mpr hm] at h
    cases h

end Composition

end BotSpec
