import BotSpec.Proofs.Strategy.Composition
import BotSpec.Strategy.Generator
import Mathlib.Data.List.Induction

/-!
# Runs over bars

Every machine of this library (an indicator, a generator, a combo, a whole variant) takes a bar and
gives a vote. Here is what it does over a list of bars: `replay` gives the vote on the last bar
together with the machine after it.

Two facts carry all that is said about runs of composites:

* `replay_of_commutes`: a machine that only wraps another one replays as that one does. A variant
  with one component is such a wrapper, a composite another.
* `Combo.replay_eq`: in a combo every part runs as if it were alone, and the last composition is
  that of the parts' last votes. The invariant is `Combo.Fits`: there are as many parts as the mode
  composes, which no step changes.
-/

namespace BotSpec

variable {α σ τ : Type}

/-- The vote of a machine on the last of some bars, and the machine after them. Before the first bar
it holds. -/
def replay (step : σ → Bar α → Signal × σ) (s : σ) (bars : List (Bar α)) : Signal × σ :=
  bars.foldl (fun r bar => step r.2 bar) (.hold, s)

@[simp]
theorem replay_nil (step : σ → Bar α → Signal × σ) (s : σ) : replay step s [] = (.hold, s) := rfl

/-- One bar more is one step more, and its vote is the latest. -/
theorem replay_concat (step : σ → Bar α → Signal × σ) (s : σ) (bars : List (Bar α)) (bar : Bar α) :
    replay step s (bars ++ [bar]) = step (replay step s bars).2 bar := by
  simp [replay]

/-- The vote before the first bar has no part in the machine that a run ends with. -/
private theorem foldl_step_snd (step : σ → Bar α → Signal × σ) (bars : List (Bar α)) :
    ∀ r r' : Signal × σ, r.2 = r'.2 →
      (bars.foldl (fun r bar => step r.2 bar) r).2
        = (bars.foldl (fun r bar => step r.2 bar) r').2 := by
  induction bars with
  | nil => intro r r' h; exact h
  | cons bar bars ih =>
    intro r r' h
    rw [List.foldl_cons, List.foldl_cons, h]

/-- A run from one bar on is the run from the state behind it. -/
theorem replay_cons_snd (step : σ → Bar α → Signal × σ) (s : σ) (bar : Bar α)
    (bars : List (Bar α)) :
    (replay step s (bar :: bars)).2 = (replay step (step s bar).2 bars).2 :=
  foldl_step_snd step bars _ _ rfl

theorem replay_invariant {step : σ → Bar α → Signal × σ} {P : σ → Prop} {Q : Bar α → Prop}
    (hstep : ∀ s bar, Q bar → P s → P (step s bar).2) {s : σ} (hs : P s) :
    ∀ {bars : List (Bar α)}, (∀ bar ∈ bars, Q bar) → P (replay step s bars).2 := by
  intro bars
  induction bars generalizing s with
  | nil => intro _; exact hs
  | cons bar bars ih =>
    intro hq
    rw [replay_cons_snd]
    exact ih (hstep s bar (hq bar List.mem_cons_self) hs)
      (fun b hb => hq b (List.mem_cons_of_mem _ hb))

/-- A machine that follows the history of its bars bar by bar follows it over a run, and votes on
all of it. -/
theorem replay_follows {step : σ → Bar α → Signal × σ} {F : σ → List (Bar α) → Prop}
    {V : List (Bar α) → Signal} {Q : Bar α → Prop} (hhold : V [] = .hold)
    (hstep : ∀ s bars bar, F s bars → (∀ b ∈ bars ++ [bar], Q b) →
      (step s bar).1 = V (bars ++ [bar]) ∧ F (step s bar).2 (bars ++ [bar])) {s : σ} (hs : F s [])
    {bars : List (Bar α)} (hbars : ∀ b ∈ bars, Q b) :
    (replay step s bars).1 = V bars ∧ F (replay step s bars).2 bars := by
  -- a history grows at its end, so the induction takes the last bar off
  induction bars using List.reverseRecOn with
  | nil => exact ⟨hhold.symm, hs⟩
  | append_singleton bars bar ih =>
    rw [replay_concat]
    have hbefore := ih fun b hb => hbars b (List.mem_append_left _ hb)
    exact hstep _ bars bar hbefore.2 hbars

/-- A machine that wraps another one replays as that one does. -/
theorem replay_of_commutes {step : σ → Bar α → Signal × σ} {step' : τ → Bar α → Signal × τ}
    {f : σ → τ} (h : ∀ s bar, step' (f s) bar = ((step s bar).1, f (step s bar).2)) (s : σ)
    (bars : List (Bar α)) :
    replay step' (f s) bars = ((replay step s bars).1, f (replay step s bars).2) := by
  rcases List.eq_nil_or_concat bars with rfl | ⟨init, last, rfl⟩
  · rfl
  · -- the states agree after any bars, the votes only after one
    have hinit : ∀ bars : List (Bar α), (replay step' (f s) bars).2 = f (replay step s bars).2 := by
      intro bars
      induction bars generalizing s with
      | nil => rfl
      | cons bar bars ih => rw [replay_cons_snd, replay_cons_snd, h]; exact ih _
    rw [List.concat_eq_append, replay_concat, replay_concat, hinit, h]

/-! ## Combos -/

namespace Combo

/-- There are as many parts as the mode composes. -/
def Fits (c : Combo α) : Prop := c.mode.misfit? c.parts.length = none

/-- A combo that is started has a number of components that fits its mode. -/
theorem fits_of_start {name : String} {parts : List (Generator α)} {mode : CompositionMode}
    {c : Combo α} (h : start name parts mode = .ok c) :
    c.Fits ∧ c = ⟨name, parts, mode, none⟩ := by
  unfold start at h
  split at h
  next composition hc =>
    cases h
    have hlen := Composition.misfit?_eq_none_of_compose_eq_ok hc
    rw [List.length_map] at hlen
    exact ⟨hlen, rfl⟩
  next => cases h

variable [Arith α]

/-- A step of a combo that fits: every part steps, and their votes are composed. -/
theorem step_eq {c : Combo α} (hc : c.Fits) (bar : Bar α) :
    ∃ composition,
      Composition.compose c.mode (c.parts.map fun g => (g.step bar).1) = .ok composition ∧
      c.step bar = (composition.action,
        { c with parts := c.parts.map fun g => (g.step bar).2, last := some composition }) := by
  have hvotes : c.mode.misfit? (c.parts.map fun g => (g.step bar).1).length = none := by
    rw [List.length_map]
    exact hc
  obtain ⟨composition, h⟩ := Composition.exists_compose_eq_ok hvotes
  refine ⟨composition, h, ?_⟩
  simp only [step, List.map_map, Function.comp_def, h]

theorem fits_step {c : Combo α} (hc : c.Fits) (bar : Bar α) : (c.step bar).2.Fits := by
  obtain ⟨composition, -, h⟩ := step_eq hc bar
  rw [h]
  show c.mode.misfit? (c.parts.map _).length = none
  rw [List.length_map]
  exact hc

/-- Every part of a combo runs as if it were alone. -/
theorem replay_parts {c : Combo α} (hc : c.Fits) (bars : List (Bar α)) :
    (replay step c bars).2.name = c.name ∧ (replay step c bars).2.mode = c.mode ∧
      (replay step c bars).2.parts = c.parts.map fun g => (replay Generator.step g bars).2 := by
  induction bars generalizing c with
  | nil => exact ⟨rfl, rfl, by simp⟩
  | cons bar bars ih =>
    obtain ⟨composition, -, h⟩ := step_eq hc bar
    have hfits := fits_step hc bar
    obtain ⟨hname, hmode, hparts⟩ := ih hfits
    simp only [replay_cons_snd]
    refine ⟨by rw [hname, h], by rw [hmode, h], ?_⟩
    rw [hparts, h]
    simp only [List.map_map, Function.comp_def]

/-- The last vote of a run is the composition of the parts' last votes. -/
theorem replay_eq {c : Combo α} (hc : c.Fits) {bars : List (Bar α)} (hb : bars ≠ []) :
    ∃ composition,
      Composition.compose c.mode (c.parts.map fun g => (replay Generator.step g bars).1)
          = .ok composition ∧
      replay step c bars = (composition.action,
        { c with
          parts := c.parts.map fun g => (replay Generator.step g bars).2
          last := some composition }) := by
  obtain ⟨init, last, rfl⟩ := (List.eq_nil_or_concat bars).resolve_left hb
  simp only [List.concat_eq_append, replay_concat]
  obtain ⟨hname, hmode, hparts⟩ := replay_parts hc init
  have hfits : (replay step c init).2.Fits :=
    replay_invariant (P := Fits) (Q := fun _ => True) (fun s bar _ hs => fits_step hs bar) hc
      (fun _ _ => trivial)
  -- only the last bar composes what is left; every earlier composition is overwritten
  obtain ⟨composition, hcomp, h⟩ := step_eq hfits last
  rw [hmode, hparts, List.map_map] at hcomp
  refine ⟨composition, hcomp, ?_⟩
  rw [h, hparts, List.map_map]
  cases hd : (replay step c init).2
  simp only [hd] at hname hmode
  subst hname hmode
  rfl

end Combo

/-! ## Whole variants -/

namespace VariantGenerator

variable [Arith α]

/-- A generator of one component runs as the component does. -/
theorem replay_atomic (g : Generator α) (bars : List (Bar α)) :
    replay step (.atomic g) bars
      = ((replay Generator.step g bars).1, .atomic (replay Generator.step g bars).2) :=
  replay_of_commutes (fun _ _ => rfl) g bars

/-- A composite runs as its combo does. -/
theorem replay_composite (c : Combo α) (bars : List (Bar α)) :
    replay step (.composite c) bars
      = ((replay Combo.step c bars).1, .composite (replay Combo.step c bars).2) :=
  replay_of_commutes (fun _ _ => rfl) c bars

end VariantGenerator

end BotSpec
