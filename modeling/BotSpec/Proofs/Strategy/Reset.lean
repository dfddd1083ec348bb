import BotSpec.Proofs.Indicator.Reset
import BotSpec.Proofs.Indicator.Stochastic
import BotSpec.Proofs.Indicator.WilliamsR
import BotSpec.Proofs.Market.Candle
import BotSpec.Proofs.Strategy.Built
import BotSpec.Proofs.Strategy.Run

/-!
# A reset is a fresh start

A generator that has seen some bars and is reset says of later bars what a new one says: the same
votes, and readings that are the same numbers. A combo resets its parts, so the same holds of it,
with the same compositions:

> `reset_is_fresh_start`: for every generator and every combo of generators, whatever candles came
> before the reset.

For eight generators the reset one is the new one (`again_eq`). The rings of the other two keep
their places over a reset; these generators say what their formulas say of the bars since then,
which does not look at the places (`Stochastic.Follows.replay`, `WilliamsR.Follows.replay`).
-/

namespace BotSpec

open Indicator
open Arith (Same)

variable {α : Type} [Arith α]

namespace Generator

/-- A generator before its first bar. -/
inductive Fresh : Generator α → Prop where
  | rsi (period : Nat) (overbought oversold : α) : Fresh (.rsi (.start period overbought oversold))
  | bollinger {period : Nat} {multiplier : α} {s : Bollinger α}
      (h : Bollinger.start? period multiplier = some s) : Fresh (.bollinger s)
  | macd {fast slow line : Nat} {s : Macd α} (h : Macd.start? fast slow line = some s) :
      Fresh (.macd s)
  | emaCrossover {fast slow : Nat} {s : EmaCrossover α} (h : EmaCrossover.start? fast slow = some s) :
      Fresh (.emaCrossover s)
  | stochastic {period : Nat} {overbought oversold : α} {s : Stochastic α}
      (h : Stochastic.start? period overbought oversold = some s) : Fresh (.stochastic s)
  | atrReversion {rangePeriod meanPeriod : Nat} {multiplier : α} {s : AtrReversion α}
      (h : AtrReversion.start? rangePeriod meanPeriod multiplier = some s) : Fresh (.atrReversion s)
  | vwap (period : Nat) : Fresh (.vwap (.start period))
  | obv {period : Nat} {s : Obv α} (h : Obv.start? period = some s) : Fresh (.obv s)
  | williamsR {period : Nat} {overbought oversold : α} {s : WilliamsR α}
      (h : WilliamsR.start? period overbought oversold = some s) : Fresh (.williamsR s)
  | adx (period : Nat) (threshold : α) : Fresh (.adx (.start period threshold))

/-- The generator that has seen some bars, reset. -/
def again (g : Generator α) (bars : List (Bar α)) : Generator α := (replay step g bars).2.reset

/-- Two generators say the same after a bar: one vote, and readings that are identical or equal
numbers. -/
structure Agrees (r r' : Signal × Generator α) : Prop where
  vote : r.1 = r'.1
  reading : Option.Rel Same r.2.reading r'.2.reading

theorem Agrees.refl (r : Signal × Generator α) : Agrees r r where
  vote := rfl
  reading := by
    cases r.2.reading with
    | none => exact .none
    | some x => exact .some (.refl x)

end Generator

/-- Values that are the same as a third one are the same. -/
theorem rel_same_of_rel_same [LawfulArith α] {x y z : Option α} (hx : Option.Rel Same x z)
    (hy : Option.Rel Same y z) : Option.Rel Same x y := by
  cases hx with
  | none =>
    cases hy
    exact .none
  | some hx =>
    cases hy with
    | some hy => exact .some (hx.trans hy.symm)

namespace Generator

section Wrapped

variable {β : Type} (make : β → Generator α) (next : β → Bar α → Signal × β) (rewind : β → β)
  (hstep : ∀ s bar, (make s).step bar = wrap make (next s bar))
  (hreset : ∀ s, (make s).reset = make (rewind s))

include hstep

/-- A generator runs as the indicator in it. -/
theorem replay_make (s : β) (bars : List (Bar α)) :
    replay step (make s) bars = ((replay next s bars).1, make (replay next s bars).2) :=
  replay_of_commutes hstep s bars

include hreset

/-- For an indicator without a ring, another run starts from its reset. -/
theorem again_make (s : β) (bars : List (Bar α)) :
    (make s).again bars = make (rewind (replay next s bars).2) := by
  rw [again, replay_make make next hstep, hreset]

/-- Where a step leaves the reset state alone, the generator that is reset is the new one. -/
theorem again_eq (hkeep : ∀ s bar, rewind (next s bar).2 = rewind s) {s : β} (hs : rewind s = s)
    (bars : List (Bar α)) : (make s).again bars = make s := by
  have hrun : rewind (replay next s bars).2 = s :=
    replay_invariant (Q := fun _ => True) (fun t bar _ ht => (hkeep t bar).trans ht) hs
      (fun _ _ => trivial)
  rw [again_make make next rewind hstep hreset, hrun]

/-- Where the reset state says of later bars what a formula says, and the new one too, both say the
same. -/
theorem again_agrees_of_formula [LawfulArith α] {s : β} {before after : List (Bar α)} {vote : Signal}
    {value : Option α}
    (hfresh : (replay next s after).1 = vote ∧
      Option.Rel Same (make (replay next s after).2).reading value)
    (hagain : (replay next (rewind (replay next s before).2) after).1 = vote ∧
      Option.Rel Same (make (replay next (rewind (replay next s before).2) after).2).reading value) :
    Agrees (replay step ((make s).again before) after) (replay step (make s) after) := by
  rw [again_make make next rewind hstep hreset, replay_make make next hstep,
    replay_make make next hstep]
  exact ⟨hagain.1.trans hfresh.1.symm, rel_same_of_rel_same hagain.2 hfresh.2⟩

end Wrapped

variable [LawfulArith α]

/-- A generator that is reset says what the new one says. -/
theorem Fresh.again_agrees {g : Generator α} (hg : g.Fresh) {before after : List (Bar α)}
    (hbefore : ∀ bar ∈ before, IsPriced bar) (hafter : ∀ bar ∈ after, IsPriced bar) :
    Agrees (replay step (g.again before) after) (replay step g after) := by
  have hsame : ∀ {g : Generator α}, g.again before = g →
      Agrees (replay step (g.again before) after) (replay step g after) := by
    intro g h
    rw [h]
    exact .refl _
  cases hg with
  | rsi period overbought oversold =>
    exact hsame (again_eq .rsi Rsi.step Rsi.reset (fun _ _ => rfl)
      (fun _ => rfl) Rsi.reset_step rfl before)
  | bollinger h =>
    exact hsame (again_eq .bollinger Bollinger.step Bollinger.reset (fun _ _ => rfl)
      (fun _ => rfl) Bollinger.reset_step (Bollinger.reset_start h) before)
  | macd h =>
    exact hsame (again_eq .macd Macd.step Macd.reset (fun _ _ => rfl)
      (fun _ => rfl) Macd.reset_step (Macd.reset_start h) before)
  | emaCrossover h =>
    exact hsame (again_eq .emaCrossover EmaCrossover.step EmaCrossover.reset (fun _ _ => rfl)
      (fun _ => rfl) EmaCrossover.reset_step (EmaCrossover.reset_start h) before)
  | atrReversion h =>
    exact hsame (again_eq .atrReversion AtrReversion.step AtrReversion.reset (fun _ _ => rfl)
      (fun _ => rfl) AtrReversion.reset_step (AtrReversion.reset_start h) before)
  | vwap period =>
    exact hsame (again_eq .vwap Vwap.step Vwap.reset (fun _ _ => rfl)
      (fun _ => rfl) Vwap.reset_step rfl before)
  | obv h =>
    exact hsame (again_eq .obv Obv.step Obv.reset (fun _ _ => rfl)
      (fun _ => rfl) Obv.reset_step (Obv.reset_start h) before)
  | adx period threshold =>
    exact hsame (again_eq .adx Adx.step Adx.reset (fun _ _ => rfl)
      (fun _ => rfl) Adx.reset_step rfl before)
  | @stochastic period overbought oversold s h =>
    -- both the reset and the new one say what the formula says of the later bars
    have hstart := Stochastic.follows_start h
    obtain ⟨-, hseen⟩ := hstart.replay hbefore
    obtain ⟨hvote, hfollows⟩ := hstart.replay hafter
    obtain ⟨hvote', hfollows'⟩ := hseen.reset.replay hafter
    exact again_agrees_of_formula .stochastic Stochastic.step Stochastic.reset (fun _ _ => rfl) (fun _ => rfl)
      ⟨hvote, hfollows.reading⟩ ⟨hvote', hfollows'.reading⟩
  | @williamsR period overbought oversold s h =>
    have hstart := WilliamsR.follows_start h
    obtain ⟨-, hseen⟩ := hstart.replay hbefore
    obtain ⟨hvote, hfollows⟩ := hstart.replay hafter
    obtain ⟨hvote', hfollows'⟩ := hseen.reset.replay hafter
    exact again_agrees_of_formula .williamsR WilliamsR.step WilliamsR.reset (fun _ _ => rfl) (fun _ => rfl)
      ⟨hvote, hfollows.reading⟩ ⟨hvote', hfollows'.reading⟩

end Generator

/-! ## Combos -/

namespace Combo

/-- The combo that has seen some bars, reset. -/
def again (c : Combo α) (bars : List (Bar α)) : Combo α := (replay step c bars).2.reset

/-- Two combos say the same after a bar, for the same reason. -/
structure Agrees (r r' : Signal × Combo α) : Prop where
  vote : r.1 = r'.1
  reading : Option.Rel Same r.2.reading r'.2.reading
  last : r.2.last = r'.2.last

/-- Resetting a combo resets its parts. -/
theorem again_eq {c : Combo α} (hc : c.Fits) (bars : List (Bar α)) :
    c.again bars = ⟨c.name, c.parts.map fun g => g.again bars, c.mode, none⟩ := by
  obtain ⟨hname, hmode, hparts⟩ := replay_parts hc bars
  rw [again, reset, hname, hmode, hparts, List.map_map]
  rfl

/-- The readings of two combos are the same if those of their parts are. -/
theorem reading_same {gs : List (Generator α)} {f f' : Generator α → Generator α}
    (h : ∀ g ∈ gs, Option.Rel Same (f g).reading (f' g).reading) {c c' : Combo α}
    (hc : c.parts = gs.map f) (hc' : c'.parts = gs.map f') : Option.Rel Same c.reading c'.reading := by
  rw [reading, reading, hc, hc']
  cases gs with
  | nil => exact .none
  | cons g gs => exact h g List.mem_cons_self

variable [LawfulArith α]

/-- A combo that is reset says what the new one says. -/
theorem again_agrees {name : String} {parts : List (Generator α)} {mode : CompositionMode}
    {c : Combo α} (hstart : start name parts mode = .ok c) (hparts : ∀ g ∈ parts, g.Fresh)
    {before after : List (Bar α)} (hbefore : ∀ bar ∈ before, IsPriced bar)
    (hafter : ∀ bar ∈ after, IsPriced bar) :
    Agrees (replay step (c.again before) after) (replay step c after) := by
  obtain ⟨hfits, rfl⟩ := fits_of_start hstart
  have hagree := fun g hg => (hparts g hg).again_agrees hbefore hafter
  rw [again_eq hfits]
  have hfits' : Fits ⟨name, parts.map fun g => g.again before, mode, none⟩ := by
    show mode.misfit? (parts.map _).length = none
    rw [List.length_map]
    exact hfits
  have hreading : Option.Rel Same
      (replay step (⟨name, parts.map fun g => g.again before, mode, none⟩ : Combo α) after).2.reading
      (replay step (⟨name, parts, mode, none⟩ : Combo α) after).2.reading := by
    refine reading_same (fun g hg => (hagree g hg).reading) ?_ (replay_parts hfits after).2.2
    rw [(replay_parts hfits' after).2.2, List.map_map]
    rfl
  by_cases hnil : after = []
  · subst hnil
    exact ⟨rfl, hreading, rfl⟩
  · obtain ⟨composition, hcompose, hrun⟩ := replay_eq hfits hnil
    obtain ⟨composition', hcompose', hrun'⟩ := replay_eq hfits' hnil
    -- the same votes are composed
    have hvotes : ((parts.map fun g => g.again before).map fun g => (replay Generator.step g after).1)
        = parts.map fun g => (replay Generator.step g after).1 := by
      rw [List.map_map]
      exact List.map_congr_left fun g hg => (hagree g hg).vote
    rw [hvotes] at hcompose'
    have hsame : composition' = composition := Except.ok.inj (hcompose'.symm.trans hcompose)
    subst hsame
    refine ⟨?_, hreading, ?_⟩
    · rw [hrun, hrun']
    · rw [hrun, hrun']

end Combo

/-! ## Generators that can be built -/

/-- Every generator that is built from parameters is before its first bar. -/
theorem Generator.fresh_of_ofComponent {kind : IndicatorKind} {params : ComponentParams}
    {g : Generator Float} (h : ofComponent kind params = .ok g) : g.Fresh := by
  cases builtFrom_of_ofComponent h with
  | rsi => exact .rsi ..
  | bollinger _ hs => exact .bollinger hs
  | macd _ _ _ hs => exact .macd hs
  | emaCrossover _ _ hs => exact .emaCrossover hs
  | stochastic _ hs => exact .stochastic hs
  | atrReversion _ _ hs => exact .atrReversion hs
  | vwap => exact .vwap _
  | obv _ hs => exact .obv hs
  | williamsR _ hs => exact .williamsR hs
  | adx => exact .adx ..

/-- **A reset is a fresh start.** For every generator that can be built and every combo of such
generators: after any candles and a reset it says after any later candles, and before the first of
them, what it says when it is new. -/
theorem reset_is_fresh_start :
    (∀ (kind : IndicatorKind) (params : ComponentParams) (g : Generator Float),
      Generator.ofComponent kind params = .ok g → ∀ before after : List Candle,
        Generator.Agrees
          (replay Generator.step (g.again (before.map Candle.bar)) (after.map Candle.bar))
          (replay Generator.step g (after.map Candle.bar))) ∧
    ∀ (name : String) (parts : List (Generator Float)) (mode : CompositionMode) (c : Combo Float),
      (∀ g ∈ parts, ∃ kind params, Generator.ofComponent kind params = .ok g) →
      Combo.start name parts mode = .ok c → ∀ before after : List Candle,
        Combo.Agrees
          (replay Combo.step (c.again (before.map Candle.bar)) (after.map Candle.bar))
          (replay Combo.step c (after.map Candle.bar)) := by
  constructor
  · intro kind params g hg before after
    exact (Generator.fresh_of_ofComponent hg).again_agrees
      (fun bar => Candle.isPriced_of_mem_bars)
      (fun bar => Candle.isPriced_of_mem_bars)
  · intro name parts mode c hparts hstart before after
    have hfresh : ∀ g ∈ parts, g.Fresh := by
      intro g hg
      obtain ⟨kind, params, hbuilt⟩ := hparts g hg
      exact Generator.fresh_of_ofComponent hbuilt
    exact Combo.again_agrees hstart hfresh
      (fun bar => Candle.isPriced_of_mem_bars)
      (fun bar => Candle.isPriced_of_mem_bars)

/-- A combo whose rings have been left at other places than they start from, and a close near the
low of the range. -/
theorem reset_is_fresh_start_unanimous :
    let candle := fun high low close : Nat =>
      (⟨.ofCount 100, .ofCount high.toUInt32, .ofCount low.toUInt32, .ofCount close.toUInt32, .one⟩ : Candle)
    let params := Component.bind ⟨.williamsR, Schema.alone .williamsR⟩
      (ParamSet.ofList [("period", 2), ("overbought", -20), ("oversold", -70)])
    let before := [candle 500 10 400, candle 110 90 105, candle 120 80 100]
    let after := [candle 110 95 100, candle 105 90 95]
    ∃ g c, Generator.ofComponent .williamsR params = .ok g ∧
      Combo.start "both" [g, g] .unanimous = .ok c ∧
      (replay Generator.step (g.again (before.map Candle.bar)) (after.map Candle.bar)).1 = .buy ∧
      (replay Combo.step (c.again (before.map Candle.bar)) (after.map Candle.bar)).1 = .buy := by
  intro candle params before after
  obtain ⟨g, c, hg, hc, hvote, hcombined⟩ : ∃ g c, Generator.ofComponent .williamsR params = .ok g ∧
      Combo.start "both" [g, g] .unanimous = .ok c ∧
      (replay Generator.step g (after.map Candle.bar)).1 = .buy ∧
      (replay Combo.step c (after.map Candle.bar)).1 = .buy :=
    ⟨_, _, rfl, rfl, by decide +kernel, by decide +kernel⟩
  obtain ⟨hgenerators, hcombos⟩ := reset_is_fresh_start
  have hparts : ∀ part ∈ [g, g], ∃ kind params, Generator.ofComponent kind params = .ok part := by
    intro part hpart
    have hpart : part = g := by simpa using hpart
    exact ⟨.williamsR, params, by rw [hpart, hg]⟩
  refine ⟨g, c, hg, hc, ?_, ?_⟩
  · rw [(hgenerators .williamsR params g hg before after).vote]
    exact hvote
  · rw [(hcombos "both" [g, g] .unanimous c hparts hc before after).vote]
    exact hcombined

end BotSpec
