import BotSpec.Proofs.Strategy.Pointwise
import BotSpec.Proofs.Strategy.Reset

/-!
# Warming up

A generator holds until it has seen some bars, and counts them itself. `Generator.IsWarm` says of
its counters that this is over, each in the words of its own state. How many bars it takes depends
on the settings alone (`barsNeeded`):

> `isWarm_replay_iff`: a new generator is warm after a run of bars exactly if the run is long
> enough.

The invariant is `HasSeen`: the counters tell how many bars there were. In a variant every part sees
every bar (`VariantGenerator.parts_of_ofVariant`), so each is warm on its own account.
-/

namespace BotSpec

/-! ## One bar -/

namespace Indicator

variable {α : Type} [Arith α]

/-- Each indicator counts its bars and leaves its settings alone. -/
theorem Bollinger.bars_step (s : Bollinger α) (bar : Bar α) :
    (s.step bar).2.bars = s.bars + 1 ∧ (s.step bar).2.period = s.period := by
  unfold step
  simp only
  split <;> exact ⟨rfl, rfl⟩

theorem Macd.bars_step (s : Macd α) (bar : Bar α) :
    (s.step bar).2.bars = s.bars + 1 ∧ (s.step bar).2.slow = s.slow := ⟨rfl, rfl⟩

theorem EmaCrossover.bars_step (s : EmaCrossover α) (bar : Bar α) :
    (s.step bar).2.bars = s.bars + 1 ∧ (s.step bar).2.slowPeriod = s.slowPeriod := ⟨rfl, rfl⟩

theorem Stochastic.bars_step (s : Stochastic α) (bar : Bar α) :
    (s.step bar).2.bars = s.bars + 1 ∧ (s.step bar).2.period = s.period := by
  unfold step
  simp only
  split
  next => exact ⟨rfl, rfl⟩
  next => split <;> exact ⟨rfl, rfl⟩

theorem AtrReversion.bars_step (s : AtrReversion α) (bar : Bar α) :
    (s.step bar).2.bars = s.bars + 1 ∧ (s.step bar).2.warmup = s.warmup := by
  unfold step
  simp only
  split <;> exact ⟨rfl, rfl⟩

theorem Obv.bars_step (s : Obv α) (bar : Bar α) :
    (s.step bar).2.bars = s.bars + 1 ∧ (s.step bar).2.period = s.period := by
  unfold step
  simp only
  split <;> exact ⟨rfl, rfl⟩

theorem WilliamsR.bars_step (s : WilliamsR α) (bar : Bar α) :
    (s.step bar).2.bars = s.bars + 1 ∧ (s.step bar).2.period = s.period := by
  unfold step
  simp only
  split <;> exact ⟨rfl, rfl⟩

theorem Adx.bars_step (s : Adx α) (bar : Bar α) :
    (s.step bar).2.bars = s.bars + 1 ∧ (s.step bar).2.period = s.period := by
  unfold step
  split
  next => exact ⟨rfl, rfl⟩
  next =>
    simp only
    split <;> exact ⟨rfl, rfl⟩

/-- The first bar has no change, every later one has. -/
theorem Rsi.changes_step (s : Rsi α) (bar : Bar α) :
    (s.step bar).2.previous.isSome ∧
      (s.step bar).2.changes = s.changes + (if s.previous.isSome then 1 else 0) ∧ (s.step bar).2.period = s.period := by
  unfold step
  cases s.previous with
  | none => exact ⟨rfl, rfl, rfl⟩
  | some previous =>
    simp only
    split <;> exact ⟨rfl, rfl, rfl⟩

theorem Vwap.length_window_step (s : Vwap α) (bar : Bar α) :
    (s.step bar).2.window.length = (pushWindow s.period s.window (typicalPrice bar * bar.volume, bar.volume)).length ∧
      (s.step bar).2.period = s.period := by
  unfold step
  simp only
  split
  next => exact ⟨rfl, rfl⟩
  next => split <;> exact ⟨rfl, rfl⟩

omit [Arith α] in
/-- A window is as long as the number of bars, until it is full. -/
theorem length_pushWindow {size count : Nat} {window : List α} (h : window.length = min count size) (x : α) :
    (pushWindow size window x).length = min (count + 1) size := by
  simp only [pushWindow, List.length_append, List.length_singleton]
  split
  next => rw [List.length_drop, List.length_append, List.length_singleton]; omega
  next => rw [List.length_append, List.length_singleton]; omega

/-! ## Before the first bar -/

/-- Before the first bar none is counted. -/
theorem Bollinger.bars_start {period : Nat} {multiplier : α} {s : Bollinger α}
    (h : start? period multiplier = some s) :
    s.bars = 0 ∧ s.period = period := by
  obtain ⟨d, -, rfl⟩ := Option.map_eq_some_iff.mp h
  exact ⟨rfl, rfl⟩

theorem Macd.bars_start {fast slow line : Nat} {s : Macd α} (h : start? fast slow line = some s) :
    s.bars = 0 ∧ s.slow = slow := by
  obtain ⟨d, -, rfl⟩ := Option.map_eq_some_iff.mp h
  exact ⟨rfl, rfl⟩

theorem EmaCrossover.bars_start {fast slow : Nat} {s : EmaCrossover α} (h : start? fast slow = some s) :
    s.bars = 0 ∧ s.slowPeriod = slow := by
  simp only [start?, Option.bind_eq_bind, Option.bind_eq_some_iff] at h
  obtain ⟨f, -, l, -, h⟩ := h
  cases h
  exact ⟨rfl, rfl⟩

omit [Arith α] in
theorem Stochastic.bars_start {period : Nat} {overbought oversold : α} {s : Stochastic α}
    (h : start? period overbought oversold = some s) : s.bars = 0 ∧ s.period = period := by
  simp only [start?, Option.bind_eq_bind, Option.bind_eq_some_iff] at h
  obtain ⟨highest, -, lowest, -, h⟩ := h
  cases h
  exact ⟨rfl, rfl⟩

/-- The longer of the two periods is waited for. -/
theorem AtrReversion.bars_start {rangePeriod meanPeriod : Nat} {multiplier : α} {s : AtrReversion α}
    (h : start? rangePeriod meanPeriod multiplier = some s) : s.bars = 0 ∧ s.warmup = max rangePeriod meanPeriod := by
  simp only [start?, Option.bind_eq_bind, Option.bind_eq_some_iff] at h
  obtain ⟨range, -, mean, -, h⟩ := h
  cases h
  exact ⟨rfl, rfl⟩

theorem Obv.bars_start {period : Nat} {s : Obv α} (h : start? period = some s) :
    s.bars = 0 ∧ s.period = period := by
  obtain ⟨a, -, rfl⟩ := Option.map_eq_some_iff.mp h
  exact ⟨rfl, rfl⟩

omit [Arith α] in
theorem WilliamsR.bars_start {period : Nat} {overbought oversold : α} {s : WilliamsR α}
    (h : start? period overbought oversold = some s) : s.bars = 0 ∧ s.period = period := by
  simp only [start?, Option.bind_eq_bind, Option.bind_eq_some_iff] at h
  obtain ⟨highest, -, lowest, -, h⟩ := h
  cases h
  exact ⟨rfl, rfl⟩

end Indicator

open Indicator

variable {α : Type}

/-! ## Counters -/

namespace Generator

/-- The period that the warm-up is about: the only one, the longer one, or the slow one. -/
def warmupPeriod : Generator α → Nat
  | rsi s => s.period
  | bollinger s => s.period
  | macd s => s.slow
  | emaCrossover s => s.slowPeriod
  | stochastic s => s.period
  | atrReversion s => s.warmup
  | vwap s => s.period
  | obv s => s.period
  | williamsR s => s.period
  | adx s => s.period

/-- The generator has seen enough: as many changes or bars as its period, a full window, more bars
than the slow period, or twice the period for the directional index. -/
def IsWarm : Generator α → Prop
  | rsi s => s.period ≤ s.changes
  | bollinger s => s.period ≤ s.bars
  | macd s => s.slow < s.bars
  | emaCrossover s => s.slowPeriod < s.bars
  | stochastic s => s.period ≤ s.bars
  | atrReversion s => s.warmup ≤ s.bars
  | vwap s => s.window.length = s.period
  | obv s => s.period ≤ s.bars
  | williamsR s => s.period ≤ s.bars
  | adx s => 2 * s.period ≤ s.bars

/-- How many bars the warm-up takes. -/
def barsNeeded : Generator α → Nat
  | rsi s => s.period + 1
  | macd s => s.slow + 1
  | emaCrossover s => s.slowPeriod + 1
  | adx s => 2 * s.period
  | g => g.warmupPeriod

/-- The counters of a generator that has seen so many bars. -/
def HasSeen (count : Nat) : Generator α → Prop
  | rsi s => s.previous = none ∧ s.changes = 0 ∧ count = 0 ∨ s.previous.isSome ∧ s.changes + 1 = count
  | bollinger s => s.bars = count
  | macd s => s.bars = count
  | emaCrossover s => s.bars = count
  | stochastic s => s.bars = count
  | atrReversion s => s.bars = count
  | vwap s => s.window.length = min count s.period
  | obv s => s.bars = count
  | williamsR s => s.bars = count
  | adx s => s.bars = count

/-- What of the settings the warm-up depends on. -/
structure SameWarmup (g g' : Generator α) : Prop where
  name : g.name = g'.name
  warmupPeriod : g.warmupPeriod = g'.warmupPeriod
  barsNeeded : g.barsNeeded = g'.barsNeeded

/-- The counters tell whether the generator is warm. -/
theorem HasSeen.isWarm_iff {g : Generator α} {count : Nat} (h : g.HasSeen count) (hcount : 0 < count) :
    g.IsWarm ↔ g.barsNeeded ≤ count := by
  cases g with
  | rsi s =>
    obtain ⟨-, -, hzero⟩ | ⟨-, hchanges⟩ := h
    · omega
    · show s.period ≤ s.changes ↔ s.period + 1 ≤ count
      omega
  | vwap s =>
    have hlength : s.window.length = min count s.period := h
    show s.window.length = s.period ↔ s.period ≤ count
    omega
  | _ =>
    simp only [HasSeen] at h
    subst h
    exact Iff.rfl

/-- The directional index takes twice its period, every other generator at most one bar beyond it. -/
theorem barsNeeded_le (g : Generator α) :
    (g.name = "ADX" → g.barsNeeded = 2 * g.warmupPeriod) ∧ (g.name ≠ "ADX" → g.barsNeeded ≤ g.warmupPeriod + 1) := by
  cases g <;> simp [barsNeeded, warmupPeriod, name]

/-! ## Runs -/

variable [Arith α]

/-- Before the first bar the counters are at zero. -/
theorem Fresh.hasSeen {g : Generator α} (hg : g.Fresh) : g.HasSeen 0 := by
  cases hg with
  | rsi period overbought oversold => exact .inl ⟨rfl, rfl, rfl⟩
  | bollinger h => exact (Bollinger.bars_start h).1
  | macd h => exact (Macd.bars_start h).1
  | emaCrossover h => exact (EmaCrossover.bars_start h).1
  | stochastic h => exact (Stochastic.bars_start h).1
  | atrReversion h => exact (AtrReversion.bars_start h).1
  | vwap period => exact (Nat.zero_min period).symm
  | obv h => exact (Obv.bars_start h).1
  | williamsR h => exact (WilliamsR.bars_start h).1
  | adx period threshold => rfl

/-- A bar counts as one, and leaves the settings. -/
theorem HasSeen.step {g : Generator α} {count : Nat} (h : g.HasSeen count) (bar : Bar α) :
    (g.step bar).2.HasSeen (count + 1) ∧ SameWarmup (g.step bar).2 g := by
  -- the counter of each kind; only two of them are no plain count of bars
  cases g with
  | rsi s =>
    obtain ⟨hprevious, hchanges, hperiod⟩ := s.changes_step bar
    refine ⟨.inr ⟨hprevious, ?_⟩, ⟨rfl, hperiod, congrArg (· + 1) hperiod⟩⟩
    obtain ⟨hnone, hzero, rfl⟩ | ⟨hsome, rfl⟩ := h
    · rw [hchanges, hnone, hzero]
      rfl
    · rw [hchanges, if_pos hsome]
  | bollinger s =>
    obtain ⟨hbars, hperiod⟩ := s.bars_step bar
    exact ⟨hbars.trans (congrArg (· + 1) h), ⟨rfl, hperiod, hperiod⟩⟩
  | macd s =>
    obtain ⟨hbars, hperiod⟩ := s.bars_step bar
    exact ⟨hbars.trans (congrArg (· + 1) h), ⟨rfl, hperiod, congrArg (· + 1) hperiod⟩⟩
  | emaCrossover s =>
    obtain ⟨hbars, hperiod⟩ := s.bars_step bar
    exact ⟨hbars.trans (congrArg (· + 1) h), ⟨rfl, hperiod, congrArg (· + 1) hperiod⟩⟩
  | stochastic s =>
    obtain ⟨hbars, hperiod⟩ := s.bars_step bar
    exact ⟨hbars.trans (congrArg (· + 1) h), ⟨rfl, hperiod, hperiod⟩⟩
  | atrReversion s =>
    obtain ⟨hbars, hperiod⟩ := s.bars_step bar
    exact ⟨hbars.trans (congrArg (· + 1) h), ⟨rfl, hperiod, hperiod⟩⟩
  | vwap s =>
    obtain ⟨hlength, hperiod⟩ := s.length_window_step bar
    refine ⟨?_, ⟨rfl, hperiod, hperiod⟩⟩
    show (s.step bar).2.window.length = min (count + 1) (s.step bar).2.period
    rw [hlength, hperiod, length_pushWindow h]
  | obv s =>
    obtain ⟨hbars, hperiod⟩ := s.bars_step bar
    exact ⟨hbars.trans (congrArg (· + 1) h), ⟨rfl, hperiod, hperiod⟩⟩
  | williamsR s =>
    obtain ⟨hbars, hperiod⟩ := s.bars_step bar
    exact ⟨hbars.trans (congrArg (· + 1) h), ⟨rfl, hperiod, hperiod⟩⟩
  | adx s =>
    obtain ⟨hbars, hperiod⟩ := s.bars_step bar
    exact ⟨hbars.trans (congrArg (· + 1) h), ⟨rfl, hperiod, congrArg (2 * ·) hperiod⟩⟩

theorem Fresh.hasSeen_replay {g : Generator α} (hg : g.Fresh) (bars : List (Bar α)) :
    (replay Generator.step g bars).2.HasSeen bars.length ∧ SameWarmup (replay Generator.step g bars).2 g := by
  induction bars using List.reverseRecOn with
  | nil => exact ⟨hg.hasSeen, ⟨rfl, rfl, rfl⟩⟩
  | append_singleton bars bar ih =>
    obtain ⟨hseen, hsame⟩ := ih
    obtain ⟨hseen', hsame'⟩ := hseen.step bar
    rw [replay_concat, List.length_append, List.length_singleton]
    exact ⟨hseen', ⟨hsame'.name.trans hsame.name, hsame'.warmupPeriod.trans hsame.warmupPeriod,
      hsame'.barsNeeded.trans hsame.barsNeeded⟩⟩

/-- **A run warms a new generator up exactly if it is long enough.** -/
theorem Fresh.isWarm_replay_iff {g : Generator α} (hg : g.Fresh) {bars : List (Bar α)} (hbars : bars ≠ []) :
    (replay Generator.step g bars).2.IsWarm ↔ g.barsNeeded ≤ bars.length := by
  obtain ⟨hseen, hsame⟩ := hg.hasSeen_replay bars
  rw [hseen.isWarm_iff (List.length_pos_iff.mpr hbars), hsame.barsNeeded]

end Generator

/-! ## Periods from parameters -/

/-- A period is read from the value of its role. -/
theorem ComponentParams.exists_value_of_period {c : ComponentParams} {role : ParamRole} {n : Nat}
    (h : c.period role = .ok n) : ∃ value, c.get? role = some value ∧ periodOf value = .ok n := by
  obtain ⟨value, hlevel, h⟩ := exists_of_bind_eq_ok h
  refine ⟨value, ?_, ?_⟩
  · unfold level at hlevel
    split at hlevel
    next hget =>
      cases hlevel
      exact hget
    next => cases hlevel
  · split at h
    next hperiod =>
      cases h
      exact hperiod
    next => cases h

/-- The warm-up period of a generator is one of its periods. -/
theorem Generator.exists_period_of_ofComponent {kind : IndicatorKind} {c : ComponentParams} {g : Generator Float}
    (h : ofComponent kind c = .ok g) : ∃ role, c.period role = .ok g.warmupPeriod := by
  cases builtFrom_of_ofComponent h with
  | rsi hperiod => exact ⟨_, hperiod⟩
  | bollinger hperiod hs => exact ⟨_, (Bollinger.bars_start hs).2 ▸ hperiod⟩
  | macd _ hslow _ hs => exact ⟨_, (Macd.bars_start hs).2 ▸ hslow⟩
  | emaCrossover _ hslow hs => exact ⟨_, (EmaCrossover.bars_start hs).2 ▸ hslow⟩
  | stochastic hperiod hs => exact ⟨_, (Stochastic.bars_start hs).2 ▸ hperiod⟩
  | @atrReversion rangePeriod meanPeriod _ s hrange hmean hs =>
    have hwarmup : (atrReversion s).warmupPeriod = max rangePeriod meanPeriod := (AtrReversion.bars_start hs).2
    rw [hwarmup]
    -- the longer of two periods is one of them
    rcases Nat.le_total rangePeriod meanPeriod with hle | hle
    · exact ⟨.smaPeriod, by rw [hmean, Nat.max_eq_right hle]⟩
    · exact ⟨.atrPeriod, by rw [hrange, Nat.max_eq_left hle]⟩
  | vwap hperiod => exact ⟨_, hperiod⟩
  | obv hperiod hs => exact ⟨_, (Obv.bars_start hs).2 ▸ hperiod⟩
  | williamsR hperiod hs => exact ⟨_, (WilliamsR.bars_start hs).2 ▸ hperiod⟩
  | adx hperiod => exact ⟨_, hperiod⟩

/-! ## Parts of a variant -/

namespace VariantGenerator

/-- The generators of the components. -/
def parts : VariantGenerator α → List (Generator α)
  | atomic g => [g]
  | composite c => c.parts

/-- Every part of a variant is built from a component's parameters, and runs as if it were alone. -/
theorem parts_of_ofVariant {v : Variant} {params : CanonicalParams} {g : VariantGenerator Float}
    (h : ofVariant v params = .ok g) :
    (∀ part ∈ g.parts, ∃ kind, ∃ c ∈ params.components, Generator.ofComponent kind c = .ok part) ∧
      ∀ bars, (replay step g bars).2.parts = g.parts.map fun part => (replay Generator.step part bars).2 := by
  obtain ⟨generators, hgenerators, h⟩ := exists_of_bind_eq_ok h
  have hbuilt : ∀ part ∈ generators, ∃ kind, ∃ c ∈ params.components, Generator.ofComponent kind c = .ok part := by
    intro part hpart
    obtain ⟨⟨component, c⟩, hmem, hcomponent⟩ := exists_of_mem_mapM hgenerators hpart
    exact ⟨component.indicator, c, (List.of_mem_zip hmem).2, hcomponent⟩
  cases hmode : v.mode with
  | none =>
    rw [hmode] at h
    -- an atomic variant has one component, so the last generator is the only one
    cases hlast : generators.getLast? with
    | none => rw [hlast] at h; cases h
    | some g' =>
      rw [hlast] at h
      cases h
      refine ⟨fun part hpart => ?_, fun bars => by rw [replay_atomic]; rfl⟩
      obtain rfl := List.mem_singleton.mp hpart
      exact hbuilt _ (List.mem_of_getLast? hlast)
  | some mode =>
    rw [hmode] at h
    obtain ⟨c, hc, h⟩ := exists_of_bind_eq_ok h
    cases h
    obtain ⟨hadmits, rfl⟩ := Combo.ofParts_eq_ok_iff.mp hc
    -- a composite fits its mode, so composing does not stop the run
    have hfits : (Combo.mk v.name generators mode none).Fits := CompositionMode.misfit?_eq_none_iff.mpr hadmits
    refine ⟨hbuilt, fun bars => ?_⟩
    rw [replay_composite]
    exact (Combo.replay_parts hfits bars).2.2

end VariantGenerator

end BotSpec
