import Mathlib.Data.List.Sort
import BotSpec.Proofs.Strategy.Decision
import BotSpec.Proofs.Strategy.Warmup

/-!
# The first vote

Every generator gates its vote with a counter of its own: changes or bars that it has seen, the
length of a window, or how long %K has been there. Counted in bars since the last reset, each gate
opens at a bar that the settings tell (`IndicatorKind.firstVote`), and the value appears at another
one (`IndicatorKind.firstValue`).

> `no_vote_before_warmup`: before that bar a generator holds, and has no value; and a variant holds
> as long as too few of its components can vote.

One invariant carries this through bars and resets (`Generator.Waits`): the counters tell how many
bars there were, and what is gated is not there yet. A step keeps it and holds below the gate
(`Waits.step`), a reset starts it again (`Waits.reset`). In a composite a direction that is carried
needs votes for it, and so gates that are open (`firstVote_le_of_carries`).
-/

namespace BotSpec

/-! ## Below the gate -/

namespace Indicator

open Arith

variable {α : Type} [Arith α]

/-- While changes are missing there is neither a vote nor a reading. -/
theorem Rsi.step_of_lt {s : Rsi α} (h : s.previous = none ∨ s.changes + 1 < s.period) (bar : Bar α) :
    (s.step bar).1 = .hold ∧ (s.step bar).2.reading = s.reading := by
  unfold step
  rcases h with hnone | hlt
  · rw [hnone]
    exact ⟨rfl, rfl⟩
  · cases s.previous with
    | none => exact ⟨rfl, rfl⟩
    | some previous =>
      simp only [if_pos hlt, and_self]

/-- The window of the bands is not full yet. -/
theorem Bollinger.step_of_lt {s : Bollinger α} (h : s.bars + 1 < s.period) (bar : Bar α) :
    (s.step bar).1 = .hold ∧ (s.step bar).2.middle = s.middle := by
  unfold step
  simp only [if_pos h, and_self]

/-- There have to be more closes than the slow period. -/
theorem Macd.step_of_le {s : Macd α} (h : s.bars + 1 ≤ s.slow) (bar : Bar α) :
    (s.step bar).1 = .hold ∧ (s.step bar).2.reading = s.reading := by
  have hwarm : decide (s.bars + 1 > s.slow) = false := decide_eq_false (by omega)
  unfold step
  simp only [hwarm]
  exact ⟨rfl, rfl⟩

/-- The slow average has to be full, as for the MACD, but this crossover has no reading of its own. -/
theorem EmaCrossover.step_of_le {s : EmaCrossover α} (h : s.bars + 1 ≤ s.slowPeriod) (bar : Bar α) :
    (s.step bar).1 = .hold := if_pos h

theorem AtrReversion.step_of_lt {s : AtrReversion α} (h : s.bars + 1 < s.warmup) (bar : Bar α) :
    (s.step bar).1 = .hold ∧ (s.step bar).2.reading = s.reading := by
  unfold step
  simp only [if_pos h, and_self]

/-- The window decides, since there is no other counter. -/
theorem Vwap.step_of_lt {s : Vwap α} {bar : Bar α}
    (h : (pushWindow s.period s.window (typicalPrice bar * bar.volume, bar.volume)).length < s.period) :
    (s.step bar).1 = .hold ∧ (s.step bar).2.reading = s.reading := by
  unfold step
  simp only [if_pos h, and_self]

/-- The vote waits for the mean; the balance itself does not. -/
theorem Obv.step_of_lt {s : Obv α} (h : s.bars + 1 < s.period) (bar : Bar α) : (s.step bar).1 = .hold := by
  unfold step
  simp only [if_pos h]

/-- Below its gate the reading is taken away, and not only kept. -/
theorem WilliamsR.step_of_lt {s : WilliamsR α} (h : s.bars + 1 < s.period) (bar : Bar α) :
    (s.step bar).1 = .hold ∧ (s.step bar).2.reading = none := by
  unfold step
  simp only [if_pos (Or.inl h), and_self]

/-- The vote waits for two periods; the reading comes with the first move. -/
theorem Adx.step_of_lt {s : Adx α} (h : s.bars + 1 < s.period * 2) (bar : Bar α) : (s.step bar).1 = .hold := by
  unfold step
  split
  next => rfl
  next =>
    simp only
    split
    next => rfl
    next => simp only [if_pos (Or.inl h)]

theorem Adx.reading_step_of_none {s : Adx α} (h : s.previous = none) (bar : Bar α) :
    (s.step bar).2.reading = s.reading := by
  unfold step
  rw [h]

/-- The values of %K since there are any, and what they let a vote be about. -/
structure Stochastic.Pending (count : Nat) (s : Stochastic α) : Prop where
  recent : s.recent.length ≤ count + 1 - s.period
  previous : s.previous.isSome → s.period + 2 ≤ count

/-- Without a full range there is no %K. -/
theorem Stochastic.step_of_lt {s : Stochastic α} (h : s.bars + 1 < s.period) (bar : Bar α) :
    (s.step bar).2.k = none := by
  unfold step
  simp only [if_pos (Or.inl h)]

/-! ## Rings before the first bar -/

omit [Arith α] in
theorem Extremum.reset_start {side : Side} {period : Nat} {e : Extremum α} (h : start? side period = some e) :
    e.reset = e := by
  unfold start? at h
  split at h
  next => cases h
  next =>
    cases h
    simp [reset, start]

omit [Arith α] in
/-- A fresh oscillator is its own reset, since its two rings are. -/
theorem Stochastic.reset_start {period : Nat} {overbought oversold : α} {s : Stochastic α}
    (h : start? period overbought oversold = some s) : s.reset = s := by
  simp only [start?, Option.bind_eq_bind, Option.bind_eq_some_iff] at h
  obtain ⟨highest, hhighest, lowest, hlowest, heq⟩ := h
  cases heq
  simp only [reset, Extremum.reset_start hhighest, Extremum.reset_start hlowest]

omit [Arith α] in
theorem WilliamsR.reset_start {period : Nat} {overbought oversold : α} {s : WilliamsR α}
    (h : start? period overbought oversold = some s) : s.reset = s := by
  simp only [start?, Option.bind_eq_bind, Option.bind_eq_some_iff] at h
  obtain ⟨highest, hhighest, lowest, hlowest, heq⟩ := h
  cases heq
  simp only [reset, Extremum.reset_start hhighest, Extremum.reset_start hlowest]

omit [Arith α] in
theorem length_pushWindow_le (size : Nat) (window : List α) (x : α) :
    (pushWindow size window x).length ≤ window.length + 1 := by
  unfold pushWindow
  simp only
  split
  next => rw [List.length_drop, List.length_append, List.length_singleton]; omega
  next => rw [List.length_append, List.length_singleton]

/-- A cross takes three values of %K, and the pair of the bar before. -/
theorem Stochastic.Pending.step {s : Stochastic α} {count : Nat} (h : s.Pending count) (hbars : s.bars = count)
    (bar : Bar α) :
    (s.step bar).2.Pending (count + 1) ∧ (count + 1 < s.period + 3 → (s.step bar).1 = .hold) := by
  subst hbars
  unfold Stochastic.step
  simp only
  split
  next => exact ⟨⟨Nat.zero_le _, nofun⟩, fun _ => rfl⟩
  next hdefined =>
    have hrecent := h.recent
    have hlength := length_pushWindow_le 3 s.recent
      (ofNat 100 * (bar.close - (s.lowest.next bar.low).1) / ((s.highest.next bar.high).1 - (s.lowest.next bar.low).1))
    have hperiod : s.period ≤ s.bars + 1 := by omega
    split
    next => exact ⟨⟨by simp only; omega, nofun⟩, fun _ => rfl⟩
    next hthree =>
      refine ⟨⟨by simp only; omega, fun _ => by simp only; omega⟩, fun hlt => ?_⟩
      cases hprevious : s.previous with
      | none => rfl
      | some pair =>
        have hpair := h.previous (by rw [hprevious]; rfl)
        omega

end Indicator

open Indicator

/-! ## The two bars -/

namespace Generator

variable {α : Type}

/-- The first bar that a vote can be given on. A cross of %K takes two pairs, each with a mean of
three values. -/
def firstVote : Generator α → Nat
  | stochastic s => s.period + 3
  | g => g.barsNeeded

/-- The first bar after which there can be a value. The balance of volumes has one from the start,
the directional index from its first move on. -/
def firstValue : Generator α → Nat
  | obv _ => 1
  | adx _ => 2
  | g => g.barsNeeded

/-- What the counters alone do not tell after so many bars: %K and its pairs, and whether there was
a move. -/
def Pending (count : Nat) : Generator α → Prop
  | stochastic s => s.Pending count
  | adx s => count = 0 → s.previous = none
  | _ => True

variable [Arith α]

/-- The generator has seen so many bars since it started over, and has nothing before its time. -/
structure Waits (vote value count : Nat) (g : Generator α) : Prop where
  seen : g.HasSeen count
  pending : g.Pending count
  firstVote : g.firstVote = vote
  firstValue : g.firstValue = value
  silent : count < value → g.reading = none

variable {g : Generator α} {vote value count : Nat}

theorem firstVote_step (h : g.HasSeen count) (bar : Bar α) : (g.step bar).2.firstVote = g.firstVote := by
  cases g with
  | stochastic s => exact congrArg (· + 3) (s.bars_step bar).2
  | _ => exact (h.step bar).2.barsNeeded

theorem firstValue_step (h : g.HasSeen count) (bar : Bar α) : (g.step bar).2.firstValue = g.firstValue := by
  cases g with
  | obv s => rfl
  | adx s => rfl
  | _ => exact (h.step bar).2.barsNeeded

/-- Nothing is waited for but the next bar: what is gated stays away below the gate. -/
theorem Waits.gated (h : g.Waits vote value count) (bar : Bar α) :
    (g.step bar).2.Pending (count + 1) ∧ (count + 1 < vote → (g.step bar).1 = .hold) ∧
      (count + 1 < value → (g.step bar).2.reading = none) := by
  obtain ⟨hseen, hpending, rfl, rfl, hsilent⟩ := h
  -- one case for each counter: the gate of the step is the bound of the claim, shifted by this bar
  cases g with
  | rsi s =>
    have hgate : count + 1 < s.period + 1 → s.previous = none ∨ s.changes + 1 < s.period := by
      intro hlt
      obtain ⟨hnone, -, -⟩ | ⟨-, hchanges⟩ := hseen
      · exact .inl hnone
      · exact .inr (by omega)
    refine ⟨trivial, fun hlt => (Rsi.step_of_lt (hgate hlt) bar).1, fun hlt => ?_⟩
    exact (Rsi.step_of_lt (hgate hlt) bar).2.trans (hsilent (Nat.lt_of_succ_lt hlt))
  | bollinger s =>
    obtain rfl : s.bars = count := hseen
    refine ⟨trivial, fun hlt => (Bollinger.step_of_lt hlt bar).1, fun hlt => ?_⟩
    exact (Bollinger.step_of_lt hlt bar).2.trans (hsilent (Nat.lt_of_succ_lt hlt))
  | macd s =>
    obtain rfl : s.bars = count := hseen
    refine ⟨trivial, fun hlt => (Macd.step_of_le (Nat.le_of_lt_succ hlt) bar).1, fun hlt => ?_⟩
    exact (Macd.step_of_le (Nat.le_of_lt_succ hlt) bar).2.trans (hsilent (Nat.lt_of_succ_lt hlt))
  | emaCrossover s =>
    obtain rfl : s.bars = count := hseen
    exact ⟨trivial, fun hlt => EmaCrossover.step_of_le (Nat.le_of_lt_succ hlt) bar,
      fun hlt => if_neg (Nat.not_lt.mpr (Nat.le_of_lt_succ hlt))⟩
  | stochastic s =>
    obtain rfl : s.bars = count := hseen
    obtain ⟨hafter, hhold⟩ := Stochastic.Pending.step hpending rfl bar
    exact ⟨hafter, hhold, fun hlt => Stochastic.step_of_lt hlt bar⟩
  | atrReversion s =>
    obtain rfl : s.bars = count := hseen
    refine ⟨trivial, fun hlt => (AtrReversion.step_of_lt hlt bar).1, fun hlt => ?_⟩
    exact (AtrReversion.step_of_lt hlt bar).2.trans (hsilent (Nat.lt_of_succ_lt hlt))
  | vwap s =>
    have hlength := length_pushWindow hseen (Vwap.typicalPrice bar * bar.volume, bar.volume)
    have hgate : count + 1 < s.period →
        (pushWindow s.period s.window (Vwap.typicalPrice bar * bar.volume, bar.volume)).length < s.period := by
      omega
    refine ⟨trivial, fun hlt => (Vwap.step_of_lt (hgate hlt)).1, fun hlt => ?_⟩
    exact (Vwap.step_of_lt (hgate hlt)).2.trans (hsilent (Nat.lt_of_succ_lt hlt))
  | obv s =>
    obtain rfl : s.bars = count := hseen
    refine ⟨trivial, fun hlt => Obv.step_of_lt hlt bar, fun hlt => ?_⟩
    exact absurd (Nat.lt_of_succ_lt_succ hlt) (Nat.not_lt_zero _)
  | williamsR s =>
    obtain rfl : s.bars = count := hseen
    exact ⟨trivial, fun hlt => (WilliamsR.step_of_lt hlt bar).1, fun hlt => (WilliamsR.step_of_lt hlt bar).2⟩
  | adx s =>
    obtain rfl : s.bars = count := hseen
    have hgate : s.bars + 1 < 2 * s.period → (s.step bar).1 = .hold := fun hlt => Adx.step_of_lt (by omega) bar
    refine ⟨fun h => absurd h (Nat.succ_ne_zero _), hgate, fun hlt => ?_⟩
    -- the index needs a move, and the first bar makes none
    have hfirst : s.previous = none := hpending (Nat.lt_one_iff.mp (Nat.lt_of_succ_lt_succ hlt))
    exact (Adx.reading_step_of_none hfirst bar).trans (hsilent (Nat.lt_of_succ_lt hlt))

/-- **One bar more.** What was waited for is one bar nearer, and nothing came before its time. -/
theorem Waits.step (h : g.Waits vote value count) (bar : Bar α) :
    (g.step bar).2.Waits vote value (count + 1) := by
  obtain ⟨hpending, -, hsilent⟩ := h.gated bar
  exact {
    seen := (h.seen.step bar).1
    pending := hpending
    firstVote := (firstVote_step h.seen bar).trans h.firstVote
    firstValue := (firstValue_step h.seen bar).trans h.firstValue
    silent := hsilent }

/-- A reset leaves the settings, and nothing else. -/
theorem waits_reset (g : Generator α) : g.reset.Waits g.firstVote g.firstValue 0 := by
  cases g with
  | rsi s => exact ⟨.inl ⟨rfl, rfl, rfl⟩, trivial, rfl, rfl, fun _ => rfl⟩
  | vwap s => exact ⟨(Nat.zero_min _).symm, trivial, rfl, rfl, fun _ => rfl⟩
  | stochastic s => exact ⟨rfl, ⟨Nat.zero_le _, nofun⟩, rfl, rfl, fun _ => rfl⟩
  | adx s => exact ⟨rfl, fun _ => rfl, rfl, rfl, fun _ => rfl⟩
  | _ => exact ⟨rfl, trivial, rfl, rfl, fun _ => rfl⟩

/-- A new generator is as after a reset. -/
theorem Fresh.reset_eq (hg : g.Fresh) : g.reset = g := by
  cases hg with
  | rsi => rfl
  | bollinger h => exact congrArg Generator.bollinger (Bollinger.reset_start h)
  | macd h => exact congrArg Generator.macd (Macd.reset_start h)
  | emaCrossover h => exact congrArg Generator.emaCrossover (EmaCrossover.reset_start h)
  | stochastic h => exact congrArg Generator.stochastic (Stochastic.reset_start h)
  | atrReversion h => exact congrArg Generator.atrReversion (AtrReversion.reset_start h)
  | vwap => rfl
  | obv h => exact congrArg Generator.obv (Obv.reset_start h)
  | williamsR h => exact congrArg Generator.williamsR (WilliamsR.reset_start h)
  | adx => rfl

/-- A fresh generator has seen no bar. -/
theorem Fresh.waits (hg : g.Fresh) : g.Waits g.firstVote g.firstValue 0 := by
  have h := waits_reset g
  rwa [hg.reset_eq] at h

end Generator

/-! ## Runs with resets -/

section Runs

variable {α : Type}

/-- The number of bars after one more event, a reset included. -/
def Event.count (bars : Nat) : Event α → Nat
  | .bar _ => bars + 1
  | .reset => 0

/-- The number of bars since the last reset, or since the beginning. -/
def barsSinceReset (events : List (Event α)) : Nat := events.foldl Event.count 0

variable [Arith α] {g : Generator α} {vote value count : Nat}

/-- A bar counts one more, a reset starts to count again. -/
theorem Generator.Waits.handle (h : g.Waits vote value count) (event : Event α) :
    (g.handle event).Waits vote value (event.count count) := by
  cases event with
  | bar bar => exact h.step bar
  | reset =>
    obtain ⟨-, -, rfl, rfl, -⟩ := h
    exact waits_reset g

/-- After any bars and resets the generator has seen the bars since the last reset. -/
theorem Generator.Waits.after (h : g.Waits vote value count) (events : List (Event α)) :
    (g.after events).Waits vote value (events.foldl Event.count count) := by
  induction events generalizing g count with
  | nil => exact h
  | cons event events ih => exact ih (h.handle event)

end Runs

/-! ## Settings from parameters -/

/-- A period as a number of bars. -/
def ComponentParams.bars (c : ComponentParams) (role : ParamRole) : Nat := (c.period role).toOption.getD 0

/-- A period that could be read is the number of bars that it says. -/
theorem ComponentParams.bars_eq {c : ComponentParams} {role : ParamRole} {n : Nat}
    (h : c.period role = .ok n) :
    c.bars role = n := by
  rw [bars, h]
  rfl

namespace IndicatorKind

/-- The bar of the first vote. -/
def firstVote (kind : IndicatorKind) (c : ComponentParams) : Nat :=
  match kind with
  | .rsi => c.bars .period + 1
  | .bollingerBands | .williamsR | .vwap => c.bars .period
  | .macd | .emaCrossover => c.bars .slow + 1
  | .stochastic => c.bars .period + 3
  | .atrMeanReversion => max (c.bars .atrPeriod) (c.bars .smaPeriod)
  | .obv => c.bars .smaPeriod
  | .adx => 2 * c.bars .period
  | .gabagool => 0

/-- The bar of the first value. -/
def firstValue (kind : IndicatorKind) (c : ComponentParams) : Nat :=
  match kind with
  | .rsi => c.bars .period + 1
  | .bollingerBands | .williamsR | .vwap | .stochastic => c.bars .period
  | .macd | .emaCrossover => c.bars .slow + 1
  | .atrMeanReversion => max (c.bars .atrPeriod) (c.bars .smaPeriod)
  | .obv => 1
  | .adx => 2
  | .gabagool => 0

end IndicatorKind

open ComponentParams (bars_eq)

/-- The two bars of a generator that is built are those of its kind. -/
theorem Generator.BuiltFrom.first_eq {kind : IndicatorKind} {c : ComponentParams} {g : Generator Float}
    (h : BuiltFrom c kind g) :
    g.firstVote = kind.firstVote c ∧ g.firstValue = kind.firstValue c := by
  -- the settings of a generator are the parameters of its component, read as periods
  cases h with
  | rsi hperiod =>
    rw [IndicatorKind.firstVote, IndicatorKind.firstValue, bars_eq hperiod]
    exact ⟨rfl, rfl⟩
  | bollinger hperiod hs =>
    rw [IndicatorKind.firstVote, IndicatorKind.firstValue, bars_eq hperiod]
    exact ⟨(Bollinger.bars_start hs).2, (Bollinger.bars_start hs).2⟩
  | macd _ hslow _ hs =>
    rw [IndicatorKind.firstVote, IndicatorKind.firstValue, bars_eq hslow, ← (Macd.bars_start hs).2]
    exact ⟨rfl, rfl⟩
  | emaCrossover _ hslow hs =>
    rw [IndicatorKind.firstVote, IndicatorKind.firstValue, bars_eq hslow, ← (EmaCrossover.bars_start hs).2]
    exact ⟨rfl, rfl⟩
  | stochastic hperiod hs =>
    rw [IndicatorKind.firstVote, IndicatorKind.firstValue, bars_eq hperiod, ← (Stochastic.bars_start hs).2]
    exact ⟨rfl, rfl⟩
  | atrReversion hrange hmean hs =>
    rw [IndicatorKind.firstVote, IndicatorKind.firstValue, bars_eq hrange, bars_eq hmean]
    exact ⟨(AtrReversion.bars_start hs).2, (AtrReversion.bars_start hs).2⟩
  | vwap hperiod =>
    rw [IndicatorKind.firstVote, IndicatorKind.firstValue, bars_eq hperiod]
    exact ⟨rfl, rfl⟩
  | obv hperiod hs =>
    rw [IndicatorKind.firstVote, bars_eq hperiod]
    exact ⟨(Obv.bars_start hs).2, rfl⟩
  | williamsR hperiod hs =>
    rw [IndicatorKind.firstVote, IndicatorKind.firstValue, bars_eq hperiod]
    exact ⟨(WilliamsR.bars_start hs).2, (WilliamsR.bars_start hs).2⟩
  | adx hperiod =>
    rw [IndicatorKind.firstVote, bars_eq hperiod]
    exact ⟨rfl, rfl⟩

/-- A generator that is built waits for the bars of its kind, after whatever bars and resets. -/
theorem Generator.waits_of_ofComponent {kind : IndicatorKind} {c : ComponentParams} {g : Generator Float}
    (h : ofComponent kind c = .ok g) (events : List (Event Float)) :
    (g.after events).Waits (kind.firstVote c) (kind.firstValue c) (barsSinceReset events) := by
  obtain ⟨hvote, hvalue⟩ := (builtFrom_of_ofComponent h).first_eq
  rw [← hvote, ← hvalue]
  exact (fresh_of_ofComponent h).waits.after events

/-! ## Composites -/

/-- Of numbers among which two are small, the second smallest is. -/
theorem getD_insertionSort_le {ns : List Nat} {bound : Nat} (h : 2 ≤ ns.countP fun n => n ≤ bound) :
    (ns.insertionSort (· ≤ ·)).getD 1 0 ≤ bound := by
  have hsorted : (ns.insertionSort (· ≤ ·)).Pairwise (· ≤ ·) := List.pairwise_insertionSort _ ns
  rw [← (List.perm_insertionSort (· ≤ ·) ns).countP_eq] at h
  cases hcases : ns.insertionSort (· ≤ ·) with
  | nil => exact Nat.zero_le bound
  | cons smallest others =>
    rw [hcases] at h hsorted
    cases others with
    | nil => exact Nat.zero_le bound
    | cons second rest =>
      -- if the second one is large, all behind it are, and one small number is left at most
      by_contra hlarge
      have hsecond : bound < second := Nat.lt_of_not_le hlarge
      have hnone : (second :: rest).countP (fun n => n ≤ bound) = 0 := by
        refine List.countP_eq_zero.mpr fun n hn => ?_
        have hle : second ≤ n := by
          rcases List.mem_cons.mp hn with rfl | hrest
          · exact Nat.le_refl n
          · exact List.rel_of_pairwise_cons (List.pairwise_cons.mp hsorted).2 hrest
        simp only [decide_eq_true_eq]
        omega
      rw [List.countP_cons, hnone] at h
      split at h <;> omega

namespace CompositionMode

/-- The first bar that a direction can be carried on, if this is the first bar of each vote: the
largest, the primary's, or the second smallest. -/
def firstVote (mode : CompositionMode) (firsts : List Nat) : Nat :=
  match mode with
  | .unanimous => firsts.max?.getD 0
  | .primaryConfirmer => firsts.headD 0
  | .majority => (firsts.insertionSort (· ≤ ·)).getD 1 0

/-- **A direction takes open gates.** Where votes hold below their gates, a direction is carried
behind enough of them. -/
theorem firstVote_le_of_carries {β : Type} {parts : List β} {first : β → Nat} {vote : β → Signal} {bar : Nat}
    (hgates : ∀ x ∈ parts, bar < first x → vote x = .hold) {mode : CompositionMode} {a : Signal} (ha : a ≠ .hold)
    (h : mode.Carries (parts.map vote) a) : mode.firstVote (parts.map first) ≤ bar := by
  -- whoever votes for the direction has an open gate
  have hopen : ∀ x ∈ parts, vote x = a → first x ≤ bar := by
    rintro x hx rfl
    by_contra hlarge
    exact ha (hgates x hx (Nat.lt_of_not_le hlarge))
  cases mode with
  | unanimous =>
    have hall : ∀ v ∈ parts.map vote, v = a := h
    show ((parts.map first).max?).getD 0 ≤ bar
    cases hmax : (parts.map first).max? with
    | none => exact Nat.zero_le bar
    | some largest =>
      obtain ⟨x, hx, rfl⟩ := List.mem_map.mp (List.max?_mem hmax)
      exact hopen x hx (hall _ (List.mem_map_of_mem hx))
  | primaryConfirmer =>
    cases parts with
    | nil => exact Nat.zero_le bar
    | cons primary confirmers => exact hopen primary List.mem_cons_self (Option.some.inj h.1)
  | majority =>
    have hcount : 2 ≤ (parts.map vote).count a := h
    refine getD_insertionSort_le (hcount.trans ?_)
    rw [List.count, List.countP_map, List.countP_map]
    refine List.countP_mono_left fun x hx hvote => ?_
    exact decide_eq_true (hopen x hx (eq_of_beq hvote))

end CompositionMode

/-- The bar of a variant's first vote: that of its one component, or what the mode makes of all. -/
def Variant.firstVote (v : Variant) (params : CanonicalParams) : Nat :=
  let firsts := (v.components.zip params.components).map fun x => x.1.indicator.firstVote x.2
  match v.mode with
  | none => firsts.headD 0
  | some mode => mode.firstVote firsts

namespace VariantGenerator

variable {α : Type} [Arith α]

/-- The variant after it is told something. -/
def handle (g : VariantGenerator α) : Event α → VariantGenerator α
  | .bar bar => (g.step bar).2
  | .reset => g.reset

/-- The variant after some events. -/
def after (g : VariantGenerator α) (events : List (Event α)) : VariantGenerator α := events.foldl handle g

theorem after_atomic (g : Generator α) (events : List (Event α)) :
    (atomic g).after events = atomic (g.after events) :=
  List.foldl_hom atomic fun _ event => by cases event <;> rfl

theorem after_composite (c : Combo α) (events : List (Event α)) :
    (composite c).after events = composite (c.after events) :=
  List.foldl_hom composite fun _ event => by cases event <;> rfl

end VariantGenerator

/-- A combo of parts that hold below their gates holds until its mode can carry a direction. -/
theorem Combo.step_eq_hold_of_lt {c : Combo Float} (hfits : c.Fits) {first : Generator Float → Nat}
    {events : List (Event Float)} {bar : Bar Float} {count : Nat}
    (hgates : ∀ g ∈ c.parts, count < first g → ((g.after events).step bar).1 = .hold)
    (hlt : count < c.mode.firstVote (c.parts.map first)) : ((c.after events).step bar).1 = .hold := by
  obtain ⟨hnow, hmode, hparts⟩ := parts_after hfits events
  obtain ⟨composition, hcomposed, hstep⟩ := step_eq hnow bar
  rw [hmode, hparts, List.map_map] at hcomposed
  rw [hstep]
  by_contra hdirected
  have hcarries := (Composition.action_eq_iff hdirected hcomposed).mp rfl
  exact Nat.not_lt.mpr (CompositionMode.firstVote_le_of_carries hgates hdirected hcarries) hlt

/-- The generators of a variant, each with the bar of its component's first vote. -/
theorem Variant.firstVotes_eq {v : Variant} {params : CanonicalParams} {gs : List (Generator Float)}
    (h : v.generators params = .ok gs) :
    (v.components.zip params.components).map (fun x => x.1.indicator.firstVote x.2) = gs.map Generator.firstVote := by
  rw [← List.forall₂_eq_eq_eq, List.forall₂_map_left_iff, List.forall₂_map_right_iff]
  exact (mapM_eq_ok_iff.mp h).imp fun _ _ hg => (Generator.builtFrom_of_ofComponent hg).first_eq.1.symm

/-- The generators of a variant hold below their first votes. -/
theorem Variant.step_eq_hold_of_lt {v : Variant} {params : CanonicalParams} {gs : List (Generator Float)}
    (h : v.generators params = .ok gs) (events : List (Event Float)) (bar : Bar Float) :
    ∀ g ∈ gs, barsSinceReset events + 1 < g.firstVote → ((g.after events).step bar).1 = .hold := by
  intro g hg
  obtain ⟨x, -, hbuilt⟩ := exists_of_mem_mapM h hg
  rw [(Generator.builtFrom_of_ofComponent hbuilt).first_eq.1]
  exact ((Generator.waits_of_ofComponent hbuilt events).gated bar).2.1

/-- A variant with one component has one generator. -/
theorem Variant.length_generators_le_one {v : Variant} (hmode : v.mode = none) {params : CanonicalParams}
    {gs : List (Generator Float)} (h : v.generators params = .ok gs) : gs.length ≤ 1 := by
  have hlength : v.components.length = 1 := by
    unfold mode at hmode
    unfold components
    split at hmode
    next => rfl
    next => cases hmode
  rw [← (mapM_eq_ok_iff.mp h).length_eq, List.length_zip, hlength]
  exact Nat.min_le_left _ _

/-- **No vote before the warm-up.** Counted in bars since the last reset, or since the beginning, a
generator that is built from parameters has no value before the bar of its first value, and holds
before the bar of its first vote. A variant holds before the bar that its mode makes of those of its
components: the largest, the primary's, or the second smallest. -/
theorem no_vote_before_warmup :
    (∀ (kind : IndicatorKind) (c : ComponentParams) (g : Generator Float), Generator.ofComponent kind c = .ok g →
      ∀ events : List (Event Float),
        (barsSinceReset events < kind.firstValue c → (g.after events).reading = none) ∧
        ∀ bar, barsSinceReset events + 1 < kind.firstVote c → ((g.after events).step bar).1 = .hold) ∧
    ∀ (v : Variant) (params : CanonicalParams) (g : VariantGenerator Float), VariantGenerator.ofVariant v params = .ok g →
      ∀ (events : List (Event Float)) (bar : Bar Float),
        barsSinceReset events + 1 < v.firstVote params → ((g.after events).step bar).1 = .hold := by
  constructor
  · intro kind c g hg events
    have hwaits := Generator.waits_of_ofComponent hg events
    exact ⟨hwaits.silent, fun bar => (hwaits.gated bar).2.1⟩
  · intro v params g hg events bar hlt
    obtain ⟨gs, hgs, hrest⟩ := exists_of_bind_eq_ok hg
    have hgates := Variant.step_eq_hold_of_lt hgs events bar
    simp only [Variant.firstVote, Variant.firstVotes_eq hgs] at hlt
    cases hmode : v.mode with
    | none =>
      rw [hmode] at hlt hrest
      have hone := Variant.length_generators_le_one hmode hgs
      cases gs with
      | nil => cases hrest
      | cons part others =>
        obtain rfl : others = [] := List.eq_nil_of_length_eq_zero (Nat.le_zero.mp (Nat.le_of_succ_le_succ hone))
        cases hrest
        rw [VariantGenerator.after_atomic]
        exact hgates part List.mem_cons_self hlt
    | some mode =>
      rw [hmode] at hlt hrest
      obtain ⟨c, hc, hrest⟩ := exists_of_bind_eq_ok hrest
      cases hrest
      obtain ⟨hadmits, rfl⟩ := Combo.ofParts_eq_ok_iff.mp hc
      rw [VariantGenerator.after_composite]
      exact Combo.step_eq_hold_of_lt (CompositionMode.misfit?_eq_none_iff.mpr hadmits) hgates hlt

/-- Four bars after a reset, %K over two bars has no vote yet. Of three components that vote from
their third, fourth and fifth bar on, two hold before the fourth. -/
theorem no_vote_before_warmup_majority :
    let bar : Bar Float := ⟨110, 90, 100, 1⟩
    let c := Component.bind ⟨.stochastic, Schema.alone .stochastic⟩
      (ParamSet.ofList [("period", 2), ("overbought", 80), ("oversold", 20)])
    let v := VariantTag.tripleRsiMacdBb.variant
    let params := v.canonicalize (ParamSet.ofList
      [("rsi_period", 3), ("rsi_ob", 70), ("rsi_os", 30), ("macd_fast", 1), ("macd_slow", 2), ("macd_signal", 1),
        ("bb_period", 5), ("bb_mult", 2)])
    (∃ g, Generator.ofComponent .stochastic c = .ok g ∧ ∀ last,
      ((g.after [.bar bar, .reset, .bar bar, .bar bar, .bar bar]).step last).1 = .hold) ∧
    ∃ g, VariantGenerator.ofVariant v params = .ok g ∧ ∀ last,
      ((g.after [.bar bar, .bar bar]).step last).1 = .hold := by
  intro bar c v params
  obtain ⟨hgenerators, hvariants⟩ := no_vote_before_warmup
  have hfirst : 4 < IndicatorKind.stochastic.firstVote c := by decide +kernel
  have hsecond : 3 < v.firstVote params := by decide +kernel
  obtain ⟨g, hg⟩ : ∃ g, Generator.ofComponent .stochastic c = .ok g := ⟨_, rfl⟩
  obtain ⟨g', hg'⟩ : ∃ g, VariantGenerator.ofVariant v params = .ok g := ⟨_, rfl⟩
  constructor
  · exact ⟨g, hg, fun last => (hgenerators _ c g hg _).2 last hfirst⟩
  · exact ⟨g', hg', fun last => hvariants v params g' hg' _ last hsecond⟩

end BotSpec
