import BotSpec.Proofs.Indicator.Direction
import BotSpec.Proofs.Indicator.Divisors
import BotSpec.Proofs.Indicator.Placement
import BotSpec.Proofs.Indicator.Strength
import BotSpec.Proofs.Strategy.Reset

/-!
# Readings in exact arithmetic

Without rounding, the readings of the indicators stay where they belong (`InRange`), and nothing is
divided by zero.

> `readings_stay_in_range`: for every new generator whose periods are at least one, and every run
> over proper bars.

A run that does not divide by zero is one in which it does not matter what is made of a division by
zero. That is shown step by step, along an invariant (`Divides`) that says why no divisor of the
next step is zero.
-/

namespace BotSpec

open Indicator
open Arith (exact)

variable {byZero byZero' root : ℚ → ℚ}

/-- A run in exact arithmetic. -/
def exactRun (byZero root : ℚ → ℚ) (g : Generator ℚ) (bars : List (Bar ℚ)) : Signal × Generator ℚ :=
  replay (@Generator.step ℚ (exact byZero root)) g bars

/-- The reading at the end of a run in exact arithmetic. -/
def exactReading (byZero root : ℚ → ℚ) (g : Generator ℚ) (bars : List (Bar ℚ)) : Option ℚ :=
  @Generator.reading ℚ (exact byZero root) (exactRun byZero root g bars).2

namespace Generator

/-- No period is zero. Generators beside these three are not made with such a period. -/
def HasPeriods : Generator ℚ → Prop
  | rsi s => 1 ≤ s.period
  | vwap s => 1 ≤ s.period
  | adx s => 1 ≤ s.period
  | _ => True

/-- Where a reading of a generator belongs after some bars. -/
def InRange (g : Generator ℚ) (bars : List (Bar ℚ)) (x : ℚ) : Prop :=
  match g with
  | rsi s => 0 ≤ x ∧ x ≤ 100 ∧ (x = 100 ↔ wilder s.period (losses (bars.map Bar.close)) = 0)
  | stochastic _ => 0 ≤ x ∧ x ≤ 100
  | williamsR _ => -100 ≤ x ∧ x ≤ 0
  | adx _ => 0 ≤ x ∧ x ≤ 100
  | vwap s =>
    ∃ least greatest, ((bars.rtake s.period).map Bar.low).min? = some least ∧
      ((bars.rtake s.period).map Bar.high).max? = some greatest ∧ least ≤ x ∧ x ≤ greatest
  | _ => True

/-! ## Divisors -/

section Start

variable {α : Type} [Arith α] {period : Nat}

/-- A mean that could be started has a period. -/
theorem one_le_of_sma {s : Sma α} (h : Sma.start? period = some s) : 1 ≤ s.period := by
  obtain ⟨hzero, h⟩ := Option.ite_none_left_eq_some.mp h
  cases h
  exact Nat.one_le_iff_ne_zero.mpr hzero

theorem one_le_of_deviation {s : Deviation α} (h : Deviation.start? period = some s) : 1 ≤ s.period := by
  obtain ⟨hzero, h⟩ := Option.ite_none_left_eq_some.mp h
  cases h
  exact Nat.one_le_iff_ne_zero.mpr hzero

omit [Arith α] in
theorem one_le_of_extremum {side : Side} {e : Extremum α} (h : Extremum.start? side period = some e) : 1 ≤ period := by
  obtain ⟨hzero, -⟩ := Option.ite_none_left_eq_some.mp h
  exact Nat.one_le_iff_ne_zero.mpr hzero

end Start

/-- Why no divisor of the next step is zero. -/
def Divides (bars : List (Bar ℚ)) : Generator ℚ → Prop
  | rsi s => 1 ≤ s.period ∧ s.Follows s.period (bars.map Bar.close)
  | bollinger s => 1 ≤ s.deviation.period
  | atrReversion s => 1 ≤ s.range.period ∧ 1 ≤ s.mean.period
  | obv s => 1 ≤ s.average.period
  | adx s => 1 ≤ s.period
  | _ => True

variable {g : Generator ℚ} {bars : List (Bar ℚ)}

/-- A fresh generator has not divided by zero, having seen no bar. -/
theorem Fresh.divides (hg : @Fresh ℚ (exact byZero root) g) (hperiods : g.HasPeriods) : g.Divides [] := by
  cases hg with
  | rsi period overbought oversold => exact ⟨hperiods, Rsi.follows_start period overbought oversold⟩
  | bollinger h =>
    obtain ⟨d, hd, rfl⟩ := Option.map_eq_some_iff.mp h
    exact @one_le_of_deviation _ (exact byZero root) _ _ hd
  | atrReversion h =>
    obtain ⟨r, hr, h⟩ := Option.bind_eq_some_iff.mp h
    obtain ⟨m, hm, h⟩ := Option.bind_eq_some_iff.mp h
    cases h
    exact ⟨@one_le_of_sma _ (exact byZero root) _ _ hr, @one_le_of_sma _ (exact byZero root) _ _ hm⟩
  | obv h =>
    obtain ⟨a, ha, rfl⟩ := Option.map_eq_some_iff.mp h
    exact @one_le_of_sma _ (exact byZero root) _ _ ha
  | adx period threshold => exact hperiods
  | _ => trivial

/-- A bar is handled alike whatever is made of a division by zero. -/
theorem Divides.step_eq (h : g.Divides bars) (bar : Bar ℚ) :
    @step ℚ (exact byZero root) g bar = @step ℚ (exact byZero' root) g bar := by
  cases g with
  | rsi s => exact congrArg (wrap rsi) (h.2.step_eq h.1 bar)
  | bollinger s => exact congrArg (wrap bollinger) (Bollinger.step_eq byZero byZero' h bar)
  | macd s => exact congrArg (wrap macd) (Macd.step_eq byZero byZero' s bar)
  | emaCrossover s => exact congrArg (wrap emaCrossover) (EmaCrossover.step_eq byZero byZero' s bar)
  | stochastic s => exact congrArg (wrap stochastic) (Stochastic.step_eq byZero byZero' s bar)
  | atrReversion s => exact congrArg (wrap atrReversion) (AtrReversion.step_eq byZero byZero' h.1 h.2 bar)
  | vwap s => exact congrArg (wrap vwap) (Vwap.step_eq byZero byZero' s bar)
  | obv s => exact congrArg (wrap obv) (Obv.step_eq byZero byZero' h bar)
  | williamsR s => exact congrArg (wrap williamsR) (WilliamsR.step_eq byZero byZero' s bar)
  | adx s => exact congrArg (wrap adx) (Adx.step_eq h bar)

/-- A period is a setting, which no bar changes. -/
theorem Divides.step (h : g.Divides bars) (bar : Bar ℚ) :
    (@Generator.step ℚ (exact byZero root) g bar).2.Divides (bars ++ [bar]) := by
  -- the strength index has its invariant, the others only a period that is not zero
  cases g with
  | rsi s =>
    have hnext : (@Rsi.step ℚ (exact byZero root) s bar).2.Follows s.period (bars.map Bar.close ++ [bar.close]) :=
      h.2.step h.1 bar
    have hkeep := hnext.period_eq
    show 1 ≤ (@Rsi.step ℚ (exact byZero root) s bar).2.period ∧
      (@Rsi.step ℚ (exact byZero root) s bar).2.Follows (@Rsi.step ℚ (exact byZero root) s bar).2.period
        ((bars ++ [bar]).map Bar.close)
    rw [hkeep, List.map_append, List.map_singleton]
    exact ⟨h.1, hnext⟩
  | bollinger s =>
    have hkeep := congrArg (fun t => t.deviation.period) (@Bollinger.reset_step ℚ (exact byZero root) s bar)
    exact hkeep.symm.le.trans' h
  | atrReversion s =>
    have hrange := congrArg (fun t => t.range.period) (@AtrReversion.reset_step ℚ (exact byZero root) s bar)
    have hmean := congrArg (fun t => t.mean.period) (@AtrReversion.reset_step ℚ (exact byZero root) s bar)
    exact ⟨hrange.symm.le.trans' h.1, hmean.symm.le.trans' h.2⟩
  | obv s =>
    have hkeep := congrArg (fun t => t.average.period) (@Obv.reset_step ℚ (exact byZero root) s bar)
    exact hkeep.symm.le.trans' h
  | adx s =>
    have hkeep := congrArg (fun t => t.period) (@Adx.reset_step ℚ (exact byZero root) s bar)
    exact hkeep.symm.le.trans' h
  | _ => trivial

theorem Divides.run (h : g.Divides []) (bars : List (Bar ℚ)) :
    exactRun byZero root g bars = exactRun byZero' root g bars ∧ (exactRun byZero root g bars).2.Divides bars := by
  unfold exactRun
  induction bars using List.reverseRecOn with
  | nil =>
    rw [replay_nil, replay_nil]
    exact ⟨rfl, h⟩
  | append_singleton bars bar ih =>
    obtain ⟨hsame, hdivides⟩ := ih
    rw [replay_concat, replay_concat, ← hsame]
    exact ⟨hdivides.step_eq bar, hdivides.step bar⟩

/-! ## Ranges -/

/-- A generator reads what the indicator in it reads. -/
theorem exactReading_make {β : Type} (make : β → Generator ℚ) {next : β → Bar ℚ → Signal × β}
    (hstep : ∀ s bar, @Generator.step ℚ (exact byZero root) (make s) bar = wrap make (next s bar)) (s : β)
    (bars : List (Bar ℚ)) :
    exactReading byZero root (make s) bars = @reading ℚ (exact byZero root) (make (replay next s bars).2) := by
  rw [exactReading, exactRun, @replay_make ℚ (exact byZero root) β make next hstep s bars]

/-- A reading that is the same as the value of a formula is that value. -/
theorem eq_some_of_rel_same {x y : Option ℚ} (h : Option.Rel (@Arith.Same ℚ (exact byZero root)) x y) {a : ℚ}
    (hx : x = some a) : y = some a := by
  subst hx
  cases h with
  | some hsame => rw [Arith.same_exact_iff.mp hsame]

section Ranges

variable {period : Nat} {overbought oversold x : ℚ} (hbars : ∀ bar ∈ bars, Proper bar)

/-- The strength index is a percentage, and 100 without losses only. -/
theorem rsi_inRange (hperiod : 1 ≤ period)
    (hx : exactReading byZero root (.rsi (@Rsi.start ℚ (exact byZero root) period overbought oversold)) bars = some x) :
    0 ≤ x ∧ x ≤ 100 ∧ (x = 100 ↔ wilder period (losses (bars.map Bar.close)) = 0) := by
  rw [exactReading_make .rsi fun _ _ => rfl] at hx
  have hfollows : ∀ bars : List (Bar ℚ), (replay (@Rsi.step ℚ (exact byZero root))
      (@Rsi.start ℚ (exact byZero root) period overbought oversold) bars).2.Follows period (bars.map Bar.close) := by
    intro bars
    induction bars using List.reverseRecOn with
    | nil => exact Rsi.follows_start period overbought oversold
    | append_singleton bars bar ih =>
      rw [replay_concat, List.map_append]
      exact ih.step hperiod bar
  exact strength?_bounds hperiod ((hfollows bars).reading.symm.trans hx)

include hbars

theorem stochastic_inRange {s : Stochastic ℚ}
    (hs : Stochastic.start? period overbought oversold = some s)
    (hx : exactReading byZero root (.stochastic s) bars = some x) : 0 ≤ x ∧ x ≤ 100 := by
  rw [exactReading_make .stochastic fun _ _ => rfl] at hx
  have hstart := @Stochastic.follows_start ℚ (exact byZero root) _ _ _ s hs
  obtain ⟨-, hfollows⟩ := @Stochastic.Follows.replay ℚ (exact byZero root) _ _ _
    (Arith.lawfulArith_exact byZero root) s hstart
    bars fun bar _ => isPriced_exact bar
  obtain ⟨-, -, -, -, -, ks, ⟨hk, -, -⟩, hks⟩ := hfollows
  have hpercent : @percentK? ℚ (exact byZero root) period (bars.rdrop 0) = some x :=
    eq_some_of_rel_same (hks 0) (hk.symm.trans hx)
  rw [List.rdrop_zero] at hpercent
  obtain ⟨e, he, -⟩ := Option.bind_eq_some_iff.mp hs
  exact percentK?_bounds (one_le_of_extremum he) hbars hpercent

theorem williamsR_inRange {s : WilliamsR ℚ}
    (hs : WilliamsR.start? period overbought oversold = some s)
    (hx : exactReading byZero root (.williamsR s) bars = some x) : -100 ≤ x ∧ x ≤ 0 := by
  rw [exactReading_make .williamsR fun _ _ => rfl] at hx
  have hstart := @WilliamsR.follows_start ℚ (exact byZero root) _ _ _ s hs
  obtain ⟨-, hfollows⟩ := @WilliamsR.Follows.replay ℚ (exact byZero root) _ _ _
    (Arith.lawfulArith_exact byZero root) s hstart
    bars fun bar _ => isPriced_exact bar
  obtain ⟨e, he, -⟩ := Option.bind_eq_some_iff.mp hs
  obtain ⟨-, -, -, -, -, hreading⟩ := hfollows
  exact percentR?_bounds (one_le_of_extremum he) hbars (eq_some_of_rel_same hreading hx)

/-- The average is between the least low and the greatest high of its window. -/
theorem vwap_inRange (hperiod : 1 ≤ period)
    (hx : exactReading byZero root (.vwap (.start period)) bars = some x) :
    ∃ least greatest, ((bars.rtake period).map Bar.low).min? = some least ∧
      ((bars.rtake period).map Bar.high).max? = some greatest ∧ least ≤ x ∧ x ≤ greatest := by
  have hne : period ≠ 0 := Nat.one_le_iff_ne_zero.mp hperiod
  rw [exactReading_make .vwap fun _ _ => rfl] at hx
  have hstart := @Vwap.follows_start ℚ (exact byZero root) period hne
  obtain ⟨-, hfollows⟩ := @Vwap.Follows.replay ℚ (exact byZero root)
    (Arith.lawfulArith_exact byZero root) _ period hstart hne
    bars fun bar _ => Arith.isAddable_exact _
  obtain ⟨-, -, hreading⟩ := hfollows
  exact vwap?_bounds hbars (hreading.symm.trans hx)

/-- The directional index is a percentage. -/
theorem adx_inRange {threshold : ℚ} (hperiod : 1 ≤ period)
    (hx : exactReading byZero root (.adx (@Adx.start ℚ (exact byZero root) period threshold)) bars = some x) :
    0 ≤ x ∧ x ≤ 100 := by
  rw [exactReading_make .adx fun _ _ => rfl] at hx
  have hstep : ∀ (s : Adx ℚ) bar, Proper bar → s.Bounded → (@Adx.step ℚ (exact byZero root) s bar).2.Bounded :=
    fun s bar hbar hs => hs.step hbar.low_le hbar.le_high
  exact (replay_invariant hstep (Adx.bounded_start hperiod threshold) hbars).reading x hx

end Ranges

/-- Over proper bars a reading of a new generator is in its range. -/
theorem Fresh.inRange (hg : @Fresh ℚ (exact byZero root) g) (hperiods : g.HasPeriods) (hbars : ∀ bar ∈ bars, Proper bar)
    {x : ℚ} (hx : exactReading byZero root g bars = some x) : g.InRange bars x := by
  cases hg with
  | rsi => exact rsi_inRange hperiods hx
  | stochastic h => exact stochastic_inRange hbars h hx
  | vwap => exact vwap_inRange hbars hperiods hx
  | williamsR h => exact williamsR_inRange hbars h hx
  | adx => exact adx_inRange hbars hperiods hx
  | _ => trivial

end Generator

/-- **Readings stay in range, and nothing is divided by zero.** Take the operations of doubles for
exact ones, on rational numbers. After every run over bars with the close between low and high and
with volumes that are not negative, whatever the periods from one on and whatever the levels, a
reading is where it belongs: the relative strength index from 0 to 100, and 100 if and only if the
averaged loss is zero, %K from 0 to 100, %R from -100 to 0, the directional index from 0 to 100, and
the weighted average between the least low and the greatest high of the bars it is taken over.

The run of each of the ten generators, with its votes, is the same whatever a division by zero
gives. -/
theorem readings_stay_in_range (byZero root : ℚ → ℚ) {g : Generator ℚ} (hg : @Generator.Fresh ℚ (exact byZero root) g)
    (hperiods : g.HasPeriods) (bars : List (Bar ℚ)) :
    ((∀ bar ∈ bars, Proper bar) → ∀ x, exactReading byZero root g bars = some x → g.InRange bars x) ∧
      ∀ byZero' : ℚ → ℚ, exactRun byZero root g bars = exactRun byZero' root g bars :=
  ⟨fun hbars _ hx => hg.inRange hperiods hbars hx, fun _ => ((hg.divides hperiods).run bars).1⟩

/-- A strength index of period two after a gain and a loss of the same size. -/
theorem readings_stay_in_range_swing :
    let bars : List (Bar ℚ) := [⟨11, 9, 10, 1⟩, ⟨12, 10, 11, 0⟩, ⟨11, 9, 10, 2⟩]
    let g : Generator ℚ := .rsi (@Rsi.start ℚ (exact (fun _ => 0) id) 2 70 30)
    exactReading (fun _ => 0) id g bars = some 50 ∧ g.InRange bars 50 ∧
      exactRun (fun _ => 0) id g bars = exactRun (fun _ => 1) id g bars := by
  intro bars g
  have hproper : ∀ bar ∈ bars, Proper bar := by
    simp only [bars, List.forall_mem_cons]
    exact ⟨⟨by norm_num, by norm_num, by norm_num⟩, ⟨by norm_num, by norm_num, by norm_num⟩,
      ⟨by norm_num, by norm_num, by norm_num⟩, List.forall_mem_nil _⟩
  have hreading : exactReading (fun _ => 0) id g bars = some 50 := by decide +kernel
  obtain ⟨hrange, hdivides⟩ := readings_stay_in_range (fun _ => 0) id
    (@Generator.Fresh.rsi ℚ (exact (fun _ => 0) id) 2 70 30) (le_of_lt one_lt_two) bars
  exact ⟨hreading, hrange hproper 50 hreading, hdivides fun _ => 1⟩

end BotSpec
