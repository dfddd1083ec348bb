import BotSpec.Proofs.ParamSet.Lookup
import BotSpec.Proofs.Report.CandleBuffer
import BotSpec.Proofs.Strategy.Period
import BotSpec.Proofs.Strategy.Warmup

/-!
# Is the candle buffer long enough?

A bot warms up by replaying the candles that it keeps. Their number looks at raw parameters below
one thousand and knows nothing of indicators, so whether all components are warm afterwards is a
question:

> `warm_after_buffer`: a component is warm exactly if its warm-up is not longer than the buffer, and
> this is so for every period below one thousand, except that the directional index takes twice its
> period.

For the exception a period of at most 30 is short enough. With 31 it is not: the buffer has 60
candles and the warm-up takes 62. Nor is it for a period of 1000, which the buffer does not look at
(`buffer_too_short`).

A period is one of the raw values (`mem_values_of_get?`), and it is a whole number not above the
longest one. That the buffer is not shorter is about conversions of doubles: they keep the order
(`toUInt64_mono`).
-/

namespace BotSpec

open Binary64

/-! ## Periods are raw values -/

/-- A parameter has its value from the set that it is bound to. -/
theorem mem_values_of_get? {v : Variant} {p : ParamSet} {c : ComponentParams} (hc : c ∈ (v.canonicalize p).components)
    {role : ParamRole} {value : Float} (h : c.get? role = some value) : value ∈ p.values := by
  obtain ⟨component, -, rfl⟩ := List.mem_map.mp hc
  obtain ⟨b, hb, hvalue⟩ := Option.bind_eq_some_iff.mp h
  obtain ⟨spec, -, rfl⟩ := List.mem_map.mp (List.mem_of_find?_eq_some hb)
  obtain ⟨key, -, hkey⟩ := List.exists_of_findSome?_eq_some hvalue
  exact ParamSet.mem_values_iff.mpr ⟨key, hkey⟩

/-- A period below one thousand is taken for one. -/
theorem isPeriodLike_of_periodOf {value : Float} {n : Nat} (h : periodOf value = .ok n) (hn : n < 1000) :
    IsPeriodLike value := by
  have hwhole := isPeriod_of_periodOf h
  have hzeroOne : (0 : Float) < 1 := by decide +kernel
  obtain ⟨hzero, honeNumber, hplace⟩ := lt_iff.mp hzeroOne
  have hnumber := hwhole.formOf_ne_notANumber
  have hleast := not_lt.mp fun hlt => hwhole.not_lt_one (lt_iff.mpr ⟨hnumber, honeNumber, hlt⟩)
  refine ⟨lt_iff.mpr ⟨hzero, hnumber, hplace.trans_le hleast⟩, ?_⟩
  by_contra hlarge
  have hbeyond : (0 : Float) < periodBound := by decide +kernel
  have hmono := toUInt64_mono (lt_iff.mp hbeyond).2.1 hnumber hlarge
  have hbound : periodBound.toUInt64.toNat = 1000 := by decide +kernel
  rw [hbound, hwhole.toNat_toUInt64] at hmono
  omega

/-! ## The longest period -/

/-- Rounding up does not make a period shorter. -/
theorem toNat_le_toNat_ceil {x : Float} (hx : IsPeriodLike x) : x.toUInt64.toNat ≤ (ceil x).toUInt64.toNat := by
  rcases Nat.eq_zero_or_pos x.toUInt64.toNat with hzero | hpos
  · rw [hzero]
    exact Nat.zero_le _
  obtain ⟨hnumber, hthousand, -⟩ := lt_iff.mp hx.2
  have hmono : x.toUInt64.toNat ≤ periodBound.toUInt64.toNat :=
    toUInt64_mono hnumber hthousand fun hlt => LawfulArith.lt_irrefl _ (LawfulArith.lt_trans hlt hx.2)
  have hbound : periodBound.toUInt64.toNat + 1 < twoPow 53 := by decide +kernel
  have hwhole : x < wholeFrom := LawfulArith.lt_trans hx.2 (by decide +kernel)
  rw [ceil, floor, if_pos hwhole]
  split
  · rw [toNat_toFloat_add_one hpos (by omega)]
    exact Nat.le_succ _
  · rw [toNat_toFloat hpos (by omega)]

/-- **The buffer is longer than every period below one thousand**, by the margin. -/
theorem ParamSet.le_candleBuffer {p : ParamSet} {value : Float} (hvalue : value ∈ p.values) {n : Nat}
    (h : periodOf value = .ok n) (hn : n < 1000) : n + bufferMargin ≤ p.candleBuffer := by
  have hwhole := isPeriod_of_periodOf h
  have hperiod := isPeriodLike_of_periodOf h hn
  obtain ⟨hlongest, hbest⟩ := longestPeriodOf_spec p.values
  have hlongest : IsPeriodLike (longestPeriodOf p.values) := by
    rcases hlongest with hzero | ⟨-, hlongest⟩
    · exact absurd hperiod.1 (hzero ▸ hbest value hvalue hperiod)
    · exact hlongest
  have hmono : n ≤ (longestPeriodOf p.values).toUInt64.toNat :=
    hwhole.toNat_toUInt64 ▸ toUInt64_mono hwhole.formOf_ne_notANumber (lt_iff.mp hlongest.2).1 (hbest value hvalue hperiod)
  have hceil := toNat_le_toNat_ceil hlongest
  rw [candleBuffer]
  omega

/-- No buffer has fewer than 60 candles. -/
theorem ParamSet.sixty_le_candleBuffer (p : ParamSet) : 60 ≤ p.candleBuffer :=
  Nat.add_le_add_right (Nat.le_max_right _ leastBuffer) bufferMargin

theorem bars_ne_nil {p : ParamSet} {candles : List Candle} (hlength : candles.length = p.candleBuffer) :
    candles.map Candle.bar ≠ [] := by
  have hsixty := p.sixty_le_candleBuffer
  exact List.ne_nil_of_length_pos (by rw [List.length_map]; omega)

/-! ## Warm components -/

/-- **Warm after the buffer.** A new generator of a variant has taken as many candles as the buffer
has. Then each of its parts is warm exactly if its warm-up is not longer than the buffer. A part
with a warm-up period below one thousand is warm; of the directional index this is said of periods
up to 30. -/
theorem warm_after_buffer {v : Variant} {p : ParamSet} {g : VariantGenerator Float}
    (hg : VariantGenerator.ofVariant v (v.canonicalize p) = .ok g) {candles : List Candle}
    (hlength : candles.length = p.candleBuffer) :
    ∀ part ∈ (replay VariantGenerator.step g (candles.map Candle.bar)).2.parts,
      (part.IsWarm ↔ part.barsNeeded ≤ p.candleBuffer) ∧
      (part.warmupPeriod < 1000 → (part.name = "ADX" → part.warmupPeriod ≤ 30) → part.IsWarm) := by
  intro part hpart
  obtain ⟨hbuilt, hruns⟩ := VariantGenerator.parts_of_ofVariant hg
  rw [hruns] at hpart
  obtain ⟨new, hnew, rfl⟩ := List.mem_map.mp hpart
  obtain ⟨kind, c, hc, hcomponent⟩ := hbuilt new hnew
  have hfresh := Generator.fresh_of_ofComponent hcomponent
  have hsame := (hfresh.hasSeen_replay (candles.map Candle.bar)).2
  have hwarm := hfresh.isWarm_replay_iff (bars_ne_nil hlength)
  rw [List.length_map, hlength, ← hsame.barsNeeded] at hwarm
  refine ⟨hwarm, fun hperiod hadx => hwarm.mpr ?_⟩
  -- the warm-up period is the value of a role, so the set has it, and the buffer is made for it
  obtain ⟨role, hrole⟩ := Generator.exists_period_of_ofComponent hcomponent
  obtain ⟨value, hget, hvalue⟩ := ComponentParams.exists_value_of_period hrole
  rw [hsame.warmupPeriod] at hperiod hadx
  rw [hsame.name] at hadx
  rw [hsame.barsNeeded]
  obtain ⟨hdouble, hsingle⟩ := new.barsNeeded_le
  -- the directional index takes twice its period, which only the smallest buffer is sure to have
  by_cases hname : new.name = "ADX"
  · calc new.barsNeeded = 2 * new.warmupPeriod := hdouble hname
      _ ≤ 60 := by have := hadx hname; omega
      _ ≤ p.candleBuffer := p.sixty_le_candleBuffer
  · calc new.barsNeeded ≤ new.warmupPeriod + 1 := hsingle hname
      _ ≤ new.warmupPeriod + bufferMargin := Nat.add_le_add_left (by decide) _
      _ ≤ p.candleBuffer := ParamSet.le_candleBuffer (mem_values_of_get? hc hget) hvalue hperiod

/-- The buffer is longer than it has to be: its longest value is the upper level of a strength index
over 14 changes. -/
theorem warm_after_buffer_rsi :
    let p := ParamSet.ofList [("period", 14), ("overbought", 70), ("oversold", 30)]
    let candle : Candle := ⟨.ofDigits 100 0, .ofDigits 110 0, .ofDigits 90 0, .ofDigits 1005 1, .ofDigits 7 0⟩
    let candles := List.replicate 80 candle
    ∃ g, VariantGenerator.ofVariant VariantTag.rsi.variant (VariantTag.rsi.variant.canonicalize p) = .ok g ∧
      candles.length = p.candleBuffer ∧
      ∀ part ∈ (replay VariantGenerator.step g (candles.map Candle.bar)).2.parts,
        (part.IsWarm ↔ part.barsNeeded ≤ p.candleBuffer) ∧
        (part.warmupPeriod < 1000 → (part.name = "ADX" → part.warmupPeriod ≤ 30) → part.IsWarm) := by
  intro p candle candles
  have hg : VariantGenerator.ofVariant VariantTag.rsi.variant (VariantTag.rsi.variant.canonicalize p) =
      .ok (.atomic (.rsi (.start 14 70 30))) := by rfl
  have hbuffer : p.candleBuffer = 80 := by decide +kernel
  have hlength : candles.length = p.candleBuffer := List.length_replicate.trans hbuffer.symm
  exact ⟨_, hg, hlength, warm_after_buffer hg hlength⟩

/-- However the candles of the buffer are chosen, they leave a part of a new generator that is not
warm. -/
def StaysCold (v : Variant) (p : ParamSet) : Prop :=
  ∃ g, VariantGenerator.ofVariant v (v.canonicalize p) = .ok g ∧
    ∀ candles : List Candle, candles.length = p.candleBuffer →
      ∃ part ∈ (replay VariantGenerator.step g (candles.map Candle.bar)).2.parts, ¬ part.IsWarm

/-- A warm-up that takes more bars than the buffer has candles is not over. -/
theorem staysCold_of_candleBuffer_lt {v : Variant} {p : ParamSet} {g : Generator Float}
    (hg : VariantGenerator.ofVariant v (v.canonicalize p) = .ok (.atomic g)) (hfresh : g.Fresh)
    (hneeded : p.candleBuffer < g.barsNeeded) : StaysCold v p := by
  refine ⟨_, hg, fun candles hlength => ?_⟩
  refine ⟨_, by rw [VariantGenerator.replay_atomic]; exact List.mem_singleton_self _, fun hwarm => ?_⟩
  have hlong := (hfresh.isWarm_replay_iff (bars_ne_nil hlength)).mp hwarm
  rw [List.length_map] at hlong
  omega

/-- Twice a period of 31 is more than the 60 candles of its buffer. A period of 1000 is not taken
for one, and the buffer has 80 candles. -/
theorem buffer_too_short :
    StaysCold VariantTag.adx.variant (ParamSet.ofList [("period", 31), ("adx_threshold", 25)]) ∧
      StaysCold VariantTag.rsi.variant (ParamSet.ofList [("period", 1000), ("overbought", 70), ("oversold", 30)]) := by
  constructor
  · refine staysCold_of_candleBuffer_lt (g := .adx (.start 31 25)) (by rfl) (.adx 31 25) ?_
    show _ < 62
    decide +kernel
  · refine staysCold_of_candleBuffer_lt (g := .rsi (.start 1000 70 30)) (by rfl) (.rsi 1000 70 30) ?_
    show _ < 1001
    decide +kernel

end BotSpec
