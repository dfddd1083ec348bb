import BotSpec.Indicator.Band
import BotSpec.Indicator.Oscillator
import BotSpec.Indicator.Volume

/-!
# What a reset forgets

A reset of an indicator keeps its settings and nothing else. For the eight indicators without a ring
this is an equation between states: a step leaves the reset state alone (`reset_step`), and the
state before the first bar is its own reset (`reset_start`). So whatever bars it has seen, a reset
indicator is the fresh one.

The oscillators over a range are not among them, since their rings keep two places over a reset.
-/

namespace BotSpec.Indicator

variable {α : Type} [Arith α]

/-! ## Steps -/

/-- A change adds to the averages and to the count, which a reset clears. -/
theorem Rsi.reset_step (s : Rsi α) (bar : Bar α) : (s.step bar).2.reset = s.reset := by
  unfold step
  split
  next => rfl
  next =>
    simp only
    split <;> rfl

/-- A close goes into the window of the deviation, which a reset empties. -/
theorem Bollinger.reset_step (s : Bollinger α) (bar : Bar α) : (s.step bar).2.reset = s.reset := by
  unfold step
  simp only
  split <;> rfl

/-- The three averages, the last histogram and the count are all that a close changes. -/
theorem Macd.reset_step (s : Macd α) (bar : Bar α) : (s.step bar).2.reset = s.reset := rfl

/-- The two averages, their last values and the count are all that a close changes. -/
theorem EmaCrossover.reset_step (s : EmaCrossover α) (bar : Bar α) :
    (s.step bar).2.reset = s.reset := rfl

/-- The two means, the last close, the reading and the count are all that a bar changes. -/
theorem AtrReversion.reset_step (s : AtrReversion α) (bar : Bar α) :
    (s.step bar).2.reset = s.reset := by
  unfold step
  simp only
  split <;> rfl

/-- The window and the reading are all that a bar changes. -/
theorem Vwap.reset_step (s : Vwap α) (bar : Bar α) : (s.step bar).2.reset = s.reset := by
  unfold step
  simp only
  split
  next => rfl
  next => split <;> rfl

/-- A bar changes the balance of volumes, its mean and the last close. -/
theorem Obv.reset_step (s : Obv α) (bar : Bar α) : (s.step bar).2.reset = s.reset := by
  unfold step
  simp only
  split <;> rfl

/-- The smoothed moves, the reading and the last bar are all that a bar changes. -/
theorem Adx.reset_step (s : Adx α) (bar : Bar α) : (s.step bar).2.reset = s.reset := by
  unfold step
  split
  next => rfl
  next =>
    simp only
    split <;> rfl

/-! ## Before the first bar -/

omit [Arith α] in
/-- An average that has seen no number is its own reset. -/
theorem Ema.reset_start {period : Nat} {e : Ema α} (h : start? period = some e) : e.reset = e := by
  unfold start? at h
  split at h
  next => cases h
  next =>
    cases h
    rfl

theorem Sma.reset_start {period : Nat} {s : Sma α} (h : start? period = some s) : s.reset = s := by
  unfold start? at h
  split at h
  next => cases h
  next =>
    cases h
    rfl

theorem Deviation.reset_start {period : Nat} {s : Deviation α} (h : start? period = some s) :
    s.reset = s := by
  unfold start? at h
  split at h
  next => cases h
  next =>
    cases h
    rfl

/-- Fresh bands are their own reset, since their deviation is. -/
theorem Bollinger.reset_start {period : Nat} {multiplier : α} {s : Bollinger α}
    (h : start? period multiplier = some s) : s.reset = s := by
  obtain ⟨d, hd, rfl⟩ := Option.map_eq_some_iff.mp h
  simp only [reset, Deviation.reset_start hd]

omit [Arith α] in
/-- A divergence is reset with its three averages. -/
theorem Divergence.reset_start {fast slow line : Nat} {d : Divergence α}
    (h : start? fast slow line = some d) : d.reset = d := by
  simp only [start?, Option.bind_eq_bind, Option.bind_eq_some_iff] at h
  obtain ⟨f, hf, s, hs, l, hl, heq⟩ := h
  cases heq
  simp only [reset, Ema.reset_start hf, Ema.reset_start hs, Ema.reset_start hl]

/-- A fresh MACD is its own reset, since its divergence is. -/
theorem Macd.reset_start {fast slow line : Nat} {s : Macd α} (h : start? fast slow line = some s) :
    s.reset = s := by
  obtain ⟨d, hd, rfl⟩ := Option.map_eq_some_iff.mp h
  simp only [reset, Divergence.reset_start hd]

/-- A fresh crossover is its own reset, since its two averages are. -/
theorem EmaCrossover.reset_start {fast slow : Nat} {s : EmaCrossover α}
    (h : start? fast slow = some s) : s.reset = s := by
  simp only [start?, Option.bind_eq_bind, Option.bind_eq_some_iff] at h
  obtain ⟨f, hf, l, hl, heq⟩ := h
  cases heq
  simp only [reset, Ema.reset_start hf, Ema.reset_start hl]

/-- Fresh bands of ranges are their own reset, since both means are. -/
theorem AtrReversion.reset_start {rangePeriod meanPeriod : Nat} {multiplier : α} {s : AtrReversion α}
    (h : start? rangePeriod meanPeriod multiplier = some s) : s.reset = s := by
  simp only [start?, Option.bind_eq_bind, Option.bind_eq_some_iff] at h
  obtain ⟨r, hr, m, hm, heq⟩ := h
  cases heq
  simp only [reset, Sma.reset_start hr, Sma.reset_start hm]

/-- A fresh balance is its own reset, since the mean of the balances is. -/
theorem Obv.reset_start {period : Nat} {s : Obv α} (h : start? period = some s) : s.reset = s := by
  obtain ⟨a, ha, rfl⟩ := Option.map_eq_some_iff.mp h
  simp only [reset, Sma.reset_start ha]

end BotSpec.Indicator
