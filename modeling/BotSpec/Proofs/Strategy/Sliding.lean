import BotSpec.Proofs.Indicator.Stochastic
import BotSpec.Proofs.Indicator.Vwap
import BotSpec.Proofs.Indicator.WilliamsR
import BotSpec.Proofs.Market.Candle

/-!
# Sliding windows on candles

Williams %R, the stochastic oscillator and the volume-weighted average price look at the last bars
only. Each has a formula over the history, and this file brings the formulas to candles: after any
run of a fresh indicator its reading is the formula's value and its vote says what the formula's
value says (`WilliamsR.Reports`, `Stochastic.Reports`, `Vwap.Reports`).

> `sliding_windows`: all three report their formulas, and candles before the last ones change
> nothing.

The prices of candles are numbers and their volumes finite, so nothing is asked of the candles. A
reading is the same number as the formula's value: which of two zeros an oscillator keeps is a
matter of places in its rings.
-/

namespace BotSpec.Indicator

open Arith (Same)

/-- What Williams %R says after some bars: %R over the last ones, and a vote on its level. -/
structure WilliamsR.Reports (period : Nat) (overbought oversold : Float) (bars : List (Bar Float))
    (r : Signal × WilliamsR Float) : Prop where
  reading : Option.Rel Same r.2.reading (percentR? period bars)
  buy_iff : r.1 = .buy ↔ ∃ x, percentR? period bars = some x ∧ x < oversold
  sell_iff : r.1 = .sell ↔ ∃ x, percentR? period bars = some x ∧ ¬ x < oversold ∧ overbought < x

/-- What the stochastic oscillator says after some bars: %K over the last ones, and a vote on a
cross of %K and %D, each from four values of %K in a row, the first of them three bars ago. -/
structure Stochastic.Reports (period : Nat) (overbought oversold : Float) (bars : List (Bar Float))
    (r : Signal × Stochastic Float) : Prop where
  reading : Option.Rel Same r.2.k (percentKs period bars 0)
  buy_iff : r.1 = .buy ↔ ∃ k₃ k₂ k₁ k₀,
    percentKs period bars 3 = some k₃ ∧ percentKs period bars 2 = some k₂ ∧
    percentKs period bars 1 = some k₁ ∧ percentKs period bars 0 = some k₀ ∧
    k₁ < percentD k₃ k₂ k₁ ∧ percentD k₂ k₁ k₀ < k₀ ∧ k₀ < oversold
  sell_iff : r.1 = .sell ↔ ∃ k₃ k₂ k₁ k₀,
    percentKs period bars 3 = some k₃ ∧ percentKs period bars 2 = some k₂ ∧
    percentKs period bars 1 = some k₁ ∧ percentKs period bars 0 = some k₀ ∧
    percentD k₃ k₂ k₁ < k₁ ∧ k₀ < percentD k₂ k₁ k₀ ∧ overbought < k₀

/-- What the volume-weighted average price says after some bars: the average over the last ones, and
a vote on the side of the last close. -/
structure Vwap.Reports (period : Nat) (bars : List (Bar Float)) (r : Signal × Vwap Float) : Prop where
  reading : r.2.reading = vwap? period bars
  buy_iff : r.1 = .buy ↔
    ∃ x bar, vwap? period bars = some x ∧ bars.getLast? = some bar ∧ bar.close < x
  sell_iff : r.1 = .sell ↔
    ∃ x bar, vwap? period bars = some x ∧ bars.getLast? = some bar ∧ x < bar.close

variable {period : Nat} {overbought oversold : Float}

/-- After any candles %R is that of the last `period` of them, and so is the vote. -/
theorem WilliamsR.reports {s : WilliamsR Float} (hs : start? period overbought oversold = some s)
    (candles : List Candle) :
    Reports period overbought oversold (candles.map Candle.bar)
      (replay step s (candles.map Candle.bar)) := by
  obtain ⟨hvote, hfollows⟩ := (follows_start hs).replay
    fun bar => Candle.isPriced_of_mem_bars
  refine ⟨hfollows.reading, ?_, ?_⟩
  · rw [hvote]
    exact percentRVote_eq_buy_iff
  · rw [hvote]
    exact percentRVote_eq_sell_iff

/-- After any candles %K is that of the last `period` of them, and the vote that of the last
`period + 3`. -/
theorem Stochastic.reports {s : Stochastic Float} (hs : start? period overbought oversold = some s)
    (candles : List Candle) :
    Reports period overbought oversold (candles.map Candle.bar)
      (replay step s (candles.map Candle.bar)) := by
  obtain ⟨hvote, hfollows⟩ := (follows_start hs).replay
    fun bar => Candle.isPriced_of_mem_bars
  refine ⟨hfollows.reading, ?_, ?_⟩
  · rw [hvote, percentKVote_eq_iff (by decide)]
    simp only [crossVote_eq_buy_iff]
  · rw [hvote, percentKVote_eq_iff (by decide)]
    simp only [crossVote_eq_sell_iff]

/-- After any candles the average is that of the last `period` of them, and so is the vote. -/
theorem Vwap.reports (hperiod : period ≠ 0) (candles : List Candle) :
    Reports period (candles.map Candle.bar)
      (replay step (start period) (candles.map Candle.bar)) := by
  obtain ⟨hvote, hfollows⟩ := (follows_start hperiod).replay hperiod
    fun bar => Candle.isAddable_of_mem_bars
  refine ⟨hfollows.reading, ?_, ?_⟩
  · rw [hvote]
    exact vwapVote_eq_buy_iff
  · rw [hvote]
    exact vwapVote_eq_sell_iff

/-- **Sliding windows.** After any run of candles each of the three reports its formula over the
last bars, and so it does whatever candles came before them; the stochastic oscillator looks back
over three bars more. -/
theorem sliding_windows (hperiod : 1 ≤ period) (overbought oversold : Float) :
    (∃ s, WilliamsR.start? period overbought oversold = some s ∧ ∀ candles : List Candle,
      let bars := candles.map Candle.bar
      WilliamsR.Reports period overbought oversold bars (replay WilliamsR.step s bars) ∧
      ∀ older : List Candle, period ≤ candles.length →
        WilliamsR.Reports period overbought oversold bars
          (replay WilliamsR.step s (older.map Candle.bar ++ bars))) ∧
    (∃ s, Stochastic.start? period overbought oversold = some s ∧ ∀ candles : List Candle,
      let bars := candles.map Candle.bar
      Stochastic.Reports period overbought oversold bars (replay Stochastic.step s bars) ∧
      ∀ older : List Candle, period + 3 ≤ candles.length →
        Stochastic.Reports period overbought oversold bars
          (replay Stochastic.step s (older.map Candle.bar ++ bars))) ∧
    ∀ candles : List Candle,
      let bars := candles.map Candle.bar
      Vwap.Reports period bars (replay Vwap.step (Vwap.start period) bars) ∧
      ∀ older : List Candle, period ≤ candles.length →
        Vwap.Reports period bars
          (replay Vwap.step (Vwap.start period) (older.map Candle.bar ++ bars)) := by
  -- a fresh generator reports on all bars, and the formula forgets the older ones
  have hne : period ≠ 0 := by omega
  have hbars : ∀ candles : List Candle, period ≤ candles.length → candles.map Candle.bar ≠ [] := by
    intro candles hlen hnil
    rw [List.map_eq_nil_iff.mp hnil, List.length_nil] at hlen
    omega
  have hlength : ∀ candles : List Candle, period ≤ candles.length →
      period ≤ (candles.map Candle.bar).length := by
    intro candles hlen
    rw [List.length_map]
    exact hlen
  refine ⟨?_, ?_, ?_⟩
  · obtain ⟨s, hs⟩ : ∃ s, WilliamsR.start? period overbought oversold = some s := by
      simp [WilliamsR.start?, Extremum.start?, hne]
    refine ⟨s, hs, fun candles => ⟨WilliamsR.reports hs candles, ?_⟩⟩
    intro older hlen
    have hreports := WilliamsR.reports hs (older ++ candles)
    rw [List.map_append] at hreports
    have hforget := percentR?_append (hbars candles hlen) (hlength candles hlen) (older.map Candle.bar)
    obtain ⟨hreading, hbuy, hsell⟩ := hreports
    rw [hforget] at hreading hbuy hsell
    exact ⟨hreading, hbuy, hsell⟩
  · obtain ⟨s, hs⟩ : ∃ s, Stochastic.start? period overbought oversold = some s := by
      simp [Stochastic.start?, Extremum.start?, hne]
    refine ⟨s, hs, fun candles => ⟨Stochastic.reports hs candles, ?_⟩⟩
    intro older hlen
    have hreports := Stochastic.reports hs (older ++ candles)
    rw [List.map_append] at hreports
    have hforget : ∀ ago, ago ≤ 3 → percentKs period (older.map Candle.bar ++ candles.map Candle.bar) ago
        = percentKs period (candles.map Candle.bar) ago := by
      intro ago hago
      apply percentKs_append hne
      rw [List.length_map]
      omega
    obtain ⟨hreading, hbuy, hsell⟩ := hreports
    rw [hforget 0 (by decide)] at hreading
    rw [hforget 0 (by decide), hforget 1 (by decide), hforget 2 (by decide), hforget 3 (by decide)]
      at hbuy hsell
    exact ⟨hreading, hbuy, hsell⟩
  · intro candles
    refine ⟨Vwap.reports hne candles, ?_⟩
    intro older hlen
    have hreports := Vwap.reports hne (older ++ candles)
    rw [List.map_append] at hreports
    have hforget := vwap?_append (hlength candles hlen) (older.map Candle.bar)
    obtain ⟨hreading, hbuy, hsell⟩ := hreports
    rw [hforget, List.getLast?_append_of_ne_nil _ (hbars candles hlen)] at hbuy hsell
    rw [hforget] at hreading
    exact ⟨hreading, hbuy, hsell⟩

/-- A close three quarters down the range of two candles, after a candle that has left the window. -/
theorem sliding_windows_two :
    let candle := fun high low close : Nat =>
      (⟨.ofCount 100, .ofCount high.toUInt32, .ofCount low.toUInt32, .ofCount close.toUInt32, .one⟩ : Candle)
    let bars := [candle 110 95 100, candle 105 90 95].map Candle.bar
    1 ≤ 2 ∧ percentR? 2 bars = some (-75) ∧
      ∃ s, WilliamsR.start? 2 (-20) (-70) = some s ∧
        (replay WilliamsR.step s ([candle 500 10 400].map Candle.bar ++ bars)).1 = .buy := by
  intro candle bars
  obtain ⟨⟨s, hs, hreports⟩, -, -⟩ := sliding_windows (show 1 ≤ 2 by decide) (-20) (-70)
  obtain ⟨-, hforget⟩ := hreports [candle 110 95 100, candle 105 90 95]
  have hvalue : percentR? 2 bars = some (-75) := by decide +kernel
  have hlow : (-75 : Float) < -70 := by decide +kernel
  refine ⟨by decide, hvalue, s, hs, ?_⟩
  exact (hforget [candle 500 10 400] (by decide)).buy_iff.mpr ⟨-75, hvalue, hlow⟩

end BotSpec.Indicator
