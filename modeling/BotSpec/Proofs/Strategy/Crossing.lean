import BotSpec.Proofs.Binary64.Arithmetic
import BotSpec.Proofs.Indicator.Crossover
import BotSpec.Proofs.Strategy.FirstVote

/-!
# Votes on the edge

A crossover votes on the bar on which its reading crosses over, and on no other one. Its reading is
two numbers that are compared, the histogram with zero or the fast average with the slow one, and it
has one from the first bar on, long before it may vote.

> `crossovers_are_edge_triggered`: after the warm-up a vote says that the reading has crossed since
> the bar before.

What follows is said of votes and readings alone (`MarksCrossings.edgeTriggered`): two votes to buy
have a reading between them that is not above, no vote is repeated on the next bar, and what has
crossed during the warm-up is passed over.
-/

namespace BotSpec

open Indicator

/-! ## Readings and votes by number -/

/-- Up to the bar `slow` the votes hold, and after it they mark the bars on which the reading
crosses. -/
structure MarksCrossings (slow last : Nat) (reading : Nat → Float × Float) (vote : Nat → Signal) : Prop where
  warmup : ∀ n ≤ slow, vote n = .hold
  buy_iff : ∀ n, slow ≤ n → n < last →
    (vote (n + 1) = .buy ↔ (reading n).1 ≤ (reading n).2 ∧ (reading (n + 1)).2 < (reading (n + 1)).1)
  sell_iff : ∀ n, slow ≤ n → n < last →
    (vote (n + 1) = .sell ↔ (reading n).2 ≤ (reading n).1 ∧ (reading (n + 1)).1 < (reading (n + 1)).2)

/-- What comes of that: crossings of one direction have the other one between them, are not seen
twice, and are not reported late. -/
structure EdgeTriggered (slow last : Nat) (reading : Nat → Float × Float) (vote : Nat → Signal) : Prop
    extends MarksCrossings slow last reading vote where
  between_buys : ∀ m n, m < n → n ≤ last → vote m = .buy → vote n = .buy →
    ∃ k, m < k ∧ k < n ∧ (reading k).1 ≤ (reading k).2
  between_sells : ∀ m n, m < n → n ≤ last → vote m = .sell → vote n = .sell →
    ∃ k, m < k ∧ k < n ∧ (reading k).2 ≤ (reading k).1
  not_repeated : ∀ n < last, vote n ≠ .hold → vote (n + 1) ≠ vote n
  no_late_buy : ∀ k n, k ≤ slow → k ≤ n → n ≤ last → (∀ i, k ≤ i → i ≤ n → (reading i).2 < (reading i).1) →
    vote n ≠ .buy
  no_late_sell : ∀ k n, k ≤ slow → k ≤ n → n ≤ last → (∀ i, k ≤ i → i ≤ n → (reading i).1 < (reading i).2) →
    vote n ≠ .sell

/-- Doubles that compare at all compare one way. -/
theorem Binary64.not_lt_of_le {x y : Float} (h : x ≤ y) : ¬ y < x := by
  obtain ⟨-, -, hle⟩ := le_iff.mp h
  intro hlt
  exact not_lt_of_ge hle (lt_iff.mp hlt).2.2

namespace MarksCrossings

variable {slow last : Nat} {reading : Nat → Float × Float} {vote : Nat → Signal}

/-- Both directions are alike: with the numbers of every pair exchanged, the opposite votes mark the
crossings. -/
theorem swap (h : MarksCrossings slow last reading vote) :
    MarksCrossings slow last (fun n => (reading n).swap) fun n => (vote n).opposite where
  warmup n hn := congrArg Signal.opposite (h.warmup n hn)
  buy_iff n hn hlast := Signal.opposite_involutive.eq_iff.trans (h.sell_iff n hn hlast)
  sell_iff n hn hlast := Signal.opposite_involutive.eq_iff.trans (h.buy_iff n hn hlast)

/-- A bar with a vote is behind the warm-up, and so has a bar before it. -/
theorem exists_before (h : MarksCrossings slow last reading vote) {n : Nat} (hvote : vote n ≠ .hold) :
    ∃ k, n = k + 1 ∧ slow ≤ k := by
  have hslow : slow < n := by
    by_contra hle
    exact hvote (h.warmup n (Nat.le_of_not_lt hle))
  exact ⟨n - 1, by omega, by omega⟩

/-- The reading of a vote to buy is above, that of the bar before it is not. -/
theorem of_buy (h : MarksCrossings slow last reading vote) {n : Nat} (hlast : n ≤ last)
    (hvote : vote n = .buy) :
    ∃ k, n = k + 1 ∧ slow ≤ k ∧ (reading k).1 ≤ (reading k).2 ∧ (reading n).2 < (reading n).1 := by
  obtain ⟨k, rfl, hslow⟩ := h.exists_before (by rw [hvote]; decide)
  exact ⟨k, rfl, hslow, (h.buy_iff k hslow hlast).mp hvote⟩

/-- The bar before the later vote is the one between: it is not the bar of the earlier vote, whose
reading is above. -/
theorem between_buys (h : MarksCrossings slow last reading vote) {m n : Nat} (hlt : m < n) (hlast : n ≤ last)
    (hm : vote m = .buy) (hn : vote n = .buy) : ∃ k, m < k ∧ k < n ∧ (reading k).1 ≤ (reading k).2 := by
  obtain ⟨-, -, -, -, habove⟩ := h.of_buy (by omega) hm
  obtain ⟨k, rfl, -, hbelow, -⟩ := h.of_buy hlast hn
  refine ⟨k, ?_, Nat.lt_succ_self k, hbelow⟩
  rcases Nat.lt_succ_iff_lt_or_eq.mp hlt with hlt | rfl
  · exact hlt
  · exact absurd habove (Binary64.not_lt_of_le hbelow)

/-- A reading that is above since the warm-up does not come from below any more. -/
theorem no_late_buy (h : MarksCrossings slow last reading vote) {k n : Nat} (hk : k ≤ slow) (hlast : n ≤ last)
    (habove : ∀ i, k ≤ i → i ≤ n → (reading i).2 < (reading i).1) : vote n ≠ .buy := by
  intro hvote
  -- the bar before a vote is not before the crossing
  obtain ⟨j, rfl, hslow, hbelow, -⟩ := h.of_buy hlast hvote
  exact Binary64.not_lt_of_le hbelow (habove j (hk.trans hslow) (Nat.le_succ j))

/-- Nothing lies between a bar and the next one. -/
theorem not_bought_again (h : MarksCrossings slow last reading vote) {n : Nat} (hlast : n < last)
    (hvote : vote n = .buy) :
    vote (n + 1) ≠ .buy := by
  intro hagain
  obtain ⟨k, hlow, hhigh, -⟩ := h.between_buys (Nat.lt_succ_self n) hlast hvote hagain
  omega

/-- Votes that mark crossings are triggered by the edge alone. -/
theorem edgeTriggered (h : MarksCrossings slow last reading vote) : EdgeTriggered slow last reading vote where
  toMarksCrossings := h
  between_buys _ _ := h.between_buys
  between_sells _ _ hlt hlast hm hn :=
    h.swap.between_buys hlt hlast (congrArg Signal.opposite hm) (congrArg Signal.opposite hn)
  not_repeated n hlast hvote hsame := by
    cases hn : vote n with
    | buy => exact h.not_bought_again hlast hn (hsame.trans hn)
    | sell => exact h.swap.not_bought_again hlast (congrArg Signal.opposite hn) (congrArg Signal.opposite (hsame.trans hn))
    | hold => exact hvote hn
  no_late_buy _ _ hk _ hlast habove := h.no_late_buy hk hlast habove
  no_late_sell _ _ hk _ hlast hbelow hvote := h.swap.no_late_buy hk hlast hbelow (congrArg Signal.opposite hvote)

end MarksCrossings

/-- The votes on crossings of the pairs that a formula gives for every history but the empty one. -/
theorem marksCrossings_of_crossingVote {slow : Nat} (hslow : slow ≠ 0) {compared? : List Float → Option (Float × Float)}
    {bars : List (Bar Float)} {V : List (Bar Float) → Signal}
    (hsome : ∀ n, 1 ≤ n → n ≤ bars.length → ∃ p, compared? ((bars.take n).map Bar.close) = some p)
    (hvote : ∀ n, V (bars.take n) = crossingVote slow compared? ((bars.take n).map Bar.close)) :
    ∃ reading : Nat → Float × Float,
      (∀ n, 1 ≤ n → n ≤ bars.length → compared? ((bars.take n).map Bar.close) = some (reading n)) ∧
      MarksCrossings slow bars.length reading fun n => V (bars.take n) := by
  let reading := fun n : Nat => (compared? ((bars.take n).map Bar.close)).getD (0, 0)
  have hreading : ∀ n, 1 ≤ n → n ≤ bars.length → compared? ((bars.take n).map Bar.close) = some (reading n) := by
    intro n hpos hlast
    obtain ⟨p, hp⟩ := hsome n hpos hlast
    show _ = some ((compared? ((bars.take n).map Bar.close)).getD (0, 0))
    rw [hp, Option.getD_some]
  -- behind the warm-up a vote is told by two readings in a row
  have hturn : ∀ n, slow ≤ n → n < bars.length → V (bars.take (n + 1)) = turn (reading n) (reading (n + 1)) := by
    intro n hn hlast
    have hbefore := hreading n (by omega) hlast.le
    have hnow := hreading (n + 1) (by omega) hlast
    have hlength : ((bars.take n).map Bar.close).length = n := by
      rw [List.length_map, List.length_take, Nat.min_eq_left hlast.le]
    rw [hvote, List.take_succ_eq_append_getElem hlast, List.map_append, List.map_singleton]
    rw [List.take_succ_eq_append_getElem hlast, List.map_append, List.map_singleton] at hnow
    exact crossingVote_concat (by omega) hbefore hnow
  refine ⟨reading, hreading, ⟨?_, ?_, ?_⟩⟩
  · intro n hn
    rw [hvote, crossingVote, if_pos]
    rw [List.length_map, List.length_take]
    omega
  · intro n hn hlast
    rw [hturn n hn hlast, turn_eq_buy_iff]
  · intro n hn hlast
    rw [hturn n hn hlast, turn_eq_sell_iff]

/-! ## Resets -/

namespace Generator

/-- A crossover of either kind. -/
inductive IsCrossover {α : Type} : Generator α → Prop where
  | macd (s : Macd α) : IsCrossover (.macd s)
  | emaCrossover (s : EmaCrossover α) : IsCrossover (.emaCrossover s)

variable {α : Type} [Arith α] {g : Generator α}

/-- A bar or a reset leaves a crossover what it is, with the same reset. -/
theorem IsCrossover.handle (h : g.IsCrossover) (event : Event α) :
    (g.handle event).IsCrossover ∧ (g.handle event).reset = g.reset := by
  cases event with
  | bar bar =>
    cases h with
    | macd s => exact ⟨.macd _, congrArg Generator.macd (s.reset_step bar)⟩
    | emaCrossover s => exact ⟨.emaCrossover _, congrArg Generator.emaCrossover (s.reset_step bar)⟩
  | reset =>
    cases h with
    | macd s => exact ⟨.macd _, rfl⟩
    | emaCrossover s => exact ⟨.emaCrossover _, rfl⟩

/-- Whatever a crossover has been told, a reset makes it what a reset at once would make it. -/
theorem IsCrossover.reset_after (h : g.IsCrossover) (events : List (Event α)) :
    (g.after events).reset = g.reset := by
  induction events generalizing g with
  | nil => rfl
  | cons event events ih =>
    obtain ⟨hcrossover, hreset⟩ := h.handle event
    exact (ih hcrossover).trans hreset

end Generator

/-! ## Crossovers from parameters -/

/-- The two numbers that a crossover compares after some closes. -/
def IndicatorKind.compared? (kind : IndicatorKind) (c : ComponentParams) (closes : List Float) : Option (Float × Float) :=
  match kind with
  | .macd => Macd.compared? (c.bars .fast) (c.bars .slow) (c.bars .signalPeriod) closes
  | .emaCrossover => EmaCrossover.compared? (c.bars .fast) (c.bars .slow) closes
  | _ => none

theorem take_map_ne_nil {α β : Type} {xs : List α} {n : Nat} (hpos : 1 ≤ n) (hlast : n ≤ xs.length)
    (f : α → β) :
    (xs.take n).map f ≠ [] := by
  intro hnil
  have hlength := congrArg List.length hnil
  rw [List.length_map, List.length_take, List.length_nil] at hlength
  omega

/-- A crossover that is built from parameters marks the crossings of its formula, from its first bar
on. -/
theorem Generator.marksCrossings_of_ofComponent {kind : IndicatorKind} {c : ComponentParams} {g : Generator Float}
    (hg : ofComponent kind c = .ok g) (hkind : kind = .macd ∨ kind = .emaCrossover) (bars : List (Bar Float)) :
    g.IsCrossover ∧ ∃ reading : Nat → Float × Float,
      (∀ n, 1 ≤ n → n ≤ bars.length → kind.compared? c ((bars.take n).map Bar.close) = some (reading n)) ∧
      MarksCrossings (c.bars .slow) bars.length reading fun n => (replay step g (bars.take n)).1 := by
  cases builtFrom_of_ofComponent hg with
  | @macd fast slow line s hfast hslow hline hs =>
    obtain ⟨hne, hstart⟩ := Macd.follows_start hs
    refine ⟨.macd s, ?_⟩
    simp only [IndicatorKind.compared?, ComponentParams.bars_eq hfast, ComponentParams.bars_eq hslow,
      ComponentParams.bars_eq hline]
    refine marksCrossings_of_crossingVote (V := fun bars => (replay step (.macd s) bars).1) hne ?_ ?_
    · intro n hpos hlast
      exact ⟨_, (hstart.replay hne (bars.take n)).2.previous (take_map_ne_nil hpos hlast _)⟩
    · intro n
      rw [replay_make .macd Macd.step fun _ _ => rfl]
      exact (hstart.replay hne (bars.take n)).1
  | @emaCrossover fast slow s hfast hslow hs =>
    obtain ⟨hne, hstart⟩ := EmaCrossover.follows_start hs
    refine ⟨.emaCrossover s, ?_⟩
    simp only [IndicatorKind.compared?, ComponentParams.bars_eq hfast, ComponentParams.bars_eq hslow]
    refine marksCrossings_of_crossingVote (V := fun bars => (replay step (.emaCrossover s) bars).1) hne ?_ ?_
    · intro n hpos hlast
      exact ⟨_, (hstart.replay hne (bars.take n)).2.previous (take_map_ne_nil hpos hlast _)⟩
    · intro n
      rw [replay_make .emaCrossover EmaCrossover.step fun _ _ => rfl]
      exact (hstart.replay hne (bars.take n)).1
  | _ => rcases hkind with h | h <;> cases h

/-- **Crossovers are edge-triggered.** A crossover that is built from parameters has a reading after
each bar since it was built or last reset: the histogram and zero, or the fast and the slow average,
as formulas of the closes. Its votes on these bars mark the crossings of the reading, after as many
bars as the slow period. -/
theorem crossovers_are_edge_triggered {kind : IndicatorKind} {c : ComponentParams} {g : Generator Float}
    (hg : Generator.ofComponent kind c = .ok g) (hkind : kind = .macd ∨ kind = .emaCrossover) {start : Generator Float}
    (hstart : start = g ∨ ∃ events, start = (g.after events).reset) (bars : List (Bar Float)) :
    ∃ reading : Nat → Float × Float,
      (∀ n, 1 ≤ n → n ≤ bars.length → kind.compared? c ((bars.take n).map Bar.close) = some (reading n)) ∧
      EdgeTriggered (c.bars .slow) bars.length reading fun n => (replay Generator.step start (bars.take n)).1 := by
  obtain ⟨hcrossover, reading, hreading, hmarks⟩ := Generator.marksCrossings_of_ofComponent hg hkind bars
  have hsame : start = g := by
    rcases hstart with rfl | ⟨events, rfl⟩
    · rfl
    · exact (hcrossover.reset_after events).trans (Generator.fresh_of_ofComponent hg).reset_eq
  rw [hsame]
  exact ⟨reading, hreading, hmarks.edgeTriggered⟩

/-- After a reset, closes that fall and then rise above their average over two bars. -/
theorem crossovers_are_edge_triggered_rise :
    let bar := fun close : Float => (⟨close, close, close, 1⟩ : Bar Float)
    let c := Component.bind ⟨.emaCrossover, Schema.alone .emaCrossover⟩ (ParamSet.ofList [("fast", 1), ("slow", 2)])
    ∃ g, Generator.ofComponent .emaCrossover c = .ok g ∧
      (replay Generator.step (g.after [.bar (bar 100), .bar (bar 200)]).reset [bar 100, bar 90, bar 110]).1 = .buy := by
  intro bar c
  obtain ⟨g, hg⟩ : ∃ g, Generator.ofComponent .emaCrossover c = .ok g := ⟨_, rfl⟩
  refine ⟨g, hg, ?_⟩
  obtain ⟨reading, hreading, hedge⟩ := crossovers_are_edge_triggered hg (.inr rfl)
    (.inr ⟨[.bar (bar 100), .bar (bar 200)], rfl⟩)
    [bar 100, bar 90, bar 110]
  have hslow : c.bars .slow = 2 := by decide +kernel
  have hsecond := hreading 2 (by decide) (by decide)
  have hthird := hreading 3 (by decide) (by decide)
  have hbelow : ∃ p, IndicatorKind.emaCrossover.compared? c [100, 90] = some p ∧ p.1 ≤ p.2 := ⟨_, rfl, by decide +kernel⟩
  have habove : ∃ p, IndicatorKind.emaCrossover.compared? c [100, 90, 110] = some p ∧ p.2 < p.1 :=
    ⟨_, rfl, by decide +kernel⟩
  obtain ⟨p, hp, hle⟩ := hbelow
  obtain ⟨q, hq, hlt⟩ := habove
  obtain rfl : p = reading 2 := Option.some.inj (hp.symm.trans hsecond)
  obtain rfl : q = reading 3 := Option.some.inj (hq.symm.trans hthird)
  exact (hedge.buy_iff 2 (by rw [hslow]) (by decide)).mpr ⟨hle, hlt⟩

end BotSpec
