import BotSpec.Proofs.Indicator.Range
import BotSpec.Proofs.Strategy.Run

/-!
# The stochastic oscillator as a formula

`percentK?` places the last close in the range of the last bars; `percentKVote` votes on a cross of
%K and %D, for which it looks at the last four values of %K. The indicator computes both step by
step:

> `Stochastic.Follows.replay`: after any run the reading is the formula's value, and the vote is the
> formula's vote.

Besides its rings the indicator remembers the values of %K since the last gap, and the %K and %D of
the bar before. Both are functions of the values of %K so far (`Stochastic.Remembers`), which leaves
the rings as the only thing to compare with the history.
-/

namespace BotSpec.Indicator

open Arith

variable {α : Type} [Arith α]

/-- Where the last close stands in the range, as a percentage. -/
def percentK? (period : Nat) (bars : List (Bar α)) : Option α := do
  let (hh, ll) ← range? period bars
  let bar ← bars.getLast?
  return ofNat 100 * (bar.close - ll) / (hh - ll)

/-- %D over three values of %K, the oldest one first. -/
def percentD (a b c : α) : α := (ofNat 0 + a + b + c) / ofNat 3

/-- The values of %K by how many bars ago they were. -/
def percentKs (period : Nat) (bars : List (Bar α)) (ago : Nat) : Option α :=
  percentK? period (bars.rdrop ago)

/-- %K and %D where there have been three values of %K in a row. -/
def crossing (ks : Nat → Option α) : Option (α × α) :=
  match ks 0, ks 1, ks 2 with
  | some c, some b, some a => some (c, percentD a b c)
  | _, _, _ => none

/-- The vote on a cross of %K and %D, which takes four values of %K in a row. -/
def percentKVote (overbought oversold : α) (ks : Nat → Option α) : Signal :=
  match crossing ks with
  | none => .hold
  | some (k, d) => Stochastic.crossVote overbought oversold (crossing fun ago => ks (ago + 1)) k d

/-- Without bars there is no range, so no %K. -/
theorem percentK?_nil (period : Nat) : percentK? period ([] : List (Bar α)) = none := by
  rw [percentK?, range?_nil]
  rfl

theorem percentKs_nil (period ago : Nat) : percentKs period ([] : List (Bar α)) ago = none := by
  rw [percentKs, List.rdrop_nil, percentK?_nil]

/-- Bars before the last ones have no part in the latest values of %K. -/
theorem percentKs_append {period ago : Nat} {bars : List (Bar α)} (hperiod : period ≠ 0)
    (h : period + ago ≤ bars.length) (older : List (Bar α)) :
    percentKs period (older ++ bars) ago = percentKs period bars ago := by
  have hdrop : (older ++ bars).rdrop ago = older ++ bars.rdrop ago := by
    rw [List.rdrop, List.rdrop, List.length_append, Nat.add_sub_assoc (by omega), List.take_length_add_append]
  have hlen : (bars.rdrop ago).length = bars.length - ago := List.length_take_of_le (Nat.sub_le _ _)
  have hne : bars.rdrop ago ≠ [] := by
    intro hnil
    rw [hnil, List.length_nil] at hlen
    omega
  rw [percentKs, percentKs, hdrop, percentK?, percentK?, range?_append (by omega),
    List.getLast?_append_of_ne_nil _ hne]

/-- There is a crossing to look at exactly if the last three bars have a %K each, and %D is their
mean. -/
theorem crossing_eq_some_iff {ks : Nat → Option α} {k d : α} :
    crossing ks = some (k, d) ↔
      ∃ a b, ks 2 = some a ∧ ks 1 = some b ∧ ks 0 = some k ∧ d = percentD a b k := by
  simp only [crossing]
  constructor
  · intro h
    split at h
    next c b a hc hb ha =>
      cases h
      exact ⟨a, b, ha, hb, hc, rfl⟩
    next => cases h
  · rintro ⟨a, b, ha, hb, hk, rfl⟩
    rw [ha, hb, hk]

/-- What a vote that is not to hold takes: four values of %K in a row, and a cross among them. -/
theorem percentKVote_eq_iff {overbought oversold : α} {ks : Nat → Option α} {vote : Signal}
    (hvote : vote ≠ .hold) :
    percentKVote overbought oversold ks = vote ↔
      ∃ k₃ k₂ k₁ k₀, ks 3 = some k₃ ∧ ks 2 = some k₂ ∧ ks 1 = some k₁ ∧ ks 0 = some k₀ ∧
        Stochastic.crossVote overbought oversold (some (k₁, percentD k₃ k₂ k₁)) k₀ (percentD k₂ k₁ k₀)
          = vote := by
  constructor
  · intro h
    unfold percentKVote at h
    cases hnow : crossing ks with
    | none =>
      rw [hnow] at h
      exact absurd h.symm hvote
    | some now =>
      obtain ⟨k₀, d₀⟩ := now
      rw [hnow] at h
      cases hbefore : crossing fun ago => ks (ago + 1) with
      | none =>
        rw [hbefore] at h
        exact absurd h.symm hvote
      | some before =>
        obtain ⟨k₁, d₁⟩ := before
        rw [hbefore] at h
        obtain ⟨k₂, k₁', h2, h1, h0, rfl⟩ := crossing_eq_some_iff.mp hnow
        obtain ⟨k₃, k₂', h3, h2', h1', rfl⟩ := crossing_eq_some_iff.mp hbefore
        -- the two pairs overlap in two values
        have hk₁ : k₁' = k₁ := Option.some_inj.mp (h1.symm.trans h1')
        have hk₂ : k₂' = k₂ := Option.some_inj.mp (h2'.symm.trans h2)
        subst hk₁ hk₂
        exact ⟨k₃, k₂', k₁', k₀, h3, h2, h1, h0, h⟩
  · rintro ⟨k₃, k₂, k₁, k₀, h3, h2, h1, h0, h⟩
    have hnow : crossing ks = some (k₀, percentD k₂ k₁ k₀) :=
      crossing_eq_some_iff.mpr ⟨k₂, k₁, h2, h1, h0, rfl⟩
    have hbefore : (crossing fun ago => ks (ago + 1)) = some (k₁, percentD k₃ k₂ k₁) :=
      crossing_eq_some_iff.mpr ⟨k₃, k₂, h3, h2, h1, rfl⟩
    unfold percentKVote
    rw [hnow, hbefore]
    exact h

/-- A buy is a crossing from below, while %K is below the level of what is oversold. -/
theorem crossVote_eq_buy_iff {overbought oversold pk pd k d : α} :
    Stochastic.crossVote overbought oversold (some (pk, pd)) k d = .buy ↔
      pk < pd ∧ d < k ∧ k < oversold := by
  simp only [Stochastic.crossVote]
  by_cases hup : pk < pd ∧ d < k ∧ k < oversold
  · simp [hup]
  · by_cases hdown : pd < pk ∧ k < d ∧ overbought < k <;> simp [hup, hdown]

theorem crossVote_eq_sell_iff [LawfulArith α] {overbought oversold pk pd k d : α} :
    Stochastic.crossVote overbought oversold (some (pk, pd)) k d = .sell ↔
      pd < pk ∧ k < d ∧ overbought < k := by
  simp only [Stochastic.crossVote]
  by_cases hdown : pd < pk ∧ k < d ∧ overbought < k
  · have hup : ¬ (pk < pd ∧ d < k ∧ k < oversold) := by
      intro hup
      exact LawfulArith.lt_irrefl _ (LawfulArith.lt_trans hup.1 hdown.1)
    simp [hup, hdown]
  · by_cases hup : pk < pd ∧ d < k ∧ k < oversold <;> simp [hup, hdown]

namespace Stochastic

/-- The values of %K since the last gap, at most three, the oldest one first. -/
def streak (ks : Nat → Option α) : List α :=
  match ks 0, ks 1, ks 2 with
  | none, _, _ => []
  | some c, none, _ => [c]
  | some c, some b, none => [b, c]
  | some c, some b, some a => [a, b, c]

/-- One value more in front of all others. -/
def push (k : Option α) (ks : Nat → Option α) : Nat → Option α
  | 0 => k
  | ago + 1 => ks ago

/-- What the indicator remembers of the values of %K so far. -/
structure Remembers (s : Stochastic α) (ks : Nat → Option α) : Prop where
  k : s.k = ks 0
  recent : s.recent = streak ks
  previous : s.previous = crossing ks

/-- The value of %K on a bar. -/
def nextK (s : Stochastic α) (bar : Bar α) : Option α :=
  let hh := (s.highest.next bar.high).1
  let ll := (s.lowest.next bar.low).1
  if s.bars + 1 < s.period ∨ (hh == ll) = true then none
  else some (ofNat 100 * (bar.close - ll) / (hh - ll))

omit [Arith α] in
/-- A value pushed behind the last ones. -/
theorem pushWindow_streak (ks : Nat → Option α) (k : α) :
    pushWindow 3 (streak ks) k = streak (push (some k) ks) := by
  simp only [streak, push]
  cases ks 0 with
  | none => cases ks 1 <;> rfl
  | some c =>
    cases ks 1 with
    | none => cases ks 2 <;> rfl
    | some b => cases ks 2 <;> rfl

/-- Three values in a row are what %D takes. -/
theorem crossing_eq {ks : Nat → Option α} {k : α} (hk : ks 0 = some k) :
    crossing ks = if (streak ks).length < 3 then none
      else some (k, (streak ks).foldl (fun a b => a + b) (ofNat 0) / ofNat 3) := by
  simp only [crossing, streak, hk]
  cases ks 1 with
  | none => cases ks 2 <;> rfl
  | some b => cases ks 2 <;> rfl

/-- A bar without a %K leaves a gap, and across a gap nothing is compared. -/
theorem crossing_of_gap {ks : Nat → Option α} (hk : ks 0 = none) : crossing ks = none := by
  simp only [crossing, hk]

/-- The vote and what is remembered depend on nothing but the values of %K. -/
theorem Remembers.step {s : Stochastic α} {ks : Nat → Option α} (h : s.Remembers ks) (bar : Bar α) :
    (s.step bar).1 = percentKVote s.overbought s.oversold (push (s.nextK bar) ks) ∧
      (s.step bar).2.Remembers (push (s.nextK bar) ks) := by
  obtain ⟨-, hrecent, hprevious⟩ := h
  by_cases hgap : s.bars + 1 < s.period ∨
      ((s.highest.next bar.high).1 == (s.lowest.next bar.low).1) = true
  · -- a gap: the streak ends, and nothing crosses
    have hnone : s.nextK bar = none := if_pos hgap
    have hcrossing : crossing (push (s.nextK bar) ks) = none := crossing_of_gap hnone
    simp only [Stochastic.step, if_pos hgap, percentKVote, hcrossing]
    refine ⟨trivial, hnone.symm, ?_, hcrossing.symm⟩
    rw [hnone]
    rfl
  · have hsome : s.nextK bar = some (ofNat 100 * (bar.close - (s.lowest.next bar.low).1)
        / ((s.highest.next bar.high).1 - (s.lowest.next bar.low).1)) := if_neg hgap
    simp only [Stochastic.step, if_neg hgap, hrecent, hprevious, hsome, pushWindow_streak]
    generalize ofNat 100 * (bar.close - (s.lowest.next bar.low).1)
      / ((s.highest.next bar.high).1 - (s.lowest.next bar.low).1) = k
    have hcrossing := crossing_eq (show push (some k) ks 0 = some k from rfl)
    by_cases hshort : (streak (push (some k) ks)).length < 3
    · rw [if_pos hshort] at hcrossing
      simp only [if_pos hshort, percentKVote, hcrossing]
      exact ⟨trivial, rfl, rfl, hcrossing.symm⟩
    · rw [if_neg hshort] at hcrossing
      simp only [if_neg hshort, percentKVote, hcrossing]
      exact ⟨rfl, rfl, rfl, hcrossing.symm⟩

/-- What is known of the indicator after some bars. -/
structure Follows (s : Stochastic α) (period : Nat) (overbought oversold : α) (bars : List (Bar α)) :
    Prop where
  period_eq : s.period = period
  overbought_eq : s.overbought = overbought
  oversold_eq : s.oversold = oversold
  bars_eq : s.bars = bars.length
  tracks : Tracks s.highest s.lowest period bars
  remembers : ∃ ks, s.Remembers ks ∧ ∀ ago, Option.Rel Same (ks ago) (percentKs period bars ago)

variable {period : Nat} {overbought oversold : α}

/-- One bar more: its %K is the latest, and all others are a bar older. -/
theorem percentKs_concat (period : Nat) (bars : List (Bar α)) (bar : Bar α) :
    percentKs period (bars ++ [bar])
      = push (percentK? period (bars ++ [bar])) (percentKs period bars) := by
  funext ago
  cases ago with
  | zero => rw [percentKs, List.rdrop_zero, push]
  | succ ago => rw [percentKs, List.rdrop_concat_succ, push, percentKs]

/-- Before the first bar nothing is remembered. -/
theorem remembers_nil {s : Stochastic α} (hk : s.k = none) (hrecent : s.recent = [])
    (hprevious : s.previous = none) :
    ∃ ks, s.Remembers ks ∧ ∀ ago, Option.Rel Same (ks ago) (percentKs period [] ago) := by
  refine ⟨fun _ => none, ⟨hk, hrecent, hprevious⟩, ?_⟩
  intro ago
  rw [percentKs_nil]
  exact .none

/-- An oscillator that is started follows the empty history. -/
theorem follows_start {s : Stochastic α} (h : start? period overbought oversold = some s) :
    s.Follows period overbought oversold [] := by
  by_cases hzero : period = 0
  · simp [start?, Extremum.start?, hzero] at h
  · simp only [start?, Extremum.start?, if_neg hzero] at h
    cases h
    exact ⟨rfl, rfl, rfl, rfl, .start hzero, remembers_nil rfl rfl rfl⟩

/-- One that is reset follows the empty history again, though its rings keep two places. -/
theorem Follows.reset {s : Stochastic α} {bars : List (Bar α)}
    (h : s.Follows period overbought oversold bars) : s.reset.Follows period overbought oversold [] where
  period_eq := h.period_eq
  overbought_eq := h.overbought_eq
  oversold_eq := h.oversold_eq
  bars_eq := rfl
  tracks := h.tracks.reset
  remembers := remembers_nil rfl rfl rfl

/-- A step keeps the settings and hands its numbers to the rings. -/
theorem step_snd (s : Stochastic α) (bar : Bar α) :
    (s.step bar).2.period = s.period ∧ (s.step bar).2.overbought = s.overbought ∧
      (s.step bar).2.oversold = s.oversold ∧ (s.step bar).2.bars = s.bars + 1 ∧
      (s.step bar).2.highest = (s.highest.next bar.high).2 ∧
      (s.step bar).2.lowest = (s.lowest.next bar.low).2 := by
  simp only [Stochastic.step]
  split
  next => exact ⟨rfl, rfl, rfl, rfl, rfl, rfl⟩
  next => split <;> exact ⟨rfl, rfl, rfl, rfl, rfl, rfl⟩

/-- Its reading compares like the formula's %K, which it need not be bit by bit. -/
theorem Follows.reading {s : Stochastic α} {bars : List (Bar α)}
    (h : s.Follows period overbought oversold bars) : Option.Rel Same s.k (percentKs period bars 0) := by
  obtain ⟨ks, hremembers, hks⟩ := h.remembers
  rw [hremembers.k]
  exact hks 0

variable [LawfulArith α]

/-- Crosses of values that are the same are the same. -/
theorem crossing_same {ks ks' : Nat → Option α} (h : ∀ ago, Option.Rel Same (ks ago) (ks' ago)) :
    Option.Rel (fun x y => Same x.1 y.1 ∧ Same x.2 y.2) (crossing ks) (crossing ks') := by
  have h0 := h 0
  have h1 := h 1
  have h2 := h 2
  simp only [crossing]
  generalize ks 0 = c, ks' 0 = c' at h0 ⊢
  generalize ks 1 = b, ks' 1 = b' at h1 ⊢
  generalize ks 2 = a, ks' 2 = a' at h2 ⊢
  cases h0 with
  | none => exact .none
  | some hc =>
    cases h1 with
    | none => exact .none
    | some hb =>
      cases h2 with
      | none => exact .none
      | some ha =>
        refine .some ⟨hc, LawfulArith.div_same _ (LawfulArith.add_same (LawfulArith.add_same
          (LawfulArith.add_same (.refl _) ha) hb) hc)⟩

theorem crossVote_congr {overbought oversold k k' d d' : α} {previous previous' : Option (α × α)}
    (hprevious : Option.Rel (fun x y => Same x.1 y.1 ∧ Same x.2 y.2) previous previous')
    (hk : Same k k') (hd : Same d d') :
    crossVote overbought oversold previous k d = crossVote overbought oversold previous' k' d' := by
  cases hprevious with
  | none => rfl
  | some h =>
    simp only [crossVote, h.1.lt_iff h.2, h.2.lt_iff h.1, hk.lt_iff hd, hd.lt_iff hk,
      hk.lt_iff (.refl oversold), (Same.refl overbought).lt_iff hk]

/-- Votes depend on how numbers compare, and on nothing else. -/
theorem percentKVote_congr {ks ks' : Nat → Option α} (h : ∀ ago, Option.Rel Same (ks ago) (ks' ago)) :
    percentKVote overbought oversold ks = percentKVote overbought oversold ks' := by
  have hnow := crossing_same h
  have hbefore := crossing_same fun ago => h (ago + 1)
  simp only [percentKVote]
  generalize crossing ks = now, crossing ks' = now' at hnow ⊢
  cases hnow with
  | none => rfl
  | some hsame => exact crossVote_congr hbefore hsame.1 hsame.2

/-- The value of %K on a bar is that of the formula. -/
theorem Follows.nextK_same {s : Stochastic α} {bars : List (Bar α)}
    (h : s.Follows period overbought oversold bars) {bar : Bar α}
    (hbars : ∀ b ∈ bars ++ [bar], IsPriced b) :
    Option.Rel Same (s.nextK bar) (percentK? period (bars ++ [bar])) := by
  have hlast : (bars ++ [bar]).getLast? = some bar := List.getLast?_concat
  unfold nextK
  simp only
  rw [h.bars_eq, h.period_eq]
  rcases h.tracks.range?_eq hbars with ⟨hrange, hflat⟩ | ⟨hh, ll, hrange, hwide, hhigh, hlow⟩
  · have hnone : percentK? period (bars ++ [bar]) = none := by
      rw [percentK?, hrange]
      rfl
    rw [if_pos hflat, hnone]
    exact .none
  · have hsome : percentK? period (bars ++ [bar])
        = some (ofNat 100 * (bar.close - ll) / (hh - ll)) := by
      rw [percentK?, hrange, hlast]
      rfl
    have hwidth : ((s.highest.next bar.high).1 == (s.lowest.next bar.low).1) = false :=
      Bool.eq_false_iff.mpr fun heq => hwide (Or.inr heq)
    rw [if_neg hwide, hsome, LawfulArith.sub_eq_sub hwidth hhigh hlow]
    exact .some (LawfulArith.div_same _ (LawfulArith.mul_same _ (LawfulArith.sub_same (.refl _) hlow)))

theorem Follows.step {s : Stochastic α} {bars : List (Bar α)}
    (h : s.Follows period overbought oversold bars) {bar : Bar α}
    (hbars : ∀ b ∈ bars ++ [bar], IsPriced b) :
    (s.step bar).1 = percentKVote overbought oversold (percentKs period (bars ++ [bar])) ∧
      (s.step bar).2.Follows period overbought oversold (bars ++ [bar]) := by
  obtain ⟨ks, hremembers, hks⟩ := h.remembers
  obtain ⟨hvote, hremembers'⟩ := hremembers.step bar
  obtain ⟨hperiod, hob, hos, hcount, hhighest, hlowest⟩ := s.step_snd bar
  have hks' : ∀ ago, Option.Rel Same (push (s.nextK bar) ks ago) (percentKs period (bars ++ [bar]) ago) := by
    rw [percentKs_concat]
    intro ago
    cases ago with
    | zero => exact h.nextK_same hbars
    | succ ago => exact hks ago
  constructor
  · rw [hvote, h.overbought_eq, h.oversold_eq]
    exact percentKVote_congr hks'
  · exact
      { period_eq := hperiod.trans h.period_eq
        overbought_eq := hob.trans h.overbought_eq
        oversold_eq := hos.trans h.oversold_eq
        bars_eq := by rw [hcount, h.bars_eq, List.length_append, List.length_singleton]
        tracks := by
          rw [hhighest, hlowest]
          exact h.tracks.next bar
        remembers := ⟨_, hremembers', hks'⟩ }

/-- **The stochastic oscillator is its formula.** -/
theorem Follows.replay {s : Stochastic α} (h : s.Follows period overbought oversold [])
    {bars : List (Bar α)} (hbars : ∀ b ∈ bars, IsPriced b) :
    (replay Stochastic.step s bars).1 = percentKVote overbought oversold (percentKs period bars) ∧
      (replay Stochastic.step s bars).2.Follows period overbought oversold bars := by
  refine replay_follows (F := fun t bars => Follows t period overbought oversold bars)
    (V := fun bars => percentKVote overbought oversold (percentKs period bars)) ?_ ?_ h hbars
  · rw [percentKVote, crossing_of_gap (percentKs_nil period 0)]
  · intro s bars bar hs hbars
    exact hs.step hbars

end Stochastic

end BotSpec.Indicator
