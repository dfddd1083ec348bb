import BotSpec.Trading.Sizing
import BotSpec.Proofs.Decimal.Nearest

/-!
# The Kelly share

Six rounded operations lead from a number of wins to a Kelly share: the win rate and its complement,
the payoff ratio, what is won less what is lost (`kellyShare`), the same over the ratio and in
percent. Each of them rounds at its own place, and none disturbs order: a larger exact result is
rounded to a larger one. So the chain is followed once, for two numbers of wins side by side
(`kellyShare_le_kellyShare`), and the payoff ratio, which does not depend on wins, is the same in
both, be it rounded to zero or not.

> `kellyPercent_rises`: the share grows with the wins, between nothing and the cap.
-/

namespace BotSpec

open Decimal (Gives gives_sub gives_mul gives_div value_zero value_one value_hundred)

variable {wins wins' total : UInt32} {win loss base p p' q q' payoff share share' r r' : Decimal}

/-- A count is a decimal without places. -/
theorem Decimal.value_ofCount (n : UInt32) : (Decimal.ofCount n).value = n.toNat := by
  rw [value_of_literal (a := ofCount n) (n := n.toNat) (d := 1) rfl rfl rfl, Nat.cast_one, div_one]

theorem value_kellyCap : kellyCap.value = 25 := by
  norm_num [Decimal.value_of_literal (a := kellyCap) (n := 25) (d := 1) rfl rfl rfl]

theorem zero_le_kellyCap : Decimal.zero.value ≤ kellyCap.value := by
  rw [value_zero, value_kellyCap]
  norm_num

/-! ## The share before it is capped -/

/-- The share in percent for a win rate, its complement and a payoff ratio. -/
def kellyShare (p q payoff : Decimal) : Except Decimal.Fault Decimal := do
  (← (← (← p.mul payoff).sub q).div payoff).mul .hundred

/-- The share is the formula, rounded step by step. -/
theorem kellyShare_eq_ok (hpayoff : 0 < payoff.value) (h : kellyShare p q payoff = .ok share) :
    ∃ won edge part : Decimal, Gives .multiplication (p.value * payoff.value) (.ok won) ∧
      Gives .subtraction (won.value - q.value) (.ok edge) ∧ Gives .division (edge.value / payoff.value) (.ok part) ∧
      Gives .multiplication (part.value * 100) (.ok share) := by
  obtain ⟨won, hwon, h⟩ := exists_of_bind_eq_ok h
  obtain ⟨edge, hedge, h⟩ := exists_of_bind_eq_ok h
  obtain ⟨part, hpart, hshare⟩ := exists_of_bind_eq_ok h
  refine ⟨won, edge, part, hwon ▸ gives_mul p payoff, hedge ▸ gives_sub won q, hpart ▸ gives_div hpayoff.ne', ?_⟩
  rw [← value_hundred, ← hshare]
  exact gives_mul part .hundred

/-- The share grows with the win rate. -/
theorem kellyShare_le_kellyShare (hpayoff : 0 < payoff.value) (hp : p.value ≤ p'.value) (hq : q'.value ≤ q.value)
    (h : kellyShare p q payoff = .ok share) (h' : kellyShare p' q' payoff = .ok share') : share.value ≤ share'.value := by
  obtain ⟨won, edge, part, hwon, hedge, hpart, hshare⟩ := kellyShare_eq_ok hpayoff h
  obtain ⟨won', edge', part', hwon', hedge', hpart', hshare'⟩ := kellyShare_eq_ok hpayoff h'
  have hwons : won.value ≤ won'.value := hwon.value_le hwon' (mul_le_mul_of_nonneg_right hp hpayoff.le)
  have hedges : edge.value ≤ edge'.value := hedge.value_le hedge' (sub_le_sub hwons hq)
  have hparts : part.value ≤ part'.value := hpart.value_le hpart' (div_le_div_of_nonneg_right hedges hpayoff.le)
  exact hshare.value_le hshare' (by linarith)

/-- A payoff of one or more makes no number on the way larger than itself, so nothing is too large. -/
theorem exists_kellyShare (hp : 0 ≤ p.value) (hone : p.value ≤ 1) (hq : 0 ≤ q.value) (hqone : q.value ≤ 1)
    (hpayoff : 1 ≤ payoff.value) : ∃ share, kellyShare p q payoff = .ok share := by
  -- won, edge and part are at most the payoff, and the share at most a hundred
  have hpositive : 0 < payoff.value := by linarith
  have hpart_one {x : ℚ} (h : |x| ≤ payoff.value) : |x / payoff.value| ≤ Decimal.one.value := by
    rw [abs_div, abs_of_pos hpositive, value_one]
    exact (div_le_one hpositive).mpr h
  have hwonsize : |p.value * payoff.value| ≤ payoff.value := by
    rw [abs_of_nonneg (mul_nonneg hp hpositive.le)]
    exact mul_le_of_le_one_left hpositive.le hone
  obtain ⟨won, hwon⟩ := (gives_mul p payoff).exists_eq_ok (a := payoff) (hwonsize.trans (le_abs_self _))
  have hwonle : |won.value| ≤ payoff.value := (hwon ▸ gives_mul p payoff).abs_le_of_abs_le hwonsize
  have hwonpos : 0 ≤ won.value := (hwon ▸ gives_mul p payoff).nonneg (mul_nonneg hp hpositive.le)
  have hedgesize : |won.value - q.value| ≤ payoff.value := by
    rw [abs_of_nonneg hwonpos] at hwonle
    rw [abs_le]
    constructor <;> linarith
  obtain ⟨edge, hedge⟩ := (gives_sub won q).exists_eq_ok (a := payoff) (hedgesize.trans (le_abs_self _))
  have hedgele : |edge.value| ≤ payoff.value := (hedge ▸ gives_sub won q).abs_le_of_abs_le hedgesize
  obtain ⟨part, hpart⟩ := (gives_div hpositive.ne').exists_eq_ok ((hpart_one hedgele).trans (le_abs_self _))
  have hpartle : |part.value| ≤ Decimal.one.value := (hpart ▸ gives_div hpositive.ne').abs_le_of_abs_le (hpart_one hedgele)
  have hsharesize : |part.value * Decimal.hundred.value| ≤ |Decimal.hundred.value| := by
    rw [abs_mul]
    exact mul_le_of_le_one_left (abs_nonneg _) (value_one ▸ hpartle)
  obtain ⟨share, hshare⟩ := (gives_mul part .hundred).exists_eq_ok hsharesize
  refine ⟨share, ?_⟩
  unfold kellyShare
  rw [bind_of_eq_ok hwon, bind_of_eq_ok hedge, bind_of_eq_ok hpart, hshare]

/-! ## Win rates -/

section Rate

variable (htotal : 10 ≤ total.toNat)

include htotal

/-- Some trades were made, so the rate has a divisor. -/
theorem value_total_pos : 0 < (Decimal.ofCount total).value := by
  rw [Decimal.value_ofCount]
  exact_mod_cast Nat.lt_of_lt_of_le (by decide) htotal

/-- The rate of wins is the ratio of two counts, rounded. -/
theorem gives_rate (wins : UInt32) :
    Gives .division ((wins.toNat : ℚ) / total.toNat) ((Decimal.ofCount wins).div (.ofCount total)) := by
  rw [← Decimal.value_ofCount, ← Decimal.value_ofCount]
  exact gives_div (value_total_pos htotal).ne'

theorem rate_le_rate (hwins : wins.toNat ≤ wins'.toNat) (h : (Decimal.ofCount wins).div (.ofCount total) = .ok p)
    (h' : (Decimal.ofCount wins').div (.ofCount total) = .ok p') : p.value ≤ p'.value := by
  apply (h ▸ gives_rate htotal wins).value_le (h' ▸ gives_rate htotal wins')
  exact div_le_div_of_nonneg_right (Nat.cast_le.mpr hwins) (Nat.cast_nonneg _)

/-- The rate of no more wins than trades is a share of one, and so is its complement. -/
theorem exists_rate (hwins : wins.toNat ≤ total.toNat) :
    ∃ p q, (Decimal.ofCount wins).div (.ofCount total) = .ok p ∧ Decimal.one.sub p = .ok q ∧
      0 ≤ p.value ∧ p.value ≤ 1 ∧ 0 ≤ q.value ∧ q.value ≤ 1 := by
  have hpositive : (0 : ℚ) < total.toNat := by
    rw [← Decimal.value_ofCount]
    exact value_total_pos htotal
  have hexact : 0 ≤ (wins.toNat : ℚ) / total.toNat := by positivity
  have hone : (wins.toNat : ℚ) / total.toNat ≤ Decimal.one.value := by
    rw [value_one, div_le_one hpositive]
    exact Nat.cast_le.mpr hwins
  obtain ⟨p, hp⟩ := (gives_rate htotal wins).exists_eq_ok (a := .one) (abs_le_abs_of_nonneg hexact hone)
  have hgives := hp ▸ gives_rate htotal wins
  have hlow : 0 ≤ p.value := hgives.nonneg hexact
  have hhigh : p.value ≤ Decimal.one.value := hgives.le_of_le hone
  rw [value_one] at hhigh
  have hrest : 0 ≤ Decimal.one.value - p.value := by
    rw [value_one]
    linarith
  have hrestone : Decimal.one.value - p.value ≤ Decimal.one.value := by linarith
  obtain ⟨q, hq⟩ := (gives_sub .one p).exists_eq_ok (a := .one) (abs_le_abs_of_nonneg hrest hrestone)
  have hcomplement := hq ▸ gives_sub .one p
  exact ⟨p, q, hp, hq, hlow, hhigh, hcomplement.nonneg hrest, value_one ▸ hcomplement.le_of_le hrestone⟩

end Rate

/-! ## The capped share -/

/-- Without enough trades, or without a loss, the share is the base share. -/
theorem kellyPercent_of_unready (h : total.toNat < 10 ∨ loss.value ≤ 0) (wins : UInt32) (win base : Decimal) :
    kellyPercent wins total win loss base = .ok base := by
  have hunready : total.toNat < kellyWarmupTrades ∨ loss ≤ Decimal.zero := by
    rw [Decimal.le_iff_value_le, value_zero]
    exact h
  rw [kellyPercent, if_pos hunready]

section Ready

variable (htotal : 10 ≤ total.toNat) (hloss : 0 < loss.value)

include htotal hloss

/-- Behind the warm-up and with losses the share is computed, and clamped. -/
theorem kellyPercent_of_ready (wins : UInt32) (win base : Decimal) :
    kellyPercent wins total win loss base = (do
      let p ← (Decimal.ofCount wins).div (.ofCount total)
      let q ← Decimal.one.sub p
      let payoff ← win.div loss
      if payoff ≤ Decimal.zero then .ok Decimal.zero
      else (fun share => share.clamp Decimal.zero kellyCap) <$> kellyShare p q payoff) := by
  have hready : ¬ (total.toNat < kellyWarmupTrades ∨ loss ≤ Decimal.zero) := by
    rw [Decimal.le_iff_value_le, value_zero]
    rintro (hfew | hnone)
    · exact absurd hfew (not_lt.mpr htotal)
    · exact absurd hloss (not_lt.mpr hnone)
  rw [kellyPercent, if_neg hready]
  simp only [kellyShare, bind_assoc, map_eq_pure_bind]

/-- All that is computed on the way to a share. -/
theorem kellyPercent_eq_ok (h : kellyPercent wins total win loss base = .ok r) :
    ∃ p q payoff, (Decimal.ofCount wins).div (.ofCount total) = .ok p ∧ Decimal.one.sub p = .ok q ∧
      win.div loss = .ok payoff ∧
      ((payoff.value ≤ 0 ∧ r = .zero) ∨
        (0 < payoff.value ∧ ∃ share, kellyShare p q payoff = .ok share ∧ r = share.clamp .zero kellyCap)) := by
  rw [kellyPercent_of_ready htotal hloss] at h
  obtain ⟨p, hp, h⟩ := exists_of_bind_eq_ok h
  obtain ⟨q, hq, h⟩ := exists_of_bind_eq_ok h
  obtain ⟨payoff, hpayoff, h⟩ := exists_of_bind_eq_ok h
  refine ⟨p, q, payoff, hp, hq, hpayoff, ?_⟩
  have hsign : payoff ≤ Decimal.zero ↔ payoff.value ≤ 0 := by rw [Decimal.le_iff_value_le, value_zero]
  split at h
  · next hnone =>
    cases h
    exact Or.inl ⟨hsign.mp hnone, rfl⟩
  · next hsome =>
    rw [hsign, not_le] at hsome
    rw [map_eq_pure_bind] at h
    obtain ⟨share, hshare, h⟩ := exists_of_bind_eq_ok h
    cases h
    exact Or.inr ⟨hsome, share, hshare, rfl⟩

/-- Every percentage is between zero and the cap. -/
theorem kellyPercent_mem (h : kellyPercent wins total win loss base = .ok r) : 0 ≤ r.value ∧ r.value ≤ 25 := by
  obtain ⟨p, q, payoff, -, -, -, ⟨-, rfl⟩ | ⟨-, share, -, rfl⟩⟩ := kellyPercent_eq_ok htotal hloss h
  · rw [value_zero]
    norm_num
  · rw [Decimal.value_clamp share zero_le_kellyCap, value_zero, value_kellyCap]
    exact ⟨le_max_left _ _, max_le (by norm_num) (min_le_left _ _)⟩

/-- Who wins nothing on average gets no share. -/
theorem kellyPercent_eq_zero (hwin : win.value ≤ 0) (h : kellyPercent wins total win loss base = .ok r) : r = .zero := by
  obtain ⟨p, q, payoff, -, -, hpayoff, ⟨-, rfl⟩ | ⟨hpositive, -⟩⟩ := kellyPercent_eq_ok htotal hloss h
  · rfl
  · have hratio : win.value / loss.value ≤ Decimal.zero.value := by
      rw [value_zero]
      exact div_nonpos_of_nonpos_of_nonneg hwin hloss.le
    have hnone : payoff.value ≤ Decimal.zero.value := (hpayoff ▸ gives_div hloss.ne').le_of_le hratio
    rw [value_zero] at hnone
    exact absurd hpositive (not_lt.mpr hnone)

theorem kellyPercent_le_kellyPercent (hwins : wins.toNat ≤ wins'.toNat)
    (h : kellyPercent wins total win loss base = .ok r) (h' : kellyPercent wins' total win loss base = .ok r') :
    r.value ≤ r'.value := by
  obtain ⟨p, q, payoff, hp, hq, hpayoff, hr⟩ := kellyPercent_eq_ok htotal hloss h
  obtain ⟨p', q', payoff', hp', hq', hpayoff', hr'⟩ := kellyPercent_eq_ok htotal hloss h'
  cases hpayoff.symm.trans hpayoff'
  rcases hr with ⟨-, rfl⟩ | ⟨hpositive, share, hshare, rfl⟩
  · rw [value_zero]
    exact (kellyPercent_mem htotal hloss h').1
  · rcases hr' with ⟨hnone, -⟩ | ⟨-, share', hshare', rfl⟩
    · exact absurd hpositive (not_lt.mpr hnone)
    · have hrates : p.value ≤ p'.value := rate_le_rate htotal hwins hp hp'
      have hrests : q'.value ≤ q.value := (hq' ▸ gives_sub .one p').value_le (hq ▸ gives_sub .one p) (by linarith)
      exact Decimal.clamp_le_clamp zero_le_kellyCap (kellyShare_le_kellyShare hpositive hrates hrests hshare hshare')

/-- There is a share for winnings no smaller than losses, if they are not so much larger that their
ratio is no decimal. -/
theorem exists_kellyPercent (base : Decimal) (hwins : wins.toNat ≤ total.toNat) (hwin : loss.value ≤ win.value)
    (hpayoff : ∃ payoff, win.div loss = .ok payoff) : ∃ r, kellyPercent wins total win loss base = .ok r := by
  obtain ⟨p, q, hp, hq, hlow, hhigh, hqlow, hqhigh⟩ := exists_rate htotal hwins
  obtain ⟨payoff, hpayoff⟩ := hpayoff
  have hratio : Decimal.one.value ≤ win.value / loss.value := by
    rw [value_one]
    exact (one_le_div hloss).mpr hwin
  have hone : Decimal.one.value ≤ payoff.value := (hpayoff ▸ gives_div hloss.ne').ge_of_ge hratio
  rw [value_one] at hone
  have hsome : ¬ payoff ≤ Decimal.zero := by
    rw [Decimal.le_iff_value_le, value_zero]
    linarith
  obtain ⟨share, hshare⟩ := exists_kellyShare hlow hhigh hqlow hqhigh hone
  rw [kellyPercent_of_ready htotal hloss, bind_of_eq_ok hp, bind_of_eq_ok hq, bind_of_eq_ok hpayoff, if_neg hsome, hshare]
  exact ⟨_, rfl⟩

end Ready

/-- **The Kelly share rises with the wins and is capped.** With fewer than ten trades, or without a
loss, it is the base share. Otherwise a share is between nothing and 25 percent, one for more wins
is no smaller, and for winnings of nothing or less it is zero.

Not every share exists, since a payoff ratio may be too large for a decimal or so small that
dividing by it is. It does exist for winnings no smaller than losses whose ratio is a decimal. -/
theorem kellyPercent_rises (wins wins' total : UInt32) (win loss base : Decimal) (hwins : wins ≤ wins')
    (htotal : wins' ≤ total) :
    (total < 10 ∨ loss ≤ Decimal.zero →
      kellyPercent wins total win loss base = .ok base ∧ kellyPercent wins' total win loss base = .ok base) ∧
    (10 ≤ total → Decimal.zero < loss →
      (∀ r r', kellyPercent wins total win loss base = .ok r → kellyPercent wins' total win loss base = .ok r' →
        (0 ≤ r.value ∧ r.value ≤ 25) ∧ (0 ≤ r'.value ∧ r'.value ≤ 25) ∧ r ≤ r' ∧
        (win ≤ Decimal.zero → r = .zero ∧ r' = .zero)) ∧
      (loss ≤ win → (∃ payoff, win.div loss = .ok payoff) →
        ∃ r r', kellyPercent wins total win loss base = .ok r ∧ kellyPercent wins' total win loss base = .ok r')) := by
  constructor
  · intro hunready
    rw [Decimal.le_iff_value_le, value_zero] at hunready
    exact ⟨kellyPercent_of_unready hunready wins win base, kellyPercent_of_unready hunready wins' win base⟩
  · intro hten hloss
    rw [Decimal.lt_iff_value_lt, value_zero] at hloss
    refine ⟨?shares, ?exist⟩
    case shares =>
      intro r r' h h'
      refine ⟨kellyPercent_mem hten hloss h, kellyPercent_mem hten hloss h', ?_, ?_⟩
      · rw [Decimal.le_iff_value_le]
        exact kellyPercent_le_kellyPercent hten hloss hwins h h'
      · intro hwin
        rw [Decimal.le_iff_value_le, value_zero] at hwin
        exact ⟨kellyPercent_eq_zero hten hloss hwin h, kellyPercent_eq_zero hten hloss hwin h'⟩
    case exist =>
      intro hwin hpayoff
      rw [Decimal.le_iff_value_le] at hwin
      obtain ⟨r, hr⟩ := exists_kellyPercent hten hloss base (hwins.trans htotal) hwin hpayoff
      obtain ⟨r', hr'⟩ := exists_kellyPercent hten hloss base htotal hwin hpayoff
      exact ⟨r, r', hr, hr'⟩

/-- Eleven trades with a payoff of two thirds, rounded: seven wins and eight, of which the share is
capped. -/
theorem kellyPercent_rises_eleven :
    let win : Decimal := .two
    let loss : Decimal := .ofDigits 3 0
    let share : Decimal := .ofDigits 9090909090909090909090909100 27
    (7 : UInt32) ≤ 8 ∧ (8 : UInt32) ≤ 11 ∧ (10 : UInt32) ≤ 11 ∧ Decimal.zero < loss ∧
      kellyPercent 7 11 win loss .one = .ok share ∧ kellyPercent 8 11 win loss .one = .ok kellyCap ∧
      (0 ≤ share.value ∧ share.value ≤ 25) ∧ share ≤ kellyCap ∧
      (∃ r r', kellyPercent 7 11 loss win .one = .ok r ∧ kellyPercent 8 11 loss win .one = .ok r') ∧
      kellyPercent 7 9 win loss .one = .ok .one := by
  intro win loss share
  have hseven : kellyPercent 7 11 win loss .one = .ok share := by decide +kernel
  have height : kellyPercent 8 11 win loss .one = .ok kellyCap := by decide +kernel
  have hpayoff : ∃ payoff, loss.div win = .ok payoff := ⟨.ofDigits (15 * tenPow 27) 28, by decide +kernel⟩
  have hloss : Decimal.zero < loss := by decide
  have hwin : Decimal.zero < win := by decide
  obtain ⟨hshares, -⟩ := (kellyPercent_rises 7 8 11 win loss .one (by decide) (by decide)).2 (by decide) hloss
  obtain ⟨-, hexist⟩ := (kellyPercent_rises 7 8 11 loss win .one (by decide) (by decide)).2 (by decide) hwin
  obtain ⟨hrange, -, hle, -⟩ := hshares share kellyCap hseven height
  exact ⟨by decide, by decide, by decide, hloss, hseven, height, hrange, hle, hexist (by decide) hpayoff,
    ((kellyPercent_rises 7 8 9 win loss .one (by decide) (by decide)).1 (Or.inl (by decide))).1⟩

end BotSpec
