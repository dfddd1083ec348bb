import Mathlib.Tactic.Positivity
import BotSpec.Proofs.Indicator.Exact
import BotSpec.Proofs.Indicator.Stochastic
import BotSpec.Proofs.Indicator.Vwap
import BotSpec.Proofs.Indicator.WilliamsR

/-!
# Where a close and an average lie, in exact arithmetic

A close that is between the low and the high of its bar lies in the range of the last bars, and so
its place there is a percentage:

> `percentK?_bounds`, `percentR?_bounds`: from 0 to 100, and from -100 to 0. > `vwap?_bounds`: an
> average with weights that are not negative is between the least low and the greatest high.

All three formulas divide only where the divisor is positive: the range has a width
(`range?_exact`), the volume has been compared with zero.
-/

namespace BotSpec.Indicator

open Arith

/-- A bar whose close is between its low and its high, with a volume that is not negative. -/
structure Proper (bar : Bar ℚ) : Prop where
  low_le : bar.low ≤ bar.close
  le_high : bar.close ≤ bar.high
  volume : 0 ≤ bar.volume

variable {byZero byZero' root : ℚ → ℚ} {period : Nat} {bars : List (Bar ℚ)}

/-! ## The range -/

/-- In exact arithmetic every bar has prices. -/
theorem isPriced_exact (bar : Bar ℚ) :
    @IsPriced ℚ (exact byZero root) bar := ⟨isNumber_exact _, isNumber_exact _⟩

theorem mem_rtake_of_getLast? (hperiod : 1 ≤ period) {last : Bar ℚ} (h : bars.getLast? = some last) :
    last ∈ bars.rtake period := by
  obtain ⟨earlier, rfl⟩ := List.getLast?_eq_some_iff.mp h
  obtain ⟨size, rfl⟩ := Nat.exists_eq_add_of_le' hperiod
  rw [List.rtake_concat_succ]
  exact List.mem_append_right _ (List.mem_singleton_self last)

/-- A range that is defined has two ends that differ. -/
theorem range?_eq_some {α : Type} [Arith α] {bars : List (Bar α)} {hh ll : α}
    (h : range? period bars = some (hh, ll)) :
    Side.highest.extreme? ((bars.rtake period).map Bar.high) = some hh ∧
      Side.lowest.extreme? ((bars.rtake period).map Bar.low) = some ll ∧ (hh == ll) = false := by
  simp only [range?, Option.bind_eq_bind] at h
  split at h
  next => cases h
  next =>
    obtain ⟨-, -, h⟩ := Option.bind_eq_some_iff.mp h
    obtain ⟨highest, hhighest, h⟩ := Option.bind_eq_some_iff.mp h
    obtain ⟨lowest, hlowest, h⟩ := Option.bind_eq_some_iff.mp h
    split at h
    next => cases h
    next hwide =>
      cases h
      exact ⟨hhighest, hlowest, Bool.eq_false_iff.mpr hwide⟩

/-- The range of the last bars is around the last close, and has a width. -/
theorem range?_exact (hperiod : 1 ≤ period) (hbars : ∀ bar ∈ bars, Proper bar) {hh ll : ℚ} {last : Bar ℚ}
    (hrange : @range? ℚ (exact byZero root) period bars = some (hh, ll)) (hlast : bars.getLast? = some last) :
    ll ≤ last.close ∧ last.close ≤ hh ∧ 0 < hh - ll := by
  obtain ⟨hhighest, hlowest, hwide⟩ := @range?_eq_some _ _ (exact byZero root) _ _ _ hrange
  have hwindow := mem_rtake_of_getLast? hperiod hlast
  obtain ⟨hlow, hhigh, -⟩ := hbars last (mem_of_mem_rtake hwindow)
  have habove : ¬ hh < last.high :=
    of_decide_eq_false ((@Side.extreme?_eq_some _ (exact byZero root) (lawfulArith_exact byZero root) _ _ _ hhighest).2 _
      (List.mem_map_of_mem hwindow))
  have hbelow : ¬ last.low < ll :=
    of_decide_eq_false ((@Side.extreme?_eq_some _ (exact byZero root) (lawfulArith_exact byZero root) _ _ _ hlowest).2 _
      (List.mem_map_of_mem hwindow))
  have hne : hh ≠ ll := beq_eq_false_iff_ne.mp hwide
  have hclose : last.close ≤ hh := hhigh.trans (not_lt.mp habove)
  have hclose' : ll ≤ last.close := (not_lt.mp hbelow).trans hlow
  exact ⟨hclose', hclose, sub_pos.mpr (lt_of_le_of_ne (hclose'.trans hclose) hne.symm)⟩

/-- **%K is a percentage.** -/
theorem percentK?_bounds (hperiod : 1 ≤ period) (hbars : ∀ bar ∈ bars, Proper bar) {x : ℚ}
    (h : @percentK? ℚ (exact byZero root) period bars = some x) : 0 ≤ x ∧ x ≤ 100 := by
  obtain ⟨⟨hh, ll⟩, hrange, h⟩ := Option.bind_eq_some_iff.mp h
  obtain ⟨last, hlast, h⟩ := Option.bind_eq_some_iff.mp h
  obtain ⟨hlow, hhigh, hwidth⟩ := range?_exact hperiod hbars hrange hlast
  have hx : quotient byZero (100 * (last.close - ll)) (hh - ll) = x := Option.some_inj.mp h
  rw [quotient_of_pos hwidth] at hx
  rw [← hx, le_div_iff₀ hwidth, div_le_iff₀ hwidth]
  exact ⟨by linarith, by linarith⟩

/-- **%R is a percentage below zero.** -/
theorem percentR?_bounds (hperiod : 1 ≤ period) (hbars : ∀ bar ∈ bars, Proper bar) {x : ℚ}
    (h : @percentR? ℚ (exact byZero root) period bars = some x) : -100 ≤ x ∧ x ≤ 0 := by
  obtain ⟨⟨hh, ll⟩, hrange, h⟩ := Option.bind_eq_some_iff.mp h
  obtain ⟨last, hlast, h⟩ := Option.bind_eq_some_iff.mp h
  obtain ⟨hlow, hhigh, hwidth⟩ := range?_exact hperiod hbars hrange hlast
  have hx : quotient byZero (-100 * (hh - last.close)) (hh - ll) = x := Option.some_inj.mp h
  rw [quotient_of_pos hwidth] at hx
  rw [← hx, le_div_iff₀ hwidth, div_le_iff₀ hwidth]
  exact ⟨by linarith, by linarith⟩

/-! ## The weighted average -/

theorem total_exact (byZero root : ℚ → ℚ) (f : Bar ℚ → ℚ) (bars : List (Bar ℚ)) :
    @total ℚ (exact byZero root) f bars = (bars.map f).sum := by
  show bars.foldl (fun t bar => t + f bar) 0 = _
  rw [List.sum_eq_foldl, List.foldl_map]

theorem typicalPrice_exact (bar : Bar ℚ) :
    @Vwap.typicalPrice ℚ (exact byZero root) bar = (bar.high + bar.low + bar.close) / 3 := by
  show quotient byZero (bar.high + bar.low + bar.close) 3 = _
  exact quotient_of_pos (by norm_num)

/-- A mean of numbers from `low` to `high` is one of them, whatever the weights. -/
theorem weighted_bounds {low high : ℚ} {price : Bar ℚ → ℚ} (hvolume : ∀ bar ∈ bars, 0 ≤ bar.volume)
    (hprice : ∀ bar ∈ bars, low ≤ price bar ∧ price bar ≤ high) :
    low * (bars.map Bar.volume).sum ≤ (bars.map fun bar => price bar * bar.volume).sum ∧
      (bars.map fun bar => price bar * bar.volume).sum ≤ high * (bars.map Bar.volume).sum := by
  induction bars with
  | nil => simp
  | cons bar bars ih =>
    obtain ⟨hlow, hhigh⟩ := ih (fun b hb => hvolume b (List.mem_cons_of_mem _ hb))
      (fun b hb => hprice b (List.mem_cons_of_mem _ hb))
    have hweight := hvolume bar List.mem_cons_self
    obtain ⟨hbelow, habove⟩ := hprice bar List.mem_cons_self
    simp only [List.map_cons, List.sum_cons, mul_add]
    exact ⟨add_le_add (mul_le_mul_of_nonneg_right hbelow hweight) hlow,
      add_le_add (mul_le_mul_of_nonneg_right habove hweight) hhigh⟩

/-- **The weighted average is between the least low and the greatest high.** -/
theorem vwap?_bounds (hbars : ∀ bar ∈ bars, Proper bar) {x : ℚ}
    (h : @vwap? ℚ (exact byZero root) period bars = some x) :
    ∃ least greatest, ((bars.rtake period).map Bar.low).min? = some least ∧
      ((bars.rtake period).map Bar.high).max? = some greatest ∧ least ≤ x ∧ x ≤ greatest := by
  obtain ⟨⟨-, hsold⟩, hx⟩ := Option.ite_none_right_eq_some.mp h
  have hproper : ∀ bar ∈ bars.rtake period, Proper bar := fun bar hbar => hbars bar (mem_of_mem_rtake hbar)
  generalize bars.rtake period = window at *
  have hvolume : 0 < (window.map Bar.volume).sum := by
    rw [← total_exact byZero root]
    exact hsold
  have hne : window ≠ [] := by
    rintro rfl
    exact lt_irrefl _ hvolume
  obtain ⟨least, hleast⟩ := Option.ne_none_iff_exists'.mp fun h =>
    hne (List.map_eq_nil_iff.mp (List.min?_eq_none_iff.mp h : window.map Bar.low = []))
  obtain ⟨greatest, hgreatest⟩ := Option.ne_none_iff_exists'.mp fun h =>
    hne (List.map_eq_nil_iff.mp (List.max?_eq_none_iff.mp h : window.map Bar.high = []))
  have hprice : ∀ bar ∈ window, least ≤ (bar.high + bar.low + bar.close) / 3 ∧
      (bar.high + bar.low + bar.close) / 3 ≤ greatest := by
    intro bar hbar
    have hlow : least ≤ bar.low := (List.min?_eq_some_iff.mp hleast).2 _ (List.mem_map_of_mem hbar)
    have hhigh : bar.high ≤ greatest := (List.max?_eq_some_iff.mp hgreatest).2 _ (List.mem_map_of_mem hbar)
    obtain ⟨hclose, hclose', -⟩ := hproper bar hbar
    exact ⟨by linarith, by linarith⟩
  obtain ⟨hbelow, habove⟩ := weighted_bounds (fun bar hbar => (hproper bar hbar).volume) hprice
  have hquotient : quotient byZero
      (@total ℚ (exact byZero root) (fun bar => @Vwap.typicalPrice ℚ (exact byZero root) bar * bar.volume) window)
      (@total ℚ (exact byZero root) Bar.volume window) = x := Option.some_inj.mp hx
  simp only [total_exact, typicalPrice_exact] at hquotient
  rw [quotient_of_pos hvolume] at hquotient
  refine ⟨least, greatest, hleast, hgreatest, ?_⟩
  rw [← hquotient, le_div_iff₀ hvolume, div_le_iff₀ hvolume]
  exact ⟨hbelow, habove⟩

end BotSpec.Indicator
