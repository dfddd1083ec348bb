import Mathlib.Data.List.ReduceOption
import BotSpec.Knowledge.Base
import BotSpec.Proofs.Outcome

/-!
# Rows that can be read

A table holds texts that are no texts and counts that are no counts: its columns say which kind of
value they are for, but refuse no other. What is asked for a row finds out. The columns are read one
after the other, and the first value that does not fit ends the reading.

A row that is read is all there: `BacktestColumns.stored` puts the texts and the counts back as the
table holds them.

> `read_eq_ok_iff`: a row is read as some columns exactly if it holds them.

> `exists_read_eq_ok_iff`: a row can be read exactly if it is `Legible`, that is, all its texts are
> texts and all its counts are counts.
-/

namespace BotSpec

namespace BacktestColumns

variable {τ τ' τ'' κ κ' κ'' : Type}

/-- A row with each of its texts and each of its counts changed. -/
def map (f : τ → τ') (g : κ → κ') (c : BacktestColumns τ κ) : BacktestColumns τ' κ' :=
  ⟨f c.paramsHash, f c.strategyType, f c.strategyName, f c.strategyParams, f c.symbol, g c.days, f c.sizingMode,
    f c.compositeScore, f c.netPnl, f c.grossPnl, f c.totalFees, f c.winRate, g c.totalTrades, f c.sharpeRatio,
    f c.maxDrawdownPct, f c.profitFactor, f c.avgTradePnl, c.hitRate.map f, c.avgLockedProfit.map f,
    c.discoveryRunId.map f, c.phase.map f, c.sortinoRatio.map f, c.maxConsecutiveLosses.map g, c.avgWinPnl.map f,
    c.avgLossPnl.map f, c.totalVolume.map f, c.annualizedReturnPct.map f, c.annualizedSharpe.map f,
    c.strategyConfidence.map f⟩

/-- The texts of a row, without those that are absent. -/
def texts (c : BacktestColumns τ κ) : List τ :=
  [c.paramsHash, c.strategyType, c.strategyName, c.strategyParams, c.symbol, c.sizingMode, c.compositeScore, c.netPnl,
    c.grossPnl, c.totalFees, c.winRate, c.sharpeRatio, c.maxDrawdownPct, c.profitFactor, c.avgTradePnl] ++
  [c.hitRate, c.avgLockedProfit, c.discoveryRunId, c.phase, c.sortinoRatio, c.avgWinPnl, c.avgLossPnl, c.totalVolume,
    c.annualizedReturnPct, c.annualizedSharpe, c.strategyConfidence].reduceOption

/-- The counts of a row, without one that is absent. -/
def counts (c : BacktestColumns τ κ) : List κ := [c.days, c.totalTrades] ++ [c.maxConsecutiveLosses].reduceOption

/-- The texts of a changed row are the changed texts. -/
theorem texts_map (f : τ → τ') (g : κ → κ') (c : BacktestColumns τ κ) : (c.map f g).texts = c.texts.map f := by
  rw [texts, texts, List.map_append, ← List.reduceOption_map]
  rfl

theorem counts_map (f : τ → τ') (g : κ → κ') (c : BacktestColumns τ κ) :
    (c.map f g).counts = c.counts.map g := by
  rw [counts, counts, List.map_append, ← List.reduceOption_map]
  rfl

theorem map_map (f : τ → τ') (g : κ → κ') (f' : τ' → τ'') (g' : κ' → κ'') (c : BacktestColumns τ κ) :
    (c.map f g).map f' g' = c.map (f' ∘ f) (g' ∘ g) := by
  simp only [map, Option.map_map, Function.comp_apply]

theorem option_map_eq_self {f : τ → τ} {o : Option τ} (h : ∀ t, o = some t → f t = t) : o.map f = o := by
  cases o with
  | none => rfl
  | some t => rw [Option.map_some, h t rfl]

/-- A change that leaves each text and each count as it is leaves the row as it is. -/
theorem map_eq_self {f : τ → τ} {g : κ → κ} {c : BacktestColumns τ κ} (hf : ∀ t ∈ c.texts, f t = t)
    (hg : ∀ n ∈ c.counts, g n = n) : c.map f g = c := by
  simp only [texts, counts, List.forall_mem_append, List.reduceOption_mem_iff, List.mem_cons, List.not_mem_nil,
    or_false] at hf hg
  cases c
  simp only [map, mk.injEq]
  simp_all [option_map_eq_self]

/-- Columns as a table holds them. -/
def stored (c : BacktestCells) : StoredCells := c.map .text .count

/-! ## Reading -/

/-- All texts of a row are texts, and all its counts are counts. -/
structure Legible (held : StoredCells) : Prop where
  texts : ∀ t ∈ held.texts, ∃ value, t = .text value
  counts : ∀ n ∈ held.counts, ∃ value, n = .count value

end BacktestColumns

theorem StoredText.read_eq_ok_iff {column : String} {optional : Bool} {held : StoredText} {value : String} :
    held.read column optional = .ok value ↔ held = .text value := by
  cases held <;> simp [StoredText.read]

theorem StoredCount.read_eq_ok_iff {column : String} {optional : Bool} {held : StoredCount} {value : Int} :
    held.read column optional = .ok value ↔ held = .count value := by
  cases held <;> simp [StoredCount.read]

/-- A column that may be null is read as one that may not, or is null. -/
theorem mapM_read_eq_ok_iff {κ ι : Type} {read : κ → Except Misfit ι} {held : ι → κ}
    (h : ∀ {k i}, read k = .ok i ↔ k = held i) {o : Option κ} {p : Option ι} : o.mapM read = .ok p ↔ o = p.map held := by
  cases o with
  | none => cases p <;> simp [pure, Except.pure]
  | some k =>
    rw [Option.mapM_some]
    constructor
    · intro hk
      obtain ⟨i, hi, rfl⟩ := exists_of_map_eq_ok hk
      rw [h.mp hi, Option.map_some]
    · intro hk
      obtain ⟨i, rfl, rfl⟩ := Option.map_eq_some_iff.mp hk.symm
      rw [h.mpr rfl]
      rfl

namespace BacktestColumns

/-- **A row is read as some columns exactly if it holds them.** -/
theorem read_eq_ok_iff {held : StoredCells} {c : BacktestCells} : held.read = .ok c ↔ held = c.stored := by
  have htext {column : String} {optional : Bool} {o : Option StoredText} {p : Option String} :
      o.mapM (StoredText.read column optional) = .ok p ↔ o = p.map .text := mapM_read_eq_ok_iff StoredText.read_eq_ok_iff
  have hcount {column : String} {optional : Bool} {o : Option StoredCount} {p : Option Int} :
      o.mapM (StoredCount.read column optional) = .ok p ↔ o = p.map .count :=
    mapM_read_eq_ok_iff StoredCount.read_eq_ok_iff
  simp only [read, bind_eq_ok_iff, StoredText.read_eq_ok_iff, StoredCount.read_eq_ok_iff, htext, hcount]
  -- each column in turn holds what is read from it
  constructor
  · intro h
    cases held
    repeat obtain ⟨_, rfl, h⟩ := h
    rfl
  · rintro rfl
    repeat refine ⟨_, rfl, ?_⟩
    rfl

/-- A row holds texts and counts exactly if it is legible. -/
theorem exists_stored_iff {held : StoredCells} : (∃ c : BacktestCells, held = c.stored) ↔ held.Legible := by
  constructor
  · rintro ⟨c, rfl⟩
    refine ⟨fun t ht => ?_, fun n hn => ?_⟩
    · rw [stored, texts_map] at ht
      obtain ⟨value, -, rfl⟩ := List.mem_map.mp ht
      exact ⟨value, rfl⟩
    · rw [stored, counts_map] at hn
      obtain ⟨value, -, rfl⟩ := List.mem_map.mp hn
      exact ⟨value, rfl⟩
  · rintro ⟨htexts, hcounts⟩
    -- what is no text and no count does not occur, so it does not matter what it is taken for
    let value : StoredText → String := fun t => match t with
      | .text s => s
      | _ => ""
    let count : StoredCount → Int := fun n => match n with
      | .count k => k
      | _ => 0
    refine ⟨held.map value count, ?_⟩
    rw [stored, map_map]
    refine (map_eq_self (fun t ht => ?_) fun n hn => ?_).symm
    · obtain ⟨s, rfl⟩ := htexts t ht
      rfl
    · obtain ⟨k, rfl⟩ := hcounts n hn
      rfl

/-- **A row can be read exactly if all its texts are texts and all its counts are counts.** -/
theorem exists_read_eq_ok_iff {held : StoredCells} : (∃ c, held.read = .ok c) ↔ held.Legible := by
  simp only [read_eq_ok_iff, exists_stored_iff]

end BacktestColumns

namespace KnowledgeBase

/-- A row that is read is the row of the table. -/
theorem readRow_eq_ok_iff {row : Int × StoredCells} {r : BacktestRow} :
    readRow row = .ok r ↔ r.id = some row.1 ∧ r.cells.stored = row.2 := by
  obtain ⟨id, cells⟩ := r
  simp only [readRow, bind_eq_ok_iff, BacktestColumns.read_eq_ok_iff]
  constructor
  · rintro ⟨c, hc, heq⟩
    cases heq
    exact ⟨rfl, hc.symm⟩
  · rintro ⟨rfl, hc⟩
    exact ⟨cells, hc.symm, rfl⟩

/-- All rows of a list can be read exactly if each of them is legible. -/
theorem exists_mapM_readRow_eq_ok_iff (rows : List (Int × StoredCells)) :
    (∃ read, rows.mapM readRow = .ok read) ↔ ∀ row ∈ rows, row.2.Legible := by
  rw [exists_mapM_eq_ok_iff]
  refine forall₂_congr fun row _ => ?_
  rw [← BacktestColumns.exists_stored_iff]
  constructor
  · rintro ⟨r, hr⟩
    exact ⟨r.cells, (readRow_eq_ok_iff.mp hr).2.symm⟩
  · rintro ⟨cells, hcells⟩
    exact ⟨⟨some row.1, cells⟩, readRow_eq_ok_iff.mpr ⟨rfl, hcells.symm⟩⟩

end KnowledgeBase

end BotSpec
