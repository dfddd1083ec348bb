import BotSpec.Proofs.Knowledge.Ranking

/-!
# What a new row holds

The columns of the table are named in three places that know nothing of each other: in the table
itself with their defaults and what they may hold, in the reading of a row from its columns, and in
the record that a row is read into and shown from. They line up:

* `mapM_cell`: a row is read column by column, in the order of the table,
* `BacktestRow.toJson_eq`: a row that is shown is its id and its columns, in the same order.

So what is given for a column passes through (`cell_filledSource`), the same argument for each
column of a kind, and

> `readRow_of_newCells`: a new row that is read shows what was given for each column, and the
> default of each other column.
-/

namespace BotSpec

/-! ## Cells of a row -/

/-- A value of the table in JSON. Only texts and whole numbers have one. -/
def Cell.toJson : Cell → Json
  | .whole n => .whole n
  | .text s => .string s
  | _ => .null

/-- A value that may be absent. -/
def Cell.ofOption {β : Type} (f : β → Cell) : Option β → Cell
  | none => .null
  | some b => f b

theorem Cell.toJson_ofOption {β : Type} (f : β → Cell) (o : Option β) :
    (Cell.ofOption f o).toJson = Json.ofOption (fun b => (f b).toJson) o := by
  cases o <;> rfl

/-- What a column of texts holds. -/
def StoredText.toCell : StoredText → Cell
  | .text s => .text s
  | .illFormed bytes => .illFormed bytes
  | .blob bytes => .blob bytes

/-- Nothing is lost when a text is put back among the values of a table. -/
theorem StoredText.toCell_injective : Function.Injective StoredText.toCell := by
  intro s t h
  cases s <;> cases t <;> simp_all [toCell]

/-- What a column of counts holds. Of another value only the kind is known. -/
def StoredCount.toCell : StoredCount → Cell
  | .count n => .whole n
  | .other .text => .text ""
  | .other .blob => .blob []
  | .other _ => .fraction

/-- A text that is read, or none, is shown as it is held. -/
theorem StoredText.ofOption_toCell_map (o : Option String) :
    Cell.ofOption StoredText.toCell (o.map .text) = Cell.ofOption .text o := by
  cases o <;> rfl

theorem StoredCount.ofOption_toCell_map (o : Option Int) :
    Cell.ofOption StoredCount.toCell (o.map .count) = Cell.ofOption .whole o := by
  cases o <;> rfl

/-- The columns of a row by name, in the order of the table. -/
def BacktestColumns.toCells (c : StoredCells) : List (String × Cell) :=
  let optional := Cell.ofOption StoredText.toCell
  [("params_hash", c.paramsHash.toCell), ("strategy_type", c.strategyType.toCell),
    ("strategy_name", c.strategyName.toCell), ("strategy_params", c.strategyParams.toCell), ("symbol", c.symbol.toCell),
    ("days", c.days.toCell), ("sizing_mode", c.sizingMode.toCell), ("composite_score", c.compositeScore.toCell),
    ("net_pnl", c.netPnl.toCell), ("gross_pnl", c.grossPnl.toCell), ("total_fees", c.totalFees.toCell),
    ("win_rate", c.winRate.toCell), ("total_trades", c.totalTrades.toCell), ("sharpe_ratio", c.sharpeRatio.toCell),
    ("max_drawdown_pct", c.maxDrawdownPct.toCell), ("profit_factor", c.profitFactor.toCell),
    ("avg_trade_pnl", c.avgTradePnl.toCell), ("hit_rate", optional c.hitRate),
    ("avg_locked_profit", optional c.avgLockedProfit), ("discovery_run_id", optional c.discoveryRunId),
    ("phase", optional c.phase), ("sortino_ratio", optional c.sortinoRatio),
    ("max_consecutive_losses", .ofOption StoredCount.toCell c.maxConsecutiveLosses), ("avg_win_pnl", optional c.avgWinPnl),
    ("avg_loss_pnl", optional c.avgLossPnl), ("total_volume", optional c.totalVolume),
    ("annualized_return_pct", optional c.annualizedReturnPct), ("annualized_sharpe", optional c.annualizedSharpe),
    ("strategy_confidence", optional c.strategyConfidence)]

/-- The columns of counts. -/
def countNames : List String := ["days", "total_trades", "max_consecutive_losses"]

/-- Each text of a row stands in a column. -/
theorem BacktestColumns.exists_mem_toCells_of_mem_texts {c : StoredCells} {t : StoredText}
    (ht : t ∈ c.texts) :
    ∃ name, (name, t.toCell) ∈ c.toCells := by
  simp only [texts, List.mem_append, List.reduceOption_mem_iff, List.mem_cons, List.not_mem_nil, or_false] at ht
  have hoption {o : Option StoredText} (ho : some t = o) : Cell.ofOption StoredText.toCell o = t.toCell := ho ▸ rfl
  rcases ht with ht | ht
  · repeat' obtain rfl | ht := ht
    all_goals simp [toCells, exists_or]
  · repeat' obtain ht | ht := ht
    all_goals simp [toCells, exists_or, hoption ht]

/-- Each count of a row stands in a column of counts. -/
theorem BacktestColumns.exists_mem_toCells_of_mem_counts {c : StoredCells} {n : StoredCount}
    (hn : n ∈ c.counts) :
    ∃ name ∈ countNames, (name, n.toCell) ∈ c.toCells := by
  simp only [counts, List.mem_append, List.reduceOption_mem_iff, List.mem_cons, List.not_mem_nil, or_false] at hn
  rcases hn with (rfl | rfl) | hn
  · exact ⟨"days", by simp [countNames], by simp [toCells]⟩
  · exact ⟨"total_trades", by simp [countNames], by simp [toCells]⟩
  · exact ⟨"max_consecutive_losses", by simp [countNames], by simp [toCells, ← hn, Cell.ofOption]⟩

/-- **A row is shown as its id and its columns.** -/
theorem BacktestRow.toJson_eq (r : BacktestRow) :
    r.toJson = .object (("id", Json.ofOption .whole r.id) :: r.cells.stored.toCells.map fun m => (m.1, m.2.toJson)) := by
  simp only [BacktestColumns.toCells, BacktestColumns.stored, BacktestColumns.map, StoredText.ofOption_toCell_map,
    StoredCount.ofOption_toCell_map, List.map, Cell.toJson_ofOption]
  rfl

/-- What a source gives for a column. -/
def CellSource.cell {ε : Type} (s : CellSource ε StoredText StoredCount) (c : Column) : Except ε Cell :=
  match c.counts, c.required with
  | false, true => (StoredText.toCell ·) <$> s.text c.name
  | false, false => (Cell.ofOption StoredText.toCell ·) <$> s.optionalText c.name
  | true, true => (StoredCount.toCell ·) <$> s.count c.name
  | true, false => (Cell.ofOption StoredCount.toCell ·) <$> s.optionalCount c.name

/-- **A row is read column by column**, each as the kind of column that the table has. -/
theorem CellSource.mapM_cell {ε : Type} (s : CellSource ε StoredText StoredCount) :
    (backtestColumns.mapM fun c => (c.name, ·) <$> s.cell c) = BacktestColumns.toCells <$> s.cells := by
  simp only [backtestColumns, List.mapM_cons, List.mapM_nil, CellSource.cell, CellSource.cells, Column.requiredText,
    Column.statistic, Column.optionalText, map_bind, map_pure, bind_map_left, bind_assoc, pure_bind, Functor.map_map]
  rfl

/-! ## What is given -/

namespace Column

/-- What a new row has in a column: the value that is given, else the default. -/
def valueIn (c : Column) (given : GivenCells) : Cell := (givenCell? c.name given).getD c.default

/-- A value of the kind of a column: a text or a count, or null. -/
def Fits (c : Column) : Cell → Prop
  | .null => True
  | .whole _ => c.counts = true
  | .text _ => c.counts = false
  | _ => False

instance (c : Column) (v : Cell) : Decidable (c.Fits v) := by
  cases v <;> unfold Fits <;> infer_instance

/-- Every default is of the kind of its column. -/
theorem fits_default {c : Column} (hc : c ∈ backtestColumns) : c.Fits c.default := by
  have hall : ∀ c ∈ backtestColumns, c.Fits c.default := by decide +kernel
  exact hall c hc

/-- A value of the kind of its column is kept as it is given. -/
theorem convert_of_fits {c : Column} {v : Cell} (h : c.Fits v) : c.convert v = v := by
  cases v with
  | null => rfl
  | whole n => rw [convert, if_pos (show c.counts = true from h)]
  | text s => rw [convert, if_neg (by rw [show c.counts = false from h]; decide)]
  | fraction => cases h
  | illFormed bytes => cases h
  | blob bytes => cases h

/-- A column is filled with the value in it, unless this is null and must not be. -/
theorem fill_eq_ok_iff {c : Column} {given : GivenCells} {filled : String × Cell} :
    c.fill given = .ok filled ↔
      (c.required = true → c.convert (c.valueIn given) ≠ .null) ∧ (c.name, c.convert (c.valueIn given)) = filled := by
  simp only [fill, valueIn]
  split
  next h => exact ⟨nofun, fun hok => absurd h.2 (hok.1 h.1)⟩
  next h =>
    refine ⟨fun hok => ⟨fun hrequired hnull => h ⟨hrequired, hnull⟩, Except.ok.inj hok⟩, ?_⟩
    rintro ⟨-, rfl⟩
    rfl

end Column

/-- Values of the kinds of their columns. An id is a count. -/
structure Typed (given : GivenCells) : Prop where
  fits : ∀ c ∈ backtestColumns, ∀ v, givenCell? c.name given = some v → c.Fits v
  id : ∀ v, givenCell? "id" given = some v → v = .null ∨ ∃ n, v = .whole n

section Given

variable {given : GivenCells}

/-- What a new row has in a column is of its kind, given or not. -/
theorem Typed.fits_valueIn (h : Typed given) {c : Column} (hc : c ∈ backtestColumns) :
    c.Fits (c.valueIn given) := by
  unfold Column.valueIn
  cases hgiven : givenCell? c.name given with
  | none => exact Column.fits_default hc
  | some v => exact h.fits c hc v hgiven

theorem Typed.convert_valueIn (h : Typed given) {c : Column} (hc : c ∈ backtestColumns) :
    c.convert (c.valueIn given) = c.valueIn given :=
  Column.convert_of_fits (h.fits_valueIn hc)

/-- Columns are filled one by one, and all of them if none has null where it must not. -/
theorem mapM_fill_eq_ok_iff {columns : List Column} {filled : GivenCells} :
    (columns.mapM fun c => c.fill given) = .ok filled ↔
      (∀ c ∈ columns, c.required = true → c.convert (c.valueIn given) ≠ .null) ∧
        (columns.map fun c => (c.name, c.convert (c.valueIn given))) = filled := by
  simp only [mapM_eq_ok_iff, Column.fill_eq_ok_iff, List.forall₂_and_left]
  rw [← List.forall₂_map_left_iff, List.forall₂_eq_eq_eq]

theorem nodup_column_names : (backtestColumns.map Column.name).Nodup := by decide +kernel

/-- A column is found among the filled ones by its name. -/
theorem givenCell?_map {value : Column → Cell} {c : Column} (hc : c ∈ backtestColumns) :
    givenCell? c.name (backtestColumns.map fun c => (c.name, value c)) = some (value c) := by
  rw [givenCell?, List.find?_map]
  have hfound :
      backtestColumns.find? ((fun g : String × Cell => decide (g.1 = c.name)) ∘ fun c => (c.name, value c)) = some c :=
    KnowledgeBase.find?_eq_some_of_nodup nodup_column_names hc
  rw [hfound]
  rfl

/-- **What stands in a column is read from it**, whatever kind of column it is. -/
theorem cell_filledSource {c : Column} {filled : GivenCells} {v : Cell} (hfilled : givenCell? c.name filled = some v)
    (hfits : c.Fits v) (hrequired : c.required = true → v ≠ .null) : (filledSource filled).cell c = .ok v := by
  obtain ⟨name, counts, required, default⟩ := c
  cases v with
  | fraction => cases hfits
  | illFormed bytes => cases hfits
  | blob bytes => cases hfits
  | null =>
    cases required with
    | true => exact absurd rfl (hrequired rfl)
    | false => cases counts <;> simp only [CellSource.cell, filledSource, hfilled] <;> rfl
  | whole n =>
    cases show counts = true from hfits
    cases required <;> simp only [CellSource.cell, filledSource, hfilled] <;> rfl
  | text s =>
    cases show counts = false from hfits
    cases required <;> simp only [CellSource.cell, filledSource, hfilled] <;> rfl

namespace KnowledgeBase

/-- No required column of a new row is null. -/
theorem ne_null_of_newCells {cells : StoredCells} (h : newCells given = .ok cells) {c : Column} (hc : c ∈ backtestColumns)
    (hrequired : c.required = true) : c.convert (c.valueIn given) ≠ .null := by
  obtain ⟨filled, hfilled, -⟩ := exists_of_bind_eq_ok h
  exact (mapM_fill_eq_ok_iff.mp hfilled).1 c hc hrequired

/-- **The columns of a new row are what is given, and the defaults.** -/
theorem exists_newCells (h : Typed given)
    (hnull : ∀ c ∈ backtestColumns, c.required = true → c.valueIn given ≠ .null) :
    ∃ cells, newCells given = .ok cells ∧ cells.toCells = backtestColumns.map fun c => (c.name, c.valueIn given) := by
  have hconvert : ∀ c ∈ backtestColumns, c.convert (c.valueIn given) = c.valueIn given := fun c => h.convert_valueIn
  have hfilled : (backtestColumns.mapM fun c => c.fill given) =
      .ok (backtestColumns.map fun c => (c.name, c.valueIn given)) := by
    refine mapM_fill_eq_ok_iff.mpr ⟨fun c hc => ?_, List.map_congr_left fun c hc => ?_⟩
    · rw [hconvert c hc]
      exact hnull c hc
    · rw [hconvert c hc]
  have hread : BacktestColumns.toCells <$> (filledSource (backtestColumns.map fun c => (c.name, c.valueIn given))).cells =
      .ok (backtestColumns.map fun c => (c.name, c.valueIn given)) := by
    rw [← CellSource.mapM_cell, mapM_eq_ok_iff, List.forall₂_map_right_iff, List.forall₂_same]
    intro c hc
    rw [cell_filledSource (givenCell?_map hc) (h.fits_valueIn hc) (hnull c hc)]
    rfl
  obtain ⟨cells, hcells, heq⟩ := exists_of_map_eq_ok hread
  exact ⟨cells, (bind_of_eq_ok hfilled).trans hcells, heq⟩

/-- Every new row holds what is given, and the defaults. -/
theorem toCells_of_newCells (h : Typed given) {cells : StoredCells} (hcells : newCells given = .ok cells) :
    cells.toCells = backtestColumns.map fun c => (c.name, c.valueIn given) := by
  obtain ⟨cells', hcells', heq⟩ := exists_newCells h fun c hc hrequired =>
    h.convert_valueIn hc ▸ ne_null_of_newCells hcells hc hrequired
  cases hcells.symm.trans hcells'
  exact heq

/-- A value in a new row is the one that its column has. -/
theorem exists_column_of_mem_toCells (h : Typed given) {cells : StoredCells} (hcells : newCells given = .ok cells)
    {name : String} {v : Cell} (hmem : (name, v) ∈ cells.toCells) :
    ∃ c ∈ backtestColumns, c.name = name ∧ c.valueIn given = v := by
  rw [toCells_of_newCells h hcells] at hmem
  obtain ⟨c, hc, heq⟩ := List.mem_map.mp hmem
  exact ⟨c, hc, congrArg Prod.fst heq, congrArg Prod.snd heq⟩

/-- A text or bytes of the kind of its column are a text. -/
theorem exists_text_of_fits {c : Column} {held : StoredText} (h : c.Fits held.toCell) :
    ∃ s, held = .text s := by
  cases held with
  | text s => exact ⟨s, rfl⟩
  | illFormed bytes => cases h
  | blob bytes => cases h

/-- In a column of counts a value of the right kind is a count. -/
theorem exists_count_of_fits {c : Column} (hcounts : c.counts = true) {held : StoredCount}
    (h : c.Fits held.toCell) :
    ∃ n, held = .count n := by
  cases held with
  | count n => exact ⟨n, rfl⟩
  | other held =>
    cases held with
    | text => cases hcounts.symm.trans h
    | whole => cases h
    | fraction => cases h
    | blob => cases h

theorem legible_of_newCells (h : Typed given) {cells : StoredCells} (hcells : newCells given = .ok cells) :
    cells.Legible := by
  constructor
  case texts =>
    intro t ht
    obtain ⟨name, hmem⟩ := BacktestColumns.exists_mem_toCells_of_mem_texts ht
    obtain ⟨c, hc, rfl, hvalue⟩ := exists_column_of_mem_toCells h hcells hmem
    exact exists_text_of_fits (hvalue ▸ h.fits_valueIn hc)
  case counts =>
    intro n hn
    obtain ⟨name, hname, hmem⟩ := BacktestColumns.exists_mem_toCells_of_mem_counts hn
    obtain ⟨c, hc, rfl, hvalue⟩ := exists_column_of_mem_toCells h hcells hmem
    have hall : ∀ c ∈ backtestColumns, c.name ∈ countNames → c.counts = true := by decide +kernel
    exact exists_count_of_fits (hall c hc hname) (hvalue ▸ h.fits_valueIn hc)

/-- The hash of a new row is the one that is given. -/
theorem givenCell?_hash_of_newCells (h : Typed given) {cells : StoredCells}
    (hcells : newCells given = .ok cells) :
    givenCell? "params_hash" given = some cells.paramsHash.toCell := by
  have hmem : ("params_hash", cells.paramsHash.toCell) ∈ cells.toCells := by simp [BacktestColumns.toCells]
  obtain ⟨c, hc, hname, hvalue⟩ := exists_column_of_mem_toCells h hcells hmem
  have hall : ∀ c ∈ backtestColumns, c.name = "params_hash" → c.default = .null := by decide +kernel
  rw [Column.valueIn, hname, hall c hc hname] at hvalue
  cases hgiven : givenCell? "params_hash" given with
  | none =>
    rw [hgiven] at hvalue
    cases hheld : cells.paramsHash <;> rw [hheld] at hvalue <;> cases hvalue
  | some v =>
    rw [hgiven] at hvalue
    exact congrArg some hvalue

/-- **A new row shows what was given for each column, and the default of each other column.** -/
theorem readRow_of_newCells (h : Typed given) {cells : StoredCells}
    (hcells : newCells given = .ok cells) (id : Int) :
    ∃ r, readRow (id, cells) = .ok r ∧
      r.toJson = .object (("id", .whole id) :: backtestColumns.map fun c => (c.name, (c.valueIn given).toJson)) := by
  obtain ⟨read, hread⟩ := BacktestColumns.exists_stored_iff.mpr (legible_of_newCells h hcells)
  refine ⟨⟨some id, read⟩, readRow_eq_ok_iff.mpr ⟨rfl, hread.symm⟩, ?_⟩
  rw [BacktestRow.toJson_eq, ← hread, toCells_of_newCells h hcells, List.map_map]
  rfl

end KnowledgeBase

end Given

end BotSpec
