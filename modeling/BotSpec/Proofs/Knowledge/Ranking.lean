import Mathlib.Data.List.Dedup
import Mathlib.Data.List.Forall2
import Mathlib.Data.List.Perm.Basic
import BotSpec.Proofs.Knowledge.Ingestion
import BotSpec.Proofs.Knowledge.Numeral
import BotSpec.Proofs.Knowledge.Reading

/-!
# What the ranking shows

Each strategy name is shown once, with the row that has the largest statistic and, of equally large
ones, the smallest id. `Before` is this order of rows, by the doubles that the statistics are read
as and then by id.

The rows are sorted once, the first row of each name is kept, and the list is cut (`best`,
`takeLimit`). The first row of a name in a sorted list is the best of its name, and what is kept is
in order still, so one sort serves both; and what is cut off comes after everything that is kept.
`IsTop` says what the cut list is:

> `isTop_take_best`: for every table, every statistic and every limit.

A list is shown if all its rows are legible, and fails otherwise (`exists_mapM_readRow_eq_ok_iff`):
a table keeps a text in a column of counts, and bytes in any column, and one such row among the best
is enough (`top_fails_on_text`).
-/

namespace BotSpec

namespace KnowledgeBase

/-! ## The order of rows -/

/-- What a row is ranked by. -/
def key (rankBy : RankBy) (row : Int × StoredCells) : ℚ := rankReal (rankBy.text row.2)

/-- The larger statistic comes first, of equal ones the smaller id. -/
def Before (rankBy : RankBy) (a b : Int × StoredCells) : Prop :=
  key rankBy b < key rankBy a ∨ (key rankBy a = key rankBy b ∧ a.1 ≤ b.1)

variable {rankBy : RankBy} {a b c : Int × StoredCells}

/-- The comparison that sorts the rows is the order: by number downwards, then by id upwards. -/
theorem precedes_iff : precedes rankBy a b = true ↔ Before rankBy a b := by
  simp only [precedes, position, Before, key, Bool.or_eq_true, Bool.and_eq_true, decide_eq_true_eq,
    rankPosition_lt_iff, rankPosition_eq_iff]

/-- Two rows are in order one way or the other. -/
theorem before_total (rankBy : RankBy) (a b : Int × StoredCells) : Before rankBy a b ∨ Before rankBy b a := by
  unfold Before
  rcases lt_trichotomy (key rankBy a) (key rankBy b) with hlt | heq | hgt
  · exact Or.inr (Or.inl hlt)
  · rcases le_total a.1 b.1 with hle | hle
    · exact Or.inl (Or.inr ⟨heq, hle⟩)
    · exact Or.inr (Or.inr ⟨heq.symm, hle⟩)
  · exact Or.inl (Or.inl hgt)

theorem Before.trans (hab : Before rankBy a b) (hbc : Before rankBy b c) : Before rankBy a c := by
  rcases hab with hab | ⟨hab, hidab⟩ <;> rcases hbc with hbc | ⟨hbc, hidbc⟩
  · exact Or.inl (hbc.trans hab)
  · exact Or.inl (hbc ▸ hab)
  · exact Or.inl (hab ▸ hbc)
  · exact Or.inr ⟨hab.trans hbc, hidab.trans hidbc⟩

theorem Before.refl (rankBy : RankBy) (a : Int × StoredCells) : Before rankBy a a := Or.inr ⟨rfl, le_rfl⟩

/-! ## The first row of each name -/

/-- The strategy name of a row. -/
def nameOf (row : Int × StoredCells) : StoredText := row.2.strategyName

/-- Choosing rows leaves them in their order. -/
theorem firstOfNames_sublist (seen : List StoredText) (rows : List (Int × StoredCells)) :
    (firstOfNames seen rows).Sublist rows := by
  induction rows generalizing seen with
  | nil => exact List.Sublist.refl _
  | cons row rest ih =>
    rw [firstOfNames]
    split
    · exact (ih seen).cons row
    · exact (ih _).cons_cons row

/-- No name is kept twice, and no name that was seen. -/
theorem nodup_names_firstOfNames (seen : List StoredText) (rows : List (Int × StoredCells)) :
    ((firstOfNames seen rows).map nameOf).Nodup ∧ ∀ name ∈ (firstOfNames seen rows).map nameOf, name ∉ seen := by
  induction rows generalizing seen with
  | nil => exact ⟨List.nodup_nil, fun _ h => nomatch h⟩
  | cons row rest ih =>
    rw [firstOfNames]
    split
    · exact ih seen
    next hseen =>
      have hfresh : nameOf row ∉ seen := by simpa [nameOf] using hseen
      obtain ⟨hnodup, hrest⟩ := ih (nameOf row :: seen)
      constructor
      · rw [List.map_cons, List.nodup_cons]
        exact ⟨fun h => hrest _ h List.mem_cons_self, hnodup⟩
      · intro name hname
        rcases List.mem_cons.mp hname with rfl | hname
        · exact hfresh
        · exact fun h => hrest name hname (List.mem_cons_of_mem _ h)

/-- In rows in order, every row has a first row of its name before it. -/
theorem exists_first {seen : List StoredText} {rows : List (Int × StoredCells)} (hrows : rows.Pairwise (Before rankBy))
    {row : Int × StoredCells} (hmem : row ∈ rows) (hname : nameOf row ∉ seen) :
    ∃ first ∈ firstOfNames seen rows, nameOf first = nameOf row ∧ Before rankBy first row := by
  induction rows generalizing seen with
  | nil => cases hmem
  | cons head rest ih =>
    obtain ⟨hhead, hrest⟩ := List.pairwise_cons.mp hrows
    rw [firstOfNames]
    split
    next hseen =>
      rcases List.mem_cons.mp hmem with rfl | hmem
      · exact absurd (by simpa [nameOf] using hseen) hname
      · exact ih hrest hmem hname
    next hseen =>
      -- the head is the first row of its name; the rows behind it are judged with that name seen
      by_cases heq : nameOf head = nameOf row
      · refine ⟨head, List.mem_cons_self, heq, ?_⟩
        rcases List.mem_cons.mp hmem with rfl | hmem
        · exact Before.refl rankBy row
        · exact hhead row hmem
      · have hmem : row ∈ rest := (List.mem_cons.mp hmem).resolve_left fun h => heq (h ▸ rfl)
        have hname : nameOf row ∉ nameOf head :: seen := by
          intro h
          exact (List.mem_cons.mp h).elim (fun h => heq h.symm) hname
        obtain ⟨first, hfirst, hsame, hbefore⟩ := ih hrest hmem hname
        exact ⟨first, List.mem_cons_of_mem _ hfirst, hsame, hbefore⟩

/-! ## The best rows -/

/-- The strategy names of a table, each once. -/
def names (kb : KnowledgeBase) : List StoredText := (kb.rows.map nameOf).dedup

section Best

variable (kb : KnowledgeBase) (rankBy : RankBy)

/-- Sorting puts all rows in order. -/
theorem pairwise_sorted : (kb.rows.mergeSort (precedes rankBy)).Pairwise (Before rankBy) := by
  refine (List.pairwise_mergeSort ?_ ?_ kb.rows).imp precedes_iff.mp
  · intro a b c hab hbc
    exact precedes_iff.mpr ((precedes_iff.mp hab).trans (precedes_iff.mp hbc))
  · intro a b
    simpa only [Bool.or_eq_true, precedes_iff] using before_total rankBy a b

/-- The best rows are in order, having been chosen from rows in order. -/
theorem pairwise_best : (kb.best rankBy).Pairwise (Before rankBy) :=
  (kb.pairwise_sorted rankBy).sublist (firstOfNames_sublist _ _)

theorem nodup_names_best : ((kb.best rankBy).map nameOf).Nodup := (nodup_names_firstOfNames _ _).1

variable {kb}

/-- Every row of the table has a best row of its name. -/
theorem exists_best {row : Int × StoredCells} (hrow : row ∈ kb.rows) :
    ∃ first ∈ kb.best rankBy, nameOf first = nameOf row ∧ Before rankBy first row :=
  exists_first (kb.pairwise_sorted rankBy) ((List.mergeSort_perm _ _).mem_iff.mpr hrow) (List.not_mem_nil)

variable {rankBy}

/-- A best row comes before every row of its name. -/
theorem before_of_mem_best {row other : Int × StoredCells} (hrow : row ∈ kb.best rankBy) (hother : other ∈ kb.rows)
    (hname : nameOf other = nameOf row) : Before rankBy row other := by
  obtain ⟨first, hfirst, hsame, hbefore⟩ := exists_best rankBy hother
  have heq : first = row := List.inj_on_of_nodup_map (kb.nodup_names_best rankBy) hfirst hrow (hsame.trans hname)
  exact heq ▸ hbefore

variable (kb rankBy)

/-- Every name has a best row, and no row is best but for its name. -/
theorem length_best : (kb.best rankBy).length = kb.names.length := by
  have hperm : ((kb.best rankBy).map nameOf).Perm kb.names := by
    refine (List.perm_ext_iff_of_nodup (kb.nodup_names_best rankBy) (List.nodup_dedup _)).mpr fun name => ?_
    rw [List.mem_dedup, List.mem_map, List.mem_map]
    constructor
    · rintro ⟨row, hrow, rfl⟩
      exact ⟨row, mem_of_mem_best hrow, rfl⟩
    · rintro ⟨row, hrow, rfl⟩
      obtain ⟨first, hfirst, hsame, -⟩ := exists_best rankBy hrow
      exact ⟨first, hfirst, hsame⟩
  rw [← hperm.length_eq, List.length_map]

end Best

/-! ## The list that is shown -/

/-- What the rows of a list are: the best of their names, in order, as many as the limit allows, and
none that is left out is better. -/
structure IsTop (kb : KnowledgeBase) (rankBy : RankBy) (limit : Int) (chosen : List (Int × StoredCells)) : Prop where
  mem : ∀ row ∈ chosen, row ∈ kb.rows
  nodup_names : (chosen.map nameOf).Nodup
  best_of_name : ∀ row ∈ chosen, ∀ other ∈ kb.rows, nameOf other = nameOf row → Before rankBy row other
  ordered : chosen.Pairwise (Before rankBy)
  /-- A negative limit is none. -/
  length_eq : chosen.length = if limit < 0 then kb.names.length else min limit.toNat kb.names.length
  before_omitted : ∀ row ∈ kb.rows, nameOf row ∉ chosen.map nameOf → ∀ shown ∈ chosen, Before rankBy shown row

theorem takeLimit_isPrefix {β : Type} (limit : Int) (rows : List β) : takeLimit limit rows <+: rows := by
  unfold takeLimit
  split
  · exact List.prefix_refl rows
  · exact List.take_prefix _ _

theorem length_takeLimit {β : Type} (limit : Int) (rows : List β) :
    (takeLimit limit rows).length = if limit < 0 then rows.length else min limit.toNat rows.length := by
  unfold takeLimit
  split
  · rfl
  · exact List.length_take

/-- **The best rows, cut at the limit, are what a list has to show.** -/
theorem isTop_take_best (kb : KnowledgeBase) (rankBy : RankBy) (limit : Int) :
    kb.IsTop rankBy limit (takeLimit limit (kb.best rankBy)) := by
  obtain ⟨rest, hrest⟩ := takeLimit_isPrefix limit (kb.best rankBy)
  have hsublist : (takeLimit limit (kb.best rankBy)).Sublist (kb.best rankBy) :=
    (takeLimit_isPrefix limit (kb.best rankBy)).sublist
  constructor
  case mem => exact fun row hrow => mem_of_mem_best (hsublist.subset hrow)
  case nodup_names => exact (kb.nodup_names_best rankBy).sublist (hsublist.map nameOf)
  case best_of_name => exact fun row hrow other => before_of_mem_best (hsublist.subset hrow)
  case ordered => exact (kb.pairwise_best rankBy).sublist hsublist
  case length_eq => rw [length_takeLimit, length_best]
  case before_omitted =>
    intro row hrow homitted shown hshown
    -- the best row of an omitted name was cut off, and what is cut off comes after what is kept
    obtain ⟨first, hfirst, hsame, hbefore⟩ := exists_best rankBy hrow
    have hcut : first ∈ rest := by
      rw [← hrest] at hfirst
      refine (List.mem_append.mp hfirst).resolve_left fun hkept => homitted ?_
      exact hsame ▸ List.mem_map_of_mem hkept
    have hpairwise := kb.pairwise_best rankBy
    rw [← hrest] at hpairwise
    exact ((List.pairwise_append.mp hpairwise).2.2 shown hshown first hcut).trans hbefore

/-- A smaller limit shows the first rows of a larger one. -/
theorem top_of_le {kb : KnowledgeBase} {limit limit' : Int} {sortBy : Option String} {rows : List BacktestRow}
    (hlimit : 0 ≤ limit) (hle : limit ≤ limit') (h : kb.top limit' sortBy = .ok rows) :
    kb.top limit sortBy = .ok (rows.take limit.toNat) := by
  have htake : takeLimit limit (kb.best (.ofName sortBy)) =
      (takeLimit limit' (kb.best (.ofName sortBy))).take limit.toNat := by
    have hmin : min limit.toNat limit'.toNat = limit.toNat := Nat.min_eq_left (by omega)
    rw [takeLimit, if_neg (by omega), takeLimit, if_neg (by omega), List.take_take, hmin]
  unfold top at h ⊢
  rw [mapM_eq_ok_iff] at h ⊢
  rw [htake]
  exact List.forall₂_take _ h

/-- **The best of each name.** For every content of a table, the rows of a list are the best of
their names; the list is shown exactly if each of these rows is legible, and then shows them as the
table holds them. A smaller limit shows the first of them, and the service as many as it is asked
for. -/
theorem top_shows_best_of_each_name (kb : KnowledgeBase) (sortBy : Option String) :
    (∀ limit, ∃ chosen, kb.IsTop (.ofName sortBy) limit chosen ∧
      ((∃ rows, kb.top limit sortBy = .ok rows) ↔ ∀ row ∈ chosen, row.2.Legible) ∧
      ∀ rows, kb.top limit sortBy = .ok rows →
        List.Forall₂ (fun row r => r.id = some row.1 ∧ r.cells.stored = row.2) chosen rows) ∧
    (∀ limit limit' rows', 0 ≤ limit → limit ≤ limit' → kb.top limit' sortBy = .ok rows' →
      ∃ rows, kb.top limit sortBy = .ok rows ∧ rows <+: rows') ∧
    ∀ limit rows, kb.top (max 1 (min 500 (limit.getD 20))) sortBy = .ok rows →
      (∃ response body, (Service.mk (some kb)).answer (.top limit sortBy) = .ok response ∧
        response.status = 200 ∧ response.body = some body ∧
        body.get? "data" = some (.array (rows.map BacktestRow.toJson)) ∧
        body.get? "total" = some (.whole rows.length)) ∧
      rows.length = min (max 1 (min 500 (limit.getD 20))).toNat kb.names.length := by
  refine ⟨?_, ?_, ?_⟩
  · intro limit
    refine ⟨_, kb.isTop_take_best _ limit, exists_mapM_readRow_eq_ok_iff _, fun rows h => ?_⟩
    simpa only [readRow_eq_ok_iff] using mapM_eq_ok_iff.mp h
  · intro limit limit' rows' hlimit hle h
    exact ⟨_, top_of_le hlimit hle h, List.take_prefix _ _⟩
  · intro limit rows h
    constructor
    · have hanswer : (Service.mk (some kb)).answer (.top limit sortBy) =
          .ok (Service.listing (rows.map BacktestRow.toJson)) := by
        simp only [Service.answer, Service.answerTop, Service.topLimit, h]
      have htotal : (rows.map BacktestRow.toJson).length = rows.length := List.length_map _
      exact ⟨_, _, hanswer, rfl, rfl, rfl, congrArg (fun n : Nat => some (Json.whole n)) htotal⟩
    · have hlength := (mapM_eq_ok_iff.mp h).length_eq
      rw [← hlength, (kb.isTop_take_best _ _).length_eq, if_neg (by omega)]

/-- Two rows of one name: the second one is shown, because `10.5` is more than `9`, whatever stands
behind it. -/
theorem top_shows_best_of_each_name_two :
    let given := fun hash score : String =>
      [("params_hash", .text hash), ("strategy_type", .text "rsi"), ("strategy_name", .text "RSI 14"),
        ("strategy_params", .text "\x7b\x7d"), ("symbol", .text "BTC"), ("days", .whole 30),
        ("sizing_mode", .text "fixed"), ("composite_score", .text score)]
    ∃ kb kb' rows, empty.insert (given "9f2c" "9") = .ok (1, kb) ∧ kb.insert (given "b07a" "10.5 of 20") = .ok (2, kb') ∧
      kb'.top 20 none = .ok rows ∧ rows.map BacktestRow.id = [some 2] ∧
      (∃ rows', kb'.top 1 none = .ok rows' ∧ rows' <+: rows) ∧
      ∃ response body, (Service.mk (some kb')).answer (.top none none) = .ok response ∧ response.body = some body ∧
        body.get? "total" = some (.whole 1) := by
  intro given
  obtain ⟨kb, first, second, hfirst, hsecond, hnames, hread, hprecedes⟩ : ∃ kb first second,
      empty.insert (given "9f2c" "9") = .ok (1, kb) ∧
      kb.insert (given "b07a" "10.5 of 20") = .ok (2, ⟨[(1, first), (2, second)], 2⟩) ∧
      (first.strategyName = .text "RSI 14" ∧ second.strategyName = .text "RSI 14") ∧ (∃ cells, second.read = .ok cells) ∧
      precedes (.ofName none) (1, first) (2, second) = false :=
    ⟨_, _, _, rfl, rfl, ⟨rfl, rfl⟩, ⟨_, rfl⟩, by decide +kernel⟩
  obtain ⟨hshown, hprefix, hservice⟩ := top_shows_best_of_each_name ⟨[(1, first), (2, second)], 2⟩ none
  obtain ⟨chosen, htop, hreads, hrows⟩ := hshown 20
  -- one name, one row, and the first row is not the best of its name
  have hone : (KnowledgeBase.mk [(1, first), (2, second)] 2).names.length = 1 := by
    simp [names, nameOf, hnames]
  obtain ⟨row, rfl⟩ : ∃ row, chosen = [row] := by
    rw [← List.length_eq_one_iff, htop.length_eq, hone]
    rfl
  have hrow : row = (2, second) := by
    rcases List.mem_pair.mp (htop.mem row List.mem_cons_self) with rfl | rfl
    · have hbefore := htop.best_of_name _ List.mem_cons_self (2, second) (by simp) (hnames.2.trans hnames.1.symm)
      rw [precedes_iff.mpr hbefore] at hprecedes
      cases hprecedes
    · rfl
  subst hrow
  have hlegible : second.Legible := BacktestColumns.exists_read_eq_ok_iff.mp hread
  obtain ⟨rows, hok⟩ := hreads.mpr fun row hrow => List.mem_singleton.mp hrow ▸ hlegible
  obtain ⟨r, _, ⟨hid, -⟩, hrest, rfl⟩ := List.forall₂_cons_left_iff.mp (hrows rows hok)
  cases hrest
  obtain ⟨⟨response, body, hanswer, -, hbody, -, htotal⟩, -⟩ := hservice none [r] hok
  refine ⟨kb, _, [r], hfirst, hsecond, hok, ?_, hprefix 1 20 [r] (by decide) (by decide) hok,
    response, body, hanswer, hbody, htotal⟩
  rw [List.map_singleton, hid]

/-- **A count that is a text fails the list.** The table keeps the text, and no list that has the
row can be shown. -/
theorem top_fails_on_text :
    let given : GivenCells :=
      [("params_hash", .text "h1"), ("strategy_type", .text "rsi"), ("strategy_name", .text "RSI 14"),
        ("strategy_params", .text "\x7b\x7d"), ("symbol", .text "BTCUSDT"), ("days", .text "abc"),
        ("sizing_mode", .text "fixed"), ("net_pnl", .text "12.5")]
    ∃ kb, empty.insert given = .ok (1, kb) ∧ kb.top 20 none = .error (.kind "days" true false .text) := by
  intro given
  obtain ⟨cells, hinsert, hread⟩ : ∃ cells, empty.insert given = .ok (1, ⟨[(1, cells)], 1⟩) ∧
      readRow (1, cells) = .error (.kind "days" true false .text) := ⟨_, rfl, rfl⟩
  refine ⟨_, hinsert, ?_⟩
  simp only [top, best, List.mergeSort_singleton]
  show [(1, cells)].mapM readRow = _
  rw [List.mapM_cons, hread]
  rfl

end KnowledgeBase

end BotSpec
