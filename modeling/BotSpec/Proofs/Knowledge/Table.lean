import Mathlib.Data.List.Nodup
import BotSpec.Knowledge.Ranking
import BotSpec.Proofs.Outcome

/-!
# The table of backtests

What a knowledge base keeps while rows are inserted, and how the two ways to read it are related. A
base is `Sound` when its ids are distinct and fit 64 bits. The empty base is sound, and an insert
keeps a base sound (`Sound.insert`): an id in use is refused, and a new one is at most the greatest.

Both ways to read a base look at the same rows. `top` sorts, drops and cuts, but every row it lists
is one of the table (`mem_of_mem_best`), and so

> `get?_of_mem_top`: a row that `top` lists has an id that fits 64 bits, and `get?` finds the row by
> it.
-/

namespace BotSpec

/-- A numeral that is read as a whole number fits 64 bits. -/
theorem Numeral.lt_of_whole?_eq_some {n : Numeral} {value : Int} (h : n.whole? = some value) :
    value < twoPow 63 := by
  unfold Numeral.whole? at h
  split at h
  · have hfits := (Option.filter_eq_some_iff.mp h).2
    rw [Text.fitsWord, Bool.and_eq_true] at hfits
    exact of_decide_eq_true hfits.2
  · obtain ⟨size, hsize, rfl⟩ := Option.map_eq_some_iff.mp h
    have hlt : size < twoPow 63 := of_decide_eq_true (Option.filter_eq_some_iff.mp hsize).2
    unfold Numeral.withSign
    split <;> omega

namespace KnowledgeBase

/-- The ids of a base are distinct and fit 64 bits. -/
structure Sound (kb : KnowledgeBase) : Prop where
  nodup_ids : (kb.rows.map fun r => r.1).Nodup
  id_lt : ∀ r ∈ kb.rows, r.1 < twoPow 63

/-- An empty base has nothing to be wrong about. -/
theorem Sound.empty : empty.Sound where
  nodup_ids := List.nodup_nil
  id_lt := by
    intro r h
    cases h

/-! ## Inserting -/

/-- An id after the last one is at most the greatest. -/
theorem lt_of_next {last id : Int}
    (h : (if last < greatestId then Except.ok (last + 1) else .error InsertError.full) = .ok id) :
    id < twoPow 63 := by
  by_cases hlast : last < greatestId
  · rw [if_pos hlast] at h
    have heq : last + 1 = id := Except.ok.inj h
    unfold greatestId at hlast
    omega
  · rw [if_neg hlast] at h
    cases h

/-- A new id fits 64 bits if the one that is given does. -/
theorem newId_lt {kb : KnowledgeBase} {given : GivenCells} {id : Int} (h : kb.newId given = .ok id)
    (hgiven : ∀ n, givenCell? "id" given = some (.whole n) → n < twoPow 63) : id < twoPow 63 := by
  unfold newId at h
  cases hcell : givenCell? "id" given with
  | none =>
    rw [hcell] at h
    exact lt_of_next h
  | some cell =>
    rw [hcell, Option.getD_some] at h
    -- a count and a text that stands for one are ids, null asks for the next one, and the rest is refused
    cases cell with
    | whole n =>
      have heq : n = id := Except.ok.inj h
      rw [← heq]
      exact hgiven n hcell
    | null => exact lt_of_next h
    | fraction => cases h
    | illFormed bytes => cases h
    | blob bytes => cases h
    | text s =>
      simp only [Column.convert, if_true, Cell.ofNumeral] at h
      cases hs : Numeral.ofText? s with
      | none => simp [hs] at h
      | some n =>
        cases hn : n.whole? with
        | none => simp [hs, hn] at h
        | some value =>
          simp only [hs, hn, Except.ok.injEq] at h
          subst h
          exact Numeral.lt_of_whole?_eq_some hn

theorem not_any_iff {α : Type} {p : α → Prop} [DecidablePred p] {xs : List α} :
    ¬ (xs.any fun x => p x) = true ↔ ∀ x ∈ xs, ¬ p x := by
  simp only [List.any_eq_true, decide_eq_true_eq, not_exists, not_and]

/-- The columns of a new row. -/
def newCells (given : GivenCells) : Except InsertError StoredCells := do
  let filled ← backtestColumns.mapM fun c => c.fill given
  (filledSource filled).cells

/-- All that an insert does: it adds one row behind the others, with an id and a hash that none of
them has. -/
theorem insert_eq_ok_iff {kb kb' : KnowledgeBase} {given : GivenCells} {id : Int} :
    kb.insert given = .ok (id, kb') ↔
      unknownColumn? given = none ∧ kb.newId given = .ok id ∧ ∃ cells, newCells given = .ok cells ∧
        (∀ r ∈ kb.rows, r.1 ≠ id) ∧ (∀ r ∈ kb.rows, r.2.paramsHash ≠ cells.paramsHash) ∧
        kb' = ⟨kb.rows ++ [(id, cells)], max kb.lastId id⟩ := by
  constructor
  · intro h
    -- an insert checks one thing after the other, and all but the last outcome is an error
    unfold insert at h
    split at h
    · cases h
    next hunknown =>
      obtain ⟨newId, hnew, h⟩ := exists_of_bind_eq_ok h
      obtain ⟨filled, hfilled, h⟩ := exists_of_bind_eq_ok h
      obtain ⟨cells, hcells, h⟩ := exists_of_bind_eq_ok h
      split at h
      · cases h
      next hid =>
        split at h
        · cases h
        next hhash =>
          cases h
          exact ⟨Option.eq_none_iff_forall_ne_some.mpr hunknown, hnew, cells, (bind_of_eq_ok hfilled).trans hcells,
            not_any_iff.mp hid, not_any_iff.mp hhash, rfl⟩
  · rintro ⟨hunknown, hnew, cells, hcells, hid, hhash, rfl⟩
    obtain ⟨filled, hfilled, hcells⟩ := exists_of_bind_eq_ok hcells
    unfold insert
    split
    next name hname => cases hunknown.symm.trans hname
    next =>
      rw [bind_of_eq_ok hnew, bind_of_eq_ok hfilled, bind_of_eq_ok hcells, if_neg (not_any_iff.mpr hid),
        if_neg (not_any_iff.mpr hhash)]
      rfl

/-- A row with a new key goes behind rows with distinct keys. -/
theorem nodup_map_append_singleton {α β : Type} {key : α → β} {xs : List α} {x : α} (h : (xs.map key).Nodup)
    (hfresh : ∀ y ∈ xs, key y ≠ key x) : ((xs ++ [x]).map key).Nodup := by
  rw [List.map_append, List.map_singleton, ← List.concat_eq_append, List.nodup_concat]
  refine ⟨fun hmem => ?_, h⟩
  obtain ⟨y, hy, heq⟩ := List.mem_map.mp hmem
  exact hfresh y hy heq

/-- An insert keeps a base sound, if the id that may be given fits 64 bits. -/
theorem Sound.insert {kb kb' : KnowledgeBase} (hkb : kb.Sound) {given : GivenCells} {id : Int}
    (hgiven : ∀ n, givenCell? "id" given = some (.whole n) → n < twoPow 63)
    (h : kb.insert given = .ok (id, kb')) : kb'.Sound := by
  obtain ⟨-, hnew, cells, -, hfresh, -, rfl⟩ := insert_eq_ok_iff.mp h
  constructor
  · exact nodup_map_append_singleton hkb.nodup_ids hfresh
  · intro r hr
    rcases List.mem_append.mp hr with hold | hadded
    · exact hkb.id_lt r hold
    · rw [List.mem_singleton.mp hadded]
      exact newId_lt hnew hgiven

/-! ## Reading -/

/-- A member is the only one with its key. -/
theorem find?_eq_some_of_nodup {α β : Type} [DecidableEq β] {key : α → β} {xs : List α} (hnodup : (xs.map key).Nodup)
    {x : α} (h : x ∈ xs) : (xs.find? fun y => key y = key x) = some x := by
  have hsome : (xs.find? fun y => key y = key x).isSome := by
    rw [List.find?_isSome]
    exact ⟨x, h, by simp⟩
  obtain ⟨found, hfound⟩ := Option.isSome_iff_exists.mp hsome
  have hkey : key found = key x := by simpa using List.find?_some hfound
  rw [hfound, List.inj_on_of_nodup_map hnodup (List.mem_of_find?_eq_some hfound) h hkey]

/-- In a sound base a row is the only one with its id. -/
theorem Sound.find?_eq_some {kb : KnowledgeBase} (hkb : kb.Sound) {row : Int × StoredCells}
    (h : row ∈ kb.rows) : (kb.rows.find? fun r => r.1 = row.1) = some row :=
  find?_eq_some_of_nodup hkb.nodup_ids h

/-- What is chosen was there to choose from. -/
theorem mem_of_mem_firstOfNames {row : Int × StoredCells} :
    ∀ {seen : List StoredText} {rows : List (Int × StoredCells)}, row ∈ firstOfNames seen rows → row ∈ rows := by
  intro seen rows
  induction rows generalizing seen with
  | nil => intro h; exact h
  | cons r rest ih =>
    intro h
    rw [firstOfNames] at h
    split at h
    · exact List.mem_cons_of_mem _ (ih h)
    · rcases List.mem_cons.mp h with rfl | h
      · exact List.mem_cons_self
      · exact List.mem_cons_of_mem _ (ih h)

/-- The best rows are rows of the table. -/
theorem mem_of_mem_best {kb : KnowledgeBase} {rankBy : RankBy} {row : Int × StoredCells}
    (h : row ∈ kb.best rankBy) : row ∈ kb.rows :=
  (List.mergeSort_perm _ _).mem_iff.mp (mem_of_mem_firstOfNames h)

/-- What is left by a limit was there before. -/
theorem mem_of_mem_takeLimit {β : Type} {limit : Int} {rows : List β} {x : β}
    (h : x ∈ takeLimit limit rows) : x ∈ rows := by
  unfold takeLimit at h
  split at h
  · exact h
  · exact List.mem_of_mem_take h

theorem id_of_readRow {row : Int × StoredCells} {r : BacktestRow} (h : readRow row = .ok r) :
    r.id = some row.1 := by
  simp only [readRow, bind, Except.bind, pure, Except.pure] at h
  split at h
  · cases h
  · cases h
    rfl

/-- The row that `get?` gives has the id it was asked for. -/
theorem id_of_get? {kb : KnowledgeBase} {id : Int} {r : BacktestRow} (h : kb.get? id = .ok (some r)) :
    r.id = some id := by
  unfold get? at h
  cases hfind : kb.rows.find? fun r => r.1 = id with
  | none => rw [hfind] at h; cases h
  | some row =>
    have hid : row.1 = id := by simpa using List.find?_some hfind
    rw [hfind] at h
    cases hrow : readRow row with
    | error e => simp [hrow, Functor.map, Except.map] at h
    | ok r' =>
      simp only [Option.mapM_some, hrow, Functor.map, Except.map, Except.ok.injEq, Option.some.injEq] at h
      subst h
      rw [id_of_readRow hrow, hid]

/-- An id that no row has is answered with nothing, and no other id is. -/
theorem get?_eq_none_iff {kb : KnowledgeBase} {id : Int} :
    kb.get? id = .ok none ↔ ∀ row ∈ kb.rows, row.1 ≠ id := by
  have hnone : kb.get? id = .ok none ↔ (kb.rows.find? fun r => r.1 = id) = none := by
    unfold get?
    cases kb.rows.find? fun r => r.1 = id with
    | none => exact ⟨fun _ => rfl, fun _ => rfl⟩
    | some row =>
      refine ⟨fun h => ?_, nofun⟩
      obtain ⟨r, -, hr⟩ := exists_of_map_eq_ok h
      cases hr
  rw [hnone, List.find?_eq_none]
  simp only [decide_eq_true_eq, ne_eq]

/-- **A listed row can be asked for.** It has an id, and the row of this id is the listed one. -/
theorem get?_of_mem_top {kb : KnowledgeBase} (hkb : kb.Sound) {limit : Int} {sortBy : Option String}
    {rows : List BacktestRow} (h : kb.top limit sortBy = .ok rows) {r : BacktestRow} (hr : r ∈ rows) :
    ∃ id, r.id = some id ∧ id < twoPow 63 ∧ kb.get? id = .ok (some r) := by
  obtain ⟨row, hmem, hread⟩ := exists_of_mem_mapM h hr
  have hrow : row ∈ kb.rows := mem_of_mem_best (mem_of_mem_takeLimit hmem)
  refine ⟨row.1, id_of_readRow hread, hkb.id_lt row hrow, ?_⟩
  rw [get?, hkb.find?_eq_some hrow, Option.mapM_some, hread]
  rfl

end KnowledgeBase

end BotSpec
