import BotSpec.Proofs.Json.Members
import BotSpec.Proofs.Knowledge.Table
import BotSpec.Service.Answer

/-!
# The two ways to ingest a row

A row of the knowledge base becomes a strategy record in two ways: `StrategyRecord.ofRow` converts
its columns one by one, and `StrategyRecord.ofJson` reads the JSON that the row is written as, where
every member is taken as it comes. The two were written apart, for texts and counts that have types
and for values that have none. They agree:

> `ofJson_toJson`: the record in a row's own JSON is the record of the row, if its parameters and
> its type are not blank.

What carries the proof is that the members of the JSON are the columns in order, each under its own
name: so `lookup_members` finds a column by its index, and each field is left with one small
agreement (`ofJson?_ofOption`, `countOfJson?_ofOption`, `readId_ofOption`).

Blank parameters are the exception for a reason: a row without parameters has none, while a record
whose parameters are a blank text is malformed.
-/

namespace BotSpec

/-! ## Members and columns -/

namespace BacktestRow

/-- The members that a row is written as. -/
def members (r : BacktestRow) : List (String × Json) :=
  match r.toJson with
  | .object members => members
  | _ => []

theorem columns_nodup : columns.Nodup := by decide +kernel

/-- A column is found in the JSON of its row under its name. -/
theorem lookup_members (r : BacktestRow) (i : Nat) {key : String} {v : Json}
    (h : r.members[i]? = some (key, v)) : Json.lookup key r.members = some v :=
  Json.lookup_eq_of_mem (show columns.Nodup from columns_nodup) (List.mem_of_getElem? h)

/-- Neither the parameters nor the type of a row are blank. -/
structure Filled (r : BacktestRow) : Prop where
  params : Text.isAllBlank r.cells.strategyParams = false
  type : Text.isAllBlank r.cells.strategyType = false

end BacktestRow

/-! ## Fields -/

/-- A decimal in JSON is read as its text is. -/
theorem Decimal.ofJson?_string (text : String) : ofJson? (.string text) = ofText? text := rfl

/-- An absent statistic is written as null, and null is no statistic. -/
theorem Decimal.ofJson?_ofOption (text : Option String) :
    ofJson? (Json.ofOption Json.string text) = text.bind ofText? := by
  cases text with
  | none => rfl
  | some text => rw [Json.ofOption, ofJson?_string, Option.bind_some]

theorem countOfJson?_whole (n : Int) : countOfJson? (.whole n) = countOf? n := rfl

theorem countOfJson?_ofOption (n : Option Int) :
    countOfJson? (Json.ofOption Json.whole n) = n.bind countOf? := by
  cases n with
  | none => rfl
  | some n => rw [Json.ofOption, countOfJson?_whole, Option.bind_some]

/-- An id that fits is read back, and so is none. -/
theorem readId_ofOption {id : Option Int} (h : ∀ n, id = some n → n < twoPow 63) :
    readId (some (Json.ofOption Json.whole id)) = .ok id := by
  cases id with
  | none => rw [Json.ofOption, readId]
  | some n => simp only [Json.ofOption, readId, if_pos (h n rfl)]

/-- The twenty statistics of a row, read from its JSON. -/
theorem BacktestStats.ofMembers_members (r : BacktestRow) : ofMembers r.members = r.cells.stats := by
  have column := r.lookup_members
  simp only [ofMembers, column 8 rfl, column 9 rfl, column 10 rfl, column 11 rfl, column 12 rfl,
    column 13 rfl, column 14 rfl, column 15 rfl, column 16 rfl, column 17 rfl, column 18 rfl,
    column 19 rfl, column 22 rfl, column 23 rfl, column 24 rfl, column 25 rfl, column 26 rfl,
    column 27 rfl, column 28 rfl, column 29 rfl, Option.bind_some, Decimal.ofJson?_ofOption,
    countOfJson?_ofOption, Decimal.ofJson?_string, countOfJson?_whole, BacktestCells.stats,
    storedDecimal, storedOrZero, storedOptional, storedCount]

/-- The record in a row's JSON is the record of the row. -/
theorem StrategyRecord.ofJson_toJson {r : BacktestRow} (hr : r.Filled)
    (hid : ∀ n, r.id = some n → n < twoPow 63) : ofJson r.toJson = .ok (.ofRow r) := by
  have column := r.lookup_members
  show ofMembers r.members = .ok (.ofRow r)
  simp only [ofMembers, column 0 rfl, readId_ofOption hid, column 2 rfl, column 3 rfl, column 4 rfl,
    column 5 rfl, column 6 rfl, column 7 rfl, BacktestStats.ofMembers_members, readText, bind,
    Except.bind, pure, Except.pure, Option.bind_some, Option.getD_some, Option.map_some]
  -- a type that is not blank leaves no part to the one in the parameters, nor blankness to the parameters
  simp only [Option.filter, hr.type, hr.params, Bool.not_false, if_true, Option.some_or,
    Option.getD_some, countOfJson?_whole, ofRow, BacktestCells.readParams, storedCount,
    Bool.false_eq_true, if_false]

/-! ## Answers -/

namespace Service

/-- The specification of a row is the one of its JSON, whatever the mode and the client's tags are. -/
theorem answer_byId_eq_render {s : Service} {kb : KnowledgeBase} (hbase : s.base = some kb) {id : Int}
    (hid : id < twoPow 63) {r : BacktestRow} (hget : kb.get? id = .ok (some r)) (hr : r.Filled)
    (q : RenderQuery) : s.answer (.byId id q) = s.answer (.render r.toJson q) := by
  have hrecord : StrategyRecord.ofJson r.toJson = .ok (.ofRow r) := by
    apply StrategyRecord.ofJson_toJson hr
    intro n hn
    rw [KnowledgeBase.id_of_get? hget] at hn
    cases hn
    exact hid
  simp only [answer, answerById, answerRender, hbase, hget, hrecord]

/-- **The two ingestion paths agree.** The record of a row is the record in the row's JSON; so the
service gives the same answer to who asks for a row by its id and to who sends the row's JSON, also
as it is listed among the best. -/
theorem rows_agree_with_their_json :
    (∀ r : BacktestRow, r.Filled → (∀ n, r.id = some n → n < twoPow 63) →
      StrategyRecord.ofJson r.toJson = .ok (.ofRow r)) ∧
    (∀ (s : Service) (kb : KnowledgeBase) (id : Int) (r : BacktestRow), s.base = some kb →
      id < twoPow 63 → kb.get? id = .ok (some r) → r.Filled →
      ∀ q, s.answer (.byId id q) = s.answer (.render r.toJson q)) ∧
    ∀ (s : Service) (kb : KnowledgeBase) (limit : Option Int) (sortBy : Option String)
      (rows : List BacktestRow), s.base = some kb → kb.Sound →
      kb.top (topLimit limit) sortBy = .ok rows →
      s.answer (.top limit sortBy) = .ok (listing (rows.map BacktestRow.toJson)) ∧
      ∀ r ∈ rows, r.Filled → ∃ id, r.id = some id ∧ kb.get? id = .ok (some r) ∧
        ∀ q, s.answer (.byId id q) = s.answer (.render r.toJson q) := by
  refine ⟨fun r hr hid => StrategyRecord.ofJson_toJson hr hid, ?_, ?_⟩
  · intro s kb id r hbase hid hget hr q
    exact answer_byId_eq_render hbase hid hget hr q
  · intro s kb limit sortBy rows hbase hkb htop
    constructor
    · simp only [answer, answerTop, hbase, htop]
    · intro r hmem hr
      obtain ⟨id, hrid, hid, hget⟩ := KnowledgeBase.get?_of_mem_top hkb htop hmem
      exact ⟨id, hrid, hget, fun q => answer_byId_eq_render hbase hid hget hr q⟩

/-- A base with one row, filled by an insert: the row is listed, and both paths agree on it. -/
theorem rows_agree_with_their_json_single :
    let given : GivenCells :=
      [("params_hash", .text "9f2c"), ("strategy_type", .text "rsi"), ("strategy_name", .text "RSI 14"),
        ("strategy_params", .text "\x7b\"period\": 14\x7d"), ("symbol", .text "BTC"), ("days", .text "30"),
        ("sizing_mode", .text "fixed"), ("win_rate", .text " 61.5 "), ("total_trades", .whole (-4))]
    ∃ kb r, KnowledgeBase.empty.insert given = .ok (1, kb) ∧ kb.top (topLimit none) none = .ok [r] ∧
      r.id = some 1 ∧ StrategyRecord.ofJson r.toJson = .ok (.ofRow r) ∧
      ∀ q, (Service.mk (some kb)).answer (.byId 1 q) = (Service.mk (some kb)).answer (.render r.toJson q) := by
  intro given
  obtain ⟨cells, r, hinsert, hread, hfilled⟩ : ∃ cells r,
      KnowledgeBase.empty.insert given = .ok (1, ⟨[(1, cells)], 1⟩) ∧
      KnowledgeBase.readRow (1, cells) = .ok r ∧ r.Filled :=
    ⟨_, _, rfl, rfl, by decide +kernel, by decide +kernel⟩
  have hsound : KnowledgeBase.Sound ⟨[(1, cells)], 1⟩ := by
    refine KnowledgeBase.Sound.empty.insert ?_ hinsert
    intro n h
    cases h
  have htop : KnowledgeBase.top ⟨[(1, cells)], 1⟩ (topLimit none) none = .ok [r] := by
    simp only [KnowledgeBase.top, KnowledgeBase.best, List.mergeSort_singleton]
    show [(1, cells)].mapM KnowledgeBase.readRow = .ok [r]
    rw [List.mapM_cons, hread]
    rfl
  obtain ⟨hrecord, -, hlisted⟩ := rows_agree_with_their_json
  obtain ⟨-, hrows⟩ := hlisted ⟨some ⟨[(1, cells)], 1⟩⟩ _ none none [r] rfl hsound htop
  obtain ⟨id, hid, hget, hanswers⟩ := hrows r List.mem_cons_self hfilled
  have hone : r.id = some 1 := KnowledgeBase.id_of_readRow hread
  rw [hone] at hid
  cases hid
  refine ⟨_, r, hinsert, htop, hone, hrecord r hfilled ?_, hanswers⟩
  intro n hn
  rw [hone] at hn
  cases hn
  decide

end Service

end BotSpec
