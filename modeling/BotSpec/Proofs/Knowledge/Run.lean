import BotSpec.Proofs.Knowledge.Columns

/-!
# Runs of a knowledge base

A run is a list of inserts and of the two ways to read, each with its reply. One step of a run
either leaves the base as it is or adds one row behind the others, whose id and hash no other row
has (`StepCase`), so after any number of steps

* ids and hashes are keys of the rows, and no id is beyond the last one (`Keyed.run`),
* the ids are the ones that inserts gave (`ids_run`),
* a row that was in the base is in it still (`rows_prefix_run`).

An insert of a row with values of the kinds of its columns is refused only for a reason
(`exists_insert_eq_ok_iff`), and what it adds can be read (`readRow_of_newCells`). Hence

> `rows_stay_intact`: what an insert needs, what is found by the id that it gives, and that nothing
> else leaves a trace.
-/

namespace BotSpec

namespace KnowledgeBase

/-! ## Steps -/

/-- What a base is asked to do. -/
inductive Operation where
  | insert (given : GivenCells)
  | get (id : Int)
  | top (limit : Int) (sortBy : Option String)

/-- Whether an operation is an insert. -/
def Operation.isInsert : Operation → Bool
  | insert _ => true
  | _ => false

/-- What is said to an operation. -/
inductive Reply where
  | inserted (id : Int)
  | refused (error : InsertError)
  | row (found : Except Misfit (Option BacktestRow))
  | rows (shown : Except Misfit (List BacktestRow))

/-- The id that a reply gives. -/
def Reply.id? : Reply → Option Int
  | inserted id => some id
  | _ => none

/-- One operation: its reply, and the base after it. -/
def step (kb : KnowledgeBase) : Operation → Reply × KnowledgeBase
  | .insert given =>
    match kb.insert given with
    | .ok (id, kb') => (.inserted id, kb')
    | .error e => (.refused e, kb)
  | .get id => (.row (kb.get? id), kb)
  | .top limit sortBy => (.rows (kb.top limit sortBy), kb)

/-- The base after a run. -/
def run (kb : KnowledgeBase) (ops : List Operation) : KnowledgeBase := ops.foldl (fun kb op => (kb.step op).2) kb

/-- The replies of a run. -/
def replies (kb : KnowledgeBase) : List Operation → List Reply
  | [] => []
  | op :: rest => (kb.step op).1 :: (kb.step op).2.replies rest

theorem run_cons (kb : KnowledgeBase) (op : Operation) (rest : List Operation) :
    kb.run (op :: rest) = (kb.step op).2.run rest := rfl

/-- An insert that succeeds replies with the id and leaves the new base. -/
theorem step_of_insert_eq_ok {kb kb' : KnowledgeBase} {given : GivenCells} {id : Int}
    (h : kb.insert given = .ok (id, kb')) :
    kb.step (.insert given) = (.inserted id, kb') := by
  simp only [step, h]

/-- An insert that fails replies with the reason and leaves the base. -/
theorem step_of_insert_eq_error {kb : KnowledgeBase} {given : GivenCells} {e : InsertError}
    (h : kb.insert given = .error e) : kb.step (.insert given) = (.refused e, kb) := by
  simp only [step, h]

/-- The reply is an id exactly if the insert succeeds. -/
theorem step_eq_inserted_iff {kb : KnowledgeBase} {given : GivenCells} {id : Int} :
    (kb.step (.insert given)).1 = .inserted id ↔ ∃ kb', kb.insert given = .ok (id, kb') := by
  cases hinsert : kb.insert given with
  | error e => simp [step_of_insert_eq_error hinsert]
  | ok result => simp [step_of_insert_eq_ok hinsert, Prod.ext_iff]

/-- All that a step can do to a base. -/
inductive StepCase (kb : KnowledgeBase) (op : Operation) : Prop where
  | same (hreply : (kb.step op).1.id? = none) (h : (kb.step op).2 = kb)
  | added {given : GivenCells} {id : Int} {cells : StoredCells} (hop : op = .insert given)
      (hid : kb.newId given = .ok id) (hcells : newCells given = .ok cells) (hfreshId : ∀ r ∈ kb.rows, r.1 ≠ id)
      (hfreshHash : ∀ r ∈ kb.rows, r.2.paramsHash ≠ cells.paramsHash)
      (h : kb.step op = (.inserted id, ⟨kb.rows ++ [(id, cells)], max kb.lastId id⟩))

/-- **Nothing else can happen**: reading and refused inserts change nothing, and an insert adds one
row behind the others. -/
theorem stepCase (kb : KnowledgeBase) (op : Operation) : StepCase kb op := by
  cases op with
  | get id => exact .same rfl rfl
  | top limit sortBy => exact .same rfl rfl
  | insert given =>
    cases hinsert : kb.insert given with
    | error e =>
      have hstep : kb.step (.insert given) = (.refused e, kb) := step_of_insert_eq_error hinsert
      exact .same (hstep ▸ rfl) (congrArg Prod.snd hstep)
    | ok result =>
      obtain ⟨id, kb'⟩ := result
      obtain ⟨-, hid, cells, hcells, hfreshId, hfreshHash, rfl⟩ := insert_eq_ok_iff.mp hinsert
      exact .added rfl hid hcells hfreshId hfreshHash (step_of_insert_eq_ok hinsert)

/-! ## What a run keeps -/

/-- Ids and hashes are keys of the rows, and the last id is the largest. -/
structure Keyed (kb : KnowledgeBase) : Prop where
  nodup_ids : (kb.rows.map fun r => r.1).Nodup
  nodup_hashes : (kb.rows.map fun r => r.2.paramsHash).Nodup
  id_le_last : ∀ r ∈ kb.rows, r.1 ≤ kb.lastId

/-- An empty base has no keys to clash. -/
theorem keyed_empty : empty.Keyed where
  nodup_ids := List.nodup_nil
  nodup_hashes := List.nodup_nil
  id_le_last := by
    intro r h
    cases h

/-- A step keeps ids and hashes apart, since what it adds has an id and a hash that no row has. -/
theorem Keyed.step {kb : KnowledgeBase} (hkb : kb.Keyed) (op : Operation) : (kb.step op).2.Keyed := by
  cases stepCase kb op with
  | same _ h => rwa [h]
  | @added given id cells _ _ _ hfreshId hfreshHash h =>
    rw [h]
    refine ⟨nodup_map_append_singleton hkb.nodup_ids hfreshId, nodup_map_append_singleton hkb.nodup_hashes hfreshHash, ?_⟩
    intro r hr
    rcases List.mem_append.mp hr with hold | hadded
    · exact le_max_of_le_left (hkb.id_le_last r hold)
    · rw [List.mem_singleton.mp hadded]
      exact le_max_right _ _

theorem Keyed.run {kb : KnowledgeBase} (hkb : kb.Keyed) (ops : List Operation) : (kb.run ops).Keyed := by
  induction ops generalizing kb with
  | nil => exact hkb
  | cons op rest ih => exact ih (hkb.step op)

theorem ids_step (kb : KnowledgeBase) (op : Operation) :
    ((kb.step op).2.rows.map fun r => r.1) = (kb.rows.map fun r => r.1) ++ (kb.step op).1.id?.toList := by
  cases stepCase kb op with
  | same hreply h => rw [hreply, h, Option.toList_none, List.append_nil]
  | added _ _ _ _ _ h =>
    rw [h, List.map_append]
    rfl

/-- **The ids of a base are the ones that its inserts gave**, in the order in which they were given.
-/
theorem ids_run (kb : KnowledgeBase) (ops : List Operation) :
    ((kb.run ops).rows.map fun r => r.1) = (kb.rows.map fun r => r.1) ++ (kb.replies ops).filterMap Reply.id? := by
  induction ops generalizing kb with
  | nil => exact (List.append_nil _).symm
  | cons op rest ih =>
    rw [run_cons, ih, ids_step, List.append_assoc, replies]
    -- only an insert that succeeds gives an id
    cases hid : (kb.step op).1.id? with
    | none => rw [List.filterMap_cons_none hid, Option.toList_none, List.nil_append]
    | some id => rw [List.filterMap_cons_some hid, Option.toList_some, List.singleton_append]

/-- A step leaves the rows where they are. -/
theorem rows_prefix_step (kb : KnowledgeBase) (op : Operation) : kb.rows <+: (kb.step op).2.rows := by
  cases stepCase kb op with
  | same _ h => exact ⟨[], by rw [List.append_nil, h]⟩
  | added _ _ _ _ _ h =>
    rw [h]
    exact List.prefix_append _ _

/-- Rows stay where they are, and new ones come behind them. -/
theorem rows_prefix_run (kb : KnowledgeBase) (ops : List Operation) : kb.rows <+: (kb.run ops).rows := by
  induction ops generalizing kb with
  | nil => exact List.prefix_refl _
  | cons op rest ih => exact (rows_prefix_step kb op).trans (ih _)

/-- **A row is found by its id after any run.** -/
theorem Keyed.get?_run {kb : KnowledgeBase} (hkb : kb.Keyed) {row : Int × StoredCells} (hrow : row ∈ kb.rows)
    {r : BacktestRow} (hread : readRow row = .ok r) (ops : List Operation) : (kb.run ops).get? row.1 = .ok (some r) := by
  have hstill : row ∈ (kb.run ops).rows := (rows_prefix_run kb ops).subset hrow
  rw [get?, find?_eq_some_of_nodup (hkb.run ops).nodup_ids hstill, Option.mapM_some, hread]
  rfl

theorem step_of_not_isInsert (kb : KnowledgeBase) {op : Operation} (h : op.isInsert = false) :
    (kb.step op).2 = kb := by
  cases op with
  | insert given => cases h
  | get id => rfl
  | top limit sortBy => rfl

/-! ## Inserts -/

/-- What is given breaks a constraint: a column that must not be null would be, or the id or the
hash is that of a row. -/
inductive Violates (kb : KnowledgeBase) (given : GivenCells) : Prop where
  | null {c : Column} (hc : c ∈ backtestColumns) (hrequired : c.required = true) (hnull : c.valueIn given = .null)
  | takenId {row : Int × StoredCells} (hrow : row ∈ kb.rows) (hid : givenCell? "id" given = some (.whole row.1))
  | takenHash {row : Int × StoredCells} (hrow : row ∈ kb.rows)
      (hhash : givenCell? "params_hash" given = some row.2.paramsHash.toCell)

/-- An id is given, or one is left. -/
def HasId (kb : KnowledgeBase) (given : GivenCells) : Prop :=
  (∃ n, givenCell? "id" given = some (.whole n)) ∨ kb.lastId < greatestId

section Insert

variable {kb : KnowledgeBase} {given : GivenCells}

theorem newId_of_given {n : Int} (h : givenCell? "id" given = some (.whole n)) : kb.newId given = .ok n := by
  rw [newId, h]
  rfl

/-- Without an id that is given, the next one is taken. -/
theorem newId_of_not_given (h : Typed given) (hnone : ∀ n, givenCell? "id" given ≠ some (.whole n)) :
    kb.newId given = if kb.lastId < greatestId then .ok (kb.lastId + 1) else .error .full := by
  have hnull : (givenCell? "id" given).getD .null = .null := by
    cases hid : givenCell? "id" given with
    | none => rfl
    | some v =>
      rcases h.id v hid with rfl | ⟨n, rfl⟩
      · rfl
      · exact absurd hid (hnone n)
  rw [newId, hnull]
  rfl

/-- A new id is given, or is the one after the last. -/
theorem newId_eq_ok_iff (h : Typed given) {id : Int} :
    kb.newId given = .ok id ↔ givenCell? "id" given = some (.whole id) ∨
      ((∀ n, givenCell? "id" given ≠ some (.whole n)) ∧ kb.lastId < greatestId ∧ id = kb.lastId + 1) := by
  by_cases hgiven : ∃ n, givenCell? "id" given = some (.whole n)
  · obtain ⟨n, hn⟩ := hgiven
    rw [newId_of_given hn, hn]
    simp
  · have hnone : ∀ n, givenCell? "id" given ≠ some (.whole n) := fun n hn => hgiven ⟨n, hn⟩
    rw [newId_of_not_given h hnone]
    split
    next hlast => simp [hnone, hlast, eq_comm]
    next hlast => simp [hnone, hlast]

/-- A row that is inserted breaks no constraint. -/
theorem not_violates_of_insert_eq_ok (h : Typed given) {result : Int × KnowledgeBase}
    (hinsert : kb.insert given = .ok result) : ¬ kb.Violates given := by
  obtain ⟨-, hid, cells, hcells, hfreshId, hfreshHash, -⟩ := insert_eq_ok_iff.mp hinsert
  rintro (⟨hc, hrequired, hnull⟩ | ⟨hrow, hgiven⟩ | ⟨hrow, hhash⟩)
  · exact ne_null_of_newCells hcells hc hrequired ((h.convert_valueIn hc).trans hnull)
  · exact hfreshId _ hrow (Except.ok.inj ((newId_of_given hgiven).symm.trans hid))
  · have heq := Option.some.inj (hhash.symm.trans (givenCell?_hash_of_newCells h hcells))
    exact hfreshHash _ hrow (StoredText.toCell_injective heq)

/-- **Violations are the only reason to refuse a row of known columns**, as long as there are ids. -/
theorem exists_insert_eq_ok_iff (hkb : kb.Keyed) (h : Typed given) :
    (∃ id kb', kb.insert given = .ok (id, kb')) ↔
      unknownColumn? given = none ∧ ¬ kb.Violates given ∧ kb.HasId given := by
  constructor
  · rintro ⟨id, kb', hinsert⟩
    obtain ⟨hunknown, hid, -⟩ := insert_eq_ok_iff.mp hinsert
    refine ⟨hunknown, not_violates_of_insert_eq_ok h hinsert, ?_⟩
    rcases (newId_eq_ok_iff h).mp hid with hgiven | ⟨-, hlast, -⟩
    · exact Or.inl ⟨id, hgiven⟩
    · exact Or.inr hlast
  · rintro ⟨hunknown, hviolates, hid⟩
    obtain ⟨cells, hcells, -⟩ := exists_newCells h fun c hc hrequired hnull => hviolates (.null hc hrequired hnull)
    have hhash : ∀ r ∈ kb.rows, r.2.paramsHash ≠ cells.paramsHash := by
      intro r hr heq
      exact hviolates (.takenHash hr (heq ▸ givenCell?_hash_of_newCells h hcells))
    by_cases hgiven : ∃ n, givenCell? "id" given = some (.whole n)
    · obtain ⟨n, hn⟩ := hgiven
      refine ⟨n, _, insert_eq_ok_iff.mpr ⟨hunknown, newId_of_given hn, cells, hcells, ?_, hhash, rfl⟩⟩
      rintro r hr rfl
      exact hviolates (.takenId hr hn)
    · have hnone : ∀ n, givenCell? "id" given ≠ some (.whole n) := fun n hn => hgiven ⟨n, hn⟩
      have hlast : kb.lastId < greatestId := hid.resolve_left hgiven
      refine ⟨kb.lastId + 1, _, insert_eq_ok_iff.mpr
        ⟨hunknown, (newId_eq_ok_iff h).mpr (.inr ⟨hnone, hlast, rfl⟩), cells, hcells, ?_, hhash, rfl⟩⟩
      -- the next id is beyond all that are in use
      intro r hr heq
      have hle : r.1 ≤ kb.lastId := hkb.id_le_last r hr
      omega

/-- A row that breaks a constraint is refused, and the base stays as it was. -/
theorem exists_step_eq_refused (h : Typed given) (hviolates : kb.Violates given) :
    ∃ e, kb.step (.insert given) = (.refused e, kb) := by
  cases hinsert : kb.insert given with
  | error e => exact ⟨e, step_of_insert_eq_error hinsert⟩
  | ok result => exact absurd hviolates (not_violates_of_insert_eq_ok h hinsert)

/-- **What is inserted is found from then on**, whatever is asked in between. -/
theorem Keyed.exists_get?_run (hkb : kb.Keyed) (h : Typed given) {id : Int} {kb' : KnowledgeBase}
    (hinsert : kb.insert given = .ok (id, kb')) (later : List Operation) :
    ∃ r, (kb.run (.insert given :: later)).get? id = .ok (some r) ∧
      r.toJson = .object (("id", .whole id) :: backtestColumns.map fun c => (c.name, (c.valueIn given).toJson)) := by
  have hstep : kb.step (.insert given) = (.inserted id, kb') := step_of_insert_eq_ok hinsert
  obtain ⟨-, -, cells, hcells, -, -, rfl⟩ := insert_eq_ok_iff.mp hinsert
  have hrow : (id, cells) ∈ (kb.step (.insert given)).2.rows := by simp [hstep]
  obtain ⟨r, hread, hshown⟩ := readRow_of_newCells h hcells id
  exact ⟨r, (hkb.step _).get?_run hrow hread later, hshown⟩

end Insert

/-! ## The answers of a run -/

/-- **Rows stay intact.** After any run on an empty base, ids and hashes are keys, and the ids are
the ones that inserts gave. Of a row with values of the kinds of its columns:

* it is inserted exactly if it names columns of the table, breaks no constraint, and has an id;
* then no row had its id, and whatever is asked from then on, the row of this id has each value that
  was given and the default of each other column;
* if it breaks a constraint, it is refused, and every later reply is what it would have been without
  it.

And so is every reply after an operation that reads. -/
theorem rows_stay_intact (before : List Operation) :
    let kb := empty.run before
    ((kb.rows.map fun r => r.1).Nodup ∧ (kb.rows.map fun r => r.2.paramsHash).Nodup ∧
      (kb.rows.map fun r => r.1) = (empty.replies before).filterMap Reply.id?) ∧
    (∀ given, Typed given →
      ((∃ id, (kb.step (.insert given)).1 = .inserted id) ↔
        unknownColumn? given = none ∧ ¬ kb.Violates given ∧ kb.HasId given) ∧
      (∀ id, (kb.step (.insert given)).1 = .inserted id → kb.get? id = .ok none ∧
        ∀ later, ∃ r, (kb.run (.insert given :: later)).get? id = .ok (some r) ∧
          r.toJson = .object (("id", .whole id) ::
            backtestColumns.map fun c => (c.name, ((givenCell? c.name given).getD c.default).toJson))) ∧
      (kb.Violates given → ∃ e, ∀ later, kb.replies (.insert given :: later) = .refused e :: kb.replies later)) ∧
    ∀ op, op.isInsert = false → ∀ later, kb.replies (op :: later) = (kb.step op).1 :: kb.replies later := by
  intro kb
  have hkb : kb.Keyed := keyed_empty.run before
  refine ⟨⟨hkb.nodup_ids, hkb.nodup_hashes, ids_run empty before⟩, fun given h => ⟨?_, ?_, ?_⟩, ?_⟩
  · rw [← exists_insert_eq_ok_iff hkb h]
    exact exists_congr fun id => step_eq_inserted_iff
  · intro id hreply
    obtain ⟨kb', hinsert⟩ := step_eq_inserted_iff.mp hreply
    obtain ⟨-, -, -, -, hfresh, -⟩ := insert_eq_ok_iff.mp hinsert
    exact ⟨get?_eq_none_iff.mpr hfresh, hkb.exists_get?_run h hinsert⟩
  · intro hviolates
    obtain ⟨e, hstep⟩ := exists_step_eq_refused h hviolates
    exact ⟨e, fun later => by rw [replies, hstep]⟩
  · intro op hop later
    rw [replies, step_of_not_isInsert kb hop]

/-- A row that gives what it must, the same row again, and a look at the list: the first row is
found as it was given, and the second one is as if it had never been tried. -/
theorem rows_stay_intact_twice :
    let given : GivenCells :=
      [("params_hash", .text "9f2c"), ("strategy_type", .text "rsi"), ("strategy_name", .text "RSI 14"),
        ("strategy_params", .text "\x7b\x7d"), ("symbol", .text "BTC"), ("days", .whole 30),
        ("sizing_mode", .text "fixed"), ("net_pnl", .text "12.5")]
    Typed given ∧ (empty.step (.insert given)).1 = .inserted 1 ∧ (empty.run [.insert given]).Violates given ∧
      (∃ r members, (empty.run [.insert given, .insert given, .top 20 none]).get? 1 = .ok (some r) ∧
        r.toJson = .object members ∧ Json.lookup "days" members = some (.whole 30) ∧
        Json.lookup "net_pnl" members = some (.string "12.5") ∧ Json.lookup "win_rate" members = some (.string "0") ∧
        Json.lookup "hit_rate" members = some .null) ∧
      ∃ e, (empty.run [.insert given]).replies [.insert given, .get 1] =
        .refused e :: (empty.run [.insert given]).replies [.get 1] := by
  intro given
  have hfits : ∀ c ∈ backtestColumns, ∀ v ∈ givenCell? c.name given, c.Fits v := by decide +kernel
  have htyped : Typed given := ⟨hfits, nofun⟩
  obtain ⟨-, hinserts, -⟩ := rows_stay_intact []
  have hinserted : (empty.step (.insert given)).1 = .inserted 1 := rfl
  obtain ⟨-, hkept⟩ := (hinserts given htyped).2.1 1 hinserted
  obtain ⟨r, hget, hshown⟩ := hkept [.insert given, .top 20 none]
  obtain ⟨cells, hrows, hhash⟩ :
      ∃ cells, (empty.run [.insert given]).rows = [(1, cells)] ∧ cells.paramsHash = .text "9f2c" := ⟨_, rfl, rfl⟩
  have hrow : (1, cells) ∈ (empty.run [.insert given]).rows := hrows ▸ List.mem_singleton_self _
  have hviolates : (empty.run [.insert given]).Violates given := .takenHash hrow (hhash ▸ rfl)
  obtain ⟨e, hrefused⟩ := ((rows_stay_intact [.insert given]).2.1 given htyped).2.2 hviolates
  exact ⟨htyped, hinserted, hviolates, ⟨r, _, hget, hshown, rfl, rfl, rfl, rfl⟩, e, hrefused [.get 1]⟩

end KnowledgeBase

end BotSpec
