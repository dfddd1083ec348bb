import BotSpec.Proofs.Command.Agreement
import BotSpec.Proofs.Knowledge.Table
import BotSpec.Proofs.Text.Listed

/-!
# Tags of documents

A document is answered with a tag, its digest in quotes, and a client that lists this tag is told to
use what it has. So the tag has to come through a list: nothing in it is a comma, a blank or a
character that a header cannot have (`mem_etag`), and it is found wherever it stands and whatever
else is listed (`hasTag_iff`).

Both requests for a specification end with a record, the one that is sent or the one of a row
(`Specifies`), and nothing but the record, the mode and the header decides from there.

> `tags_decide_the_answer`: what is answered to each header in each mode, when a tag that was given
> is recognized, and which of several faults of a request counts.
-/

namespace BotSpec

namespace Digest

/-- The sixteen hexadecimal digits. -/
def hexDigits : List Char := "0123456789abcdef".toList

/-- A digest is written in sixteen characters. -/
theorem hexDigit_mem {n : Nat} (h : n < 16) : hexDigit n ∈ hexDigits := by
  have hall : ∀ n < 16, hexDigit n ∈ hexDigits := by decide +kernel
  exact hall n h

/-- A digest is written in hexadecimal digits. -/
theorem mem_sha256Hex {text : String} {c : Char} (h : c ∈ (sha256Hex text).toList) : c ∈ hexDigits := by
  rw [sha256Hex, String.toList_ofList] at h
  obtain ⟨word, -, hc⟩ := List.mem_flatMap.mp h
  obtain ⟨i, -, rfl⟩ := List.mem_map.mp hc
  exact hexDigit_mem (Nat.mod_lt _ (by decide))

end Digest

namespace Service

open Text (Listed Trims isBlank)

/-! ## Headers -/

/-- A character that can be read in a header: visible ASCII, the space and the tab. -/
def Readable (c : Char) : Prop := c = '\t' ∨ (' ' ≤ c ∧ c ≤ '~')

instance (c : Char) : Decidable (Readable c) := inferInstanceAs (Decidable (_ ∨ _))

theorem mem_etag {text : String} {c : Char} (h : c ∈ (etag text).toList) : c ∈ '"' :: Digest.hexDigits := by
  simp only [etag, String.toList_append, List.mem_append] at h
  rcases h with (h | h) | h
  · rw [List.mem_singleton.mp h]
    exact List.mem_cons_self
  · exact List.mem_cons_of_mem _ (Digest.mem_sha256Hex h)
  · rw [List.mem_singleton.mp h]
    exact List.mem_cons_self

theorem readable_of_mem_etag {text : String} {c : Char} (h : c ∈ (etag text).toList) : Readable c := by
  have hall : (('"' :: Digest.hexDigits).all fun c => Readable c) = true := by decide +kernel
  exact of_decide_eq_true (List.all_eq_true.mp hall c (mem_etag h))

theorem not_blank_of_mem_etag {text : String} {c : Char} (h : c ∈ (etag text).toList) : isBlank c = false := by
  have hall : (('"' :: Digest.hexDigits).all fun c => !isBlank c) = true := by decide +kernel
  exact Bool.not_eq_true' _ |>.mp (List.all_eq_true.mp hall c (mem_etag h))

theorem comma_not_mem_etag (text : String) : ',' ∉ (etag text).toList := by
  intro h
  have hnot : ',' ∉ '"' :: Digest.hexDigits := by decide +kernel
  exact hnot (mem_etag h)

/-- A header can be read and lists the tag, or a star for any tag. -/
def Lists (ifNoneMatch : Option String) (tag : String) : Prop :=
  ∃ header, ifNoneMatch = some header ∧ (∀ c ∈ header.toList, Readable c) ∧
    (Listed ',' header.toList "*".toList ∨ Listed ',' header.toList tag.toList)

/-- A header is read exactly if it has nothing but readable characters. -/
theorem isReadable_iff {header : String} : isReadable header = true ↔ ∀ c ∈ header.toList, Readable c := by
  simp only [isReadable, List.all_eq_true, Bool.or_eq_true, Bool.and_eq_true, decide_eq_true_eq, Readable]

/-- The elements of a header are what is listed between its commas, without blanks around. -/
theorem mem_headerElements_iff {header element : String} (h : ',' ∉ element.toList) :
    element ∈ headerElements header ↔ Listed ',' header.toList element.toList := by
  rw [Text.listed_iff (by decide) h, headerElements, List.mem_map]
  simp only [← String.toList_inj, String.toList_ofList]

/-- A tag is recognized wherever it is listed. -/
theorem hasTag_iff {ifNoneMatch : Option String} {text : String} :
    hasTag ifNoneMatch (etag text) = true ↔ Lists ifNoneMatch (etag text) := by
  have hstar : ',' ∉ "*".toList := by decide
  cases ifNoneMatch with
  | none => exact ⟨nofun, nofun⟩
  | some header =>
    simp only [hasTag, Bool.and_eq_true, isReadable_iff, List.any_eq_true, Bool.or_eq_true, decide_eq_true_eq]
    constructor
    · rintro ⟨hread, element, hmem, rfl | rfl⟩
      · exact ⟨header, rfl, hread, .inr ((mem_headerElements_iff (comma_not_mem_etag text)).mp hmem)⟩
      · exact ⟨header, rfl, hread, .inl ((mem_headerElements_iff hstar).mp hmem)⟩
    · rintro ⟨_, ⟨⟩, hread, hlisted | hlisted⟩
      · exact ⟨hread, "*", (mem_headerElements_iff hstar).mpr hlisted, .inr rfl⟩
      · exact ⟨hread, etag text, (mem_headerElements_iff (comma_not_mem_etag text)).mpr hlisted, .inl rfl⟩

/-- A header with a tag in it: spaces and tabs around the tag, commas, and before and behind it any
texts that can be read. -/
def Repeats (tag header : String) : Prop :=
  ∃ before left right after, header.toList = [','].intercalate (before ++ (left ++ tag.toList ++ right) :: after) ∧
    (∀ c ∈ left ++ right, c = ' ' ∨ c = '\t') ∧ ∀ other ∈ before ++ after, ∀ c ∈ other, Readable c

/-- The characters of a list are those of its texts and the mark. -/
theorem mem_intercalate {mark c : Char} {texts : List (List Char)} (h : c ∈ [mark].intercalate texts) :
    c = mark ∨ ∃ text ∈ texts, c ∈ text := by
  induction texts with
  | nil => cases h
  | cons first rest ih =>
    cases rest with
    | nil =>
      rw [List.intercalate_singleton] at h
      exact Or.inr ⟨first, List.mem_cons_self, h⟩
    | cons second others =>
      rw [List.intercalate_cons_cons, List.mem_append, List.mem_append, List.mem_singleton] at h
      rcases h with (h | h) | h
      · exact Or.inr ⟨first, List.mem_cons_self, h⟩
      · exact Or.inl h
      · rcases ih h with h | ⟨text, htext, h⟩
        · exact Or.inl h
        · exact Or.inr ⟨text, List.mem_cons_of_mem _ htext, h⟩

/-- **A tag comes through every list.** -/
theorem lists_of_repeats {text header : String} (h : Repeats (etag text) header) :
    Lists (some header) (etag text) := by
  obtain ⟨before, left, right, after, hheader, hspaces, hothers⟩ := h
  have hblank : ∀ c ∈ left ++ right, isBlank c = true := by
    intro c hc
    rcases hspaces c hc with rfl | rfl <;> decide
  refine ⟨header, rfl, ?_, .inr ⟨_, hheader, left ++ (etag text).toList ++ right, by simp, ?_⟩⟩
  · intro c hc
    rw [hheader] at hc
    rcases mem_intercalate hc with rfl | ⟨other, hother, hc⟩
    · exact Or.inr (by decide)
    · rcases List.mem_append.mp hother with hother | hother
      · exact hothers other (List.mem_append_left _ hother) c hc
      rcases List.mem_cons.mp hother with rfl | hother
      · simp only [List.mem_append] at hc
        rcases hc with (hc | hc) | hc
        · exact (hspaces c (List.mem_append_left _ hc)).elim (fun h => h ▸ Or.inr (by decide)) Or.inl
        · exact readable_of_mem_etag hc
        · exact (hspaces c (List.mem_append_right _ hc)).elim (fun h => h ▸ Or.inr (by decide)) Or.inl
      · exact hothers other (List.mem_append_right _ hother) c hc
  · exact Trims.of_no_blank (fun c hc => not_blank_of_mem_etag hc) hblank

/-! ## Specifications -/

/-- A request for the specification of a record: the record is sent, or it is that of a row. -/
inductive Specifies (s : Service) (q : RenderQuery) (r : StrategyRecord) : Request → Prop where
  | sent {body : Json} (hrecord : StrategyRecord.ofJson body = .ok r) : Specifies s q r (.render body q)
  | kept {kb : KnowledgeBase} {id : Int} {row : BacktestRow} (hbase : s.base = some kb)
      (hrow : kb.get? id = .ok (some row)) (hrecord : StrategyRecord.ofRow row = r) : Specifies s q r (.byId id q)

/-- A request says how it is to be answered. -/
theorem Specifies.query_eq {s : Service} {q q' : RenderQuery} {r r' : StrategyRecord} {request : Request}
    (h : s.Specifies q r request) (h' : s.Specifies q' r' request) : q = q' := by
  cases h <;> cases h' <;> rfl

/-- Behind a record, both requests go the same way. -/
theorem Specifies.answer_eq {s : Service} {q : RenderQuery} {r : StrategyRecord} {request : Request}
    (h : s.Specifies q r request) {mode : RenderMode} (hmode : RenderMode.ofRequest q.mode = .ok mode) :
    s.answer request = answerRecord r mode q.ifNoneMatch := by
  cases h with
  | sent hrecord => exact answer_render hmode hrecord
  | kept hbase hrow hrecord => simp only [answer, answerById, hmode, hbase, hrow, hrecord]

/-- The body of an answer with a specification. -/
def fullBody (r : StrategyRecord) (rendered : Rendered) : Json :=
  .object
    [("success", .bool true), ("strategy_name", .string r.name), ("data", rendered.toJson),
      ("diagnostics", .array (r.diagnostics.map Diagnostic.toJson))]

/-- The document and the table of a record. -/
theorem exists_document_table (r : StrategyRecord) : ∃ text table,
    Brief.render ⟨r, .standard⟩ .document = .ok (.document text) ∧
    Brief.render ⟨r, .standard⟩ .table = .ok (.table table) := by
  obtain ⟨document, hdocument⟩ := Brief.exists_render_standard r .document
  obtain ⟨table, htable⟩ := Brief.exists_render_standard r .table
  obtain ⟨d, -, hd⟩ := exists_of_bind_eq_ok hdocument
  obtain ⟨t, -, ht⟩ := exists_of_bind_eq_ok htable
  cases hd
  cases ht
  exact ⟨d.text, t, hdocument, htable⟩

section Record

variable {r : StrategyRecord} {text : String} {ifNoneMatch : Option String}

/-- A client that lists the tag of the document is told to use what it has. -/
theorem answerRecord_of_lists (htext : Brief.render ⟨r, .standard⟩ .document = .ok (.document text))
    (h : Lists ifNoneMatch (etag text)) : answerRecord r .document ifNoneMatch = .ok ⟨304, none, none⟩ := by
  rw [answerRecord, bind_of_eq_ok htext]
  simp only [hasTag_iff.mpr h, if_true]
  rfl

/-- Any other client gets the document, with its tag. -/
theorem answerRecord_of_not_lists (htext : Brief.render ⟨r, .standard⟩ .document = .ok (.document text))
    (h : ¬ Lists ifNoneMatch (etag text)) :
    answerRecord r .document ifNoneMatch = .ok ⟨200, some (etag text), some (fullBody r (.document text))⟩ := by
  rw [answerRecord, bind_of_eq_ok htext]
  simp only [mt hasTag_iff.mp h]
  rfl

/-- A table is given in full whatever is listed, and has no tag. -/
theorem answerRecord_table {table : SpecTable}
    (htable : Brief.render ⟨r, .standard⟩ .table = .ok (.table table)) :
    answerRecord r .table ifNoneMatch = .ok ⟨200, none, some (fullBody r (.table table))⟩ := by
  rw [answerRecord, bind_of_eq_ok htable]
  rfl

end Record

/-- In the mode of tables there is no tag, and in that of documents the answer is full or says that
there is nothing new. -/
theorem exists_answerRecord_eq (r : StrategyRecord) (mode : RenderMode) (ifNoneMatch : Option String) :
    ∃ response, answerRecord r mode ifNoneMatch = .ok response ∧ (response.status = 200 ∨ response.status = 304) ∧
      (mode = .table → response.status = 200 ∧ response.etag = none) := by
  obtain ⟨text, table, htext, htable⟩ := exists_document_table r
  cases mode with
  | table => exact ⟨_, answerRecord_table htable, .inl rfl, fun _ => ⟨rfl, rfl⟩⟩
  | document =>
    by_cases hlists : Lists ifNoneMatch (etag text)
    · exact ⟨_, answerRecord_of_lists htext hlists, .inr rfl, nofun⟩
    · exact ⟨_, answerRecord_of_not_lists htext hlists, .inl rfl, nofun⟩

/-! ## Requests by id -/

/-- What can come of a request by id. Of several faults the first counts. -/
inductive ByIdCase (s : Service) (id : Int) (q : RenderQuery) : Prop where
  | badMode {unknown : UnknownMode} (hmode : RenderMode.ofRequest q.mode = .error unknown)
      (hanswer : s.answer (.byId id q) = .ok (.failure 400 unknown.message))
  | noBase {mode : RenderMode} (hmode : RenderMode.ofRequest q.mode = .ok mode) (hbase : s.base = none)
      (hanswer : s.answer (.byId id q) = .ok (.failure 503 noBaseMessage))
  | unreadable {mode : RenderMode} {kb : KnowledgeBase} {misfit : Misfit} {message : String}
      (hmode : RenderMode.ofRequest q.mode = .ok mode) (hbase : s.base = some kb) (hrow : kb.get? id = .error misfit)
      (hanswer : s.answer (.byId id q) = .ok (.failure 500 message))
  | unknownId {mode : RenderMode} {kb : KnowledgeBase} (hmode : RenderMode.ofRequest q.mode = .ok mode)
      (hbase : s.base = some kb) (hrow : kb.get? id = .ok none)
      (hanswer : s.answer (.byId id q) = .ok (.failure 404 (noRowMessage id)))
  | found {mode : RenderMode} {kb : KnowledgeBase} {row : BacktestRow} (hmode : RenderMode.ofRequest q.mode = .ok mode)
      (hbase : s.base = some kb) (hrow : kb.get? id = .ok (some row))

/-- There is no other way to answer for an id. -/
theorem byIdCase (s : Service) (id : Int) (q : RenderQuery) : s.ByIdCase id q := by
  cases hmode : RenderMode.ofRequest q.mode with
  | error unknown => exact .badMode hmode (by simp only [answer, answerById, hmode])
  | ok mode =>
    cases hbase : s.base with
    | none => exact .noBase hmode hbase (by simp only [answer, answerById, hmode, hbase])
    | some kb =>
      cases hrow : kb.get? id with
      | error misfit => exact .unreadable hmode hbase hrow (by simp only [answer, answerById, hmode, hbase, hrow]; rfl)
      | ok found =>
        cases found with
        | none => exact .unknownId hmode hbase hrow (by simp only [answer, answerById, hmode, hbase, hrow])
        | some row => exact .found hmode hbase hrow

/-- **The mode counts before the knowledge base, and the knowledge base before the id.** -/
theorem answer_byId_status (s : Service) (id : Int) (q : RenderQuery) :
    ∃ response, s.answer (.byId id q) = .ok response ∧
      (response.status = 400 ↔ ∃ unknown, RenderMode.ofRequest q.mode = .error unknown) ∧
      (response.status = 503 ↔ (∃ mode, RenderMode.ofRequest q.mode = .ok mode) ∧ s.base = none) ∧
      (response.status = 404 ↔ (∃ mode, RenderMode.ofRequest q.mode = .ok mode) ∧
        ∃ kb, s.base = some kb ∧ ∀ row ∈ kb.rows, row.1 ≠ id) := by
  simp only [← KnowledgeBase.get?_eq_none_iff]
  cases s.byIdCase id q with
  | badMode hmode hanswer => exact ⟨_, hanswer, by simp [Response.failure, hmode]⟩
  | noBase hmode hbase hanswer => exact ⟨_, hanswer, by simp [Response.failure, hmode, hbase]⟩
  | unreadable hmode hbase hrow hanswer => exact ⟨_, hanswer, by simp [Response.failure, hmode, hbase, hrow]⟩
  | unknownId hmode hbase hrow hanswer => exact ⟨_, hanswer, by simp [Response.failure, hmode, hbase, hrow]⟩
  | @found mode _ _ hmode hbase hrow =>
    have hspecifies : s.Specifies q _ (.byId id q) := .kept hbase hrow rfl
    obtain ⟨response, hresponse, hstatus, -⟩ := exists_answerRecord_eq _ mode q.ifNoneMatch
    refine ⟨response, (hspecifies.answer_eq hmode).trans hresponse, ?_⟩
    rcases hstatus with hstatus | hstatus <;> simp [hstatus, hmode, hbase, hrow]

/-! ## Every request -/

/-- An answer that has a tag, or tells the client to use what it has. -/
def Tagged (response : Response) : Prop := response.status = 304 ∨ response.etag ≠ none

theorem not_tagged {response : Response} (hstatus : response.status ≠ 304) (htag : response.etag = none) :
    ¬ Tagged response :=
  fun h => h.elim hstatus fun h => h htag

theorem not_tagged_failure {status : Nat} (h : status ≠ 304) (message : String) :
    ¬ Tagged (.failure status message) :=
  not_tagged h rfl

theorem not_tagged_of_failure {s : Service} {request : Request} {response : Response} {status : Nat} {message : String}
    (hanswer : s.answer request = .ok response) (hfailure : s.answer request = .ok (.failure status message))
    (h : status ≠ 304) : ¬ Tagged response := by
  cases hfailure.symm.trans hanswer
  exact not_tagged_failure h message

/-- Behind a record, only a document has a tag. -/
theorem Specifies.mode_of_tagged {s : Service} {q : RenderQuery} {r : StrategyRecord} {request : Request}
    (h : s.Specifies q r request) {mode : RenderMode} (hmode : RenderMode.ofRequest q.mode = .ok mode) {response : Response}
    (hanswer : s.answer request = .ok response) (htagged : Tagged response) :
    RenderMode.ofRequest q.mode = .ok .document := by
  obtain ⟨_, hresponse, -, htable⟩ := exists_answerRecord_eq r mode q.ifNoneMatch
  rw [h.answer_eq hmode, hresponse] at hanswer
  cases hanswer
  cases mode with
  | document => exact hmode
  | table =>
    obtain ⟨hstatus, htag⟩ := htable rfl
    exact absurd htagged (not_tagged (by rw [hstatus]; decide) htag)

/-- **Only the answer with a document has a tag**, whatever is asked for and however the request
fails. -/
theorem specifies_of_tagged {s : Service} {request : Request} {response : Response}
    (hanswer : s.answer request = .ok response) (htagged : Tagged response) :
    ∃ q r, s.Specifies q r request ∧ RenderMode.ofRequest q.mode = .ok .document := by
  -- all requests but the two for a specification answer without a tag
  cases request with
  | health =>
    cases hanswer
    exact absurd htagged (not_tagged (show 200 ≠ 304 by decide) rfl)
  | variants =>
    cases hanswer
    exact absurd htagged (not_tagged (show 200 ≠ 304 by decide) rfl)
  | top limit sortBy =>
    simp only [answer, answerTop] at hanswer
    refine absurd htagged ?_
    split at hanswer
    · cases hanswer
      exact not_tagged_failure (by decide) _
    · split at hanswer <;> cases hanswer
      · exact not_tagged (show 200 ≠ 304 by decide) rfl
      · exact not_tagged_failure (by decide) _
  | render body q =>
    -- of what is asked in these the faults come first, and none of them has a tag either
    cases hmode : RenderMode.ofRequest q.mode with
    | error unknown =>
      have hfailure : s.answer (.render body q) = .ok (.failure 400 unknown.message) := by
        simp only [answer, answerRender, hmode]
      exact absurd htagged (not_tagged_of_failure hanswer hfailure (by decide))
    | ok mode =>
      cases hrecord : StrategyRecord.ofJson body with
      | error e =>
        have hfailure : s.answer (.render body q) = .ok (.failure 400 badRecordMessage) := by
          simp only [answer, answerRender, hmode, hrecord]
        exact absurd htagged (not_tagged_of_failure hanswer hfailure (by decide))
      | ok r =>
        have hspecifies : s.Specifies q r (.render body q) := .sent hrecord
        exact ⟨q, r, hspecifies, hspecifies.mode_of_tagged hmode hanswer htagged⟩
  | byId id q =>
    cases s.byIdCase id q with
    | badMode hmode h => exact absurd htagged (not_tagged_of_failure hanswer h (by decide))
    | noBase hmode hbase h => exact absurd htagged (not_tagged_of_failure hanswer h (by decide))
    | unreadable hmode hbase hrow h => exact absurd htagged (not_tagged_of_failure hanswer h (by decide))
    | unknownId hmode hbase hrow h => exact absurd htagged (not_tagged_of_failure hanswer h (by decide))
    | found hmode hbase hrow =>
      have hspecifies : s.Specifies q _ (.byId id q) := .kept hbase hrow rfl
      exact ⟨q, _, hspecifies, hspecifies.mode_of_tagged hmode hanswer htagged⟩

/-- **Tags decide the answer.** For every record and every header: in the mode of documents the
client is told that there is nothing new if its header can be read and lists a star or the tag of
the record's document, and otherwise gets the document with its tag; in the mode of tables there is
no tag, whatever the header says. So a tag that was given is recognized for the same record in every
list, and a client that is told that there is nothing new without a star has listed the digest of
the current document. Nothing else has a tag, and of the faults of a request by id the first counts:
the mode, then the knowledge base, then the id. -/
theorem tags_decide_the_answer :
    (∀ r : StrategyRecord, ∃ text tag table, tag = "\"" ++ Digest.sha256Hex text ++ "\"" ∧
      Brief.render ⟨r, .standard⟩ .document = .ok (.document text) ∧
      Brief.render ⟨r, .standard⟩ .table = .ok (.table table) ∧
      ∀ (s : Service) (q : RenderQuery) (request : Request), s.Specifies q r request →
        (RenderMode.ofRequest q.mode = .ok .document →
          (s.answer request = .ok ⟨304, none, none⟩ ↔ Lists q.ifNoneMatch tag) ∧
          (¬ Lists q.ifNoneMatch tag →
            s.answer request = .ok ⟨200, some tag, some (fullBody r (.document text))⟩) ∧
          ∀ header, q.ifNoneMatch = some header → s.answer request = .ok ⟨304, none, none⟩ →
            ¬ Listed ',' header.toList "*".toList → Listed ',' header.toList tag.toList) ∧
        (RenderMode.ofRequest q.mode = .ok .table →
          s.answer request = .ok ⟨200, none, some (fullBody r (.table table))⟩)) ∧
    (∀ (r : StrategyRecord) (s s' : Service) (q q' : RenderQuery) (request request' : Request) (tag : String)
      (body : Option Json), s.Specifies q r request → s.answer request = .ok ⟨200, some tag, body⟩ →
      s'.Specifies q' r request' → RenderMode.ofRequest q'.mode = .ok .document →
      (∃ header, q'.ifNoneMatch = some header ∧ Repeats tag header) → s'.answer request' = .ok ⟨304, none, none⟩) ∧
    (∀ (s : Service) (request : Request) (response : Response), s.answer request = .ok response →
      response.status = 304 ∨ response.etag ≠ none →
      ∃ q r, s.Specifies q r request ∧ RenderMode.ofRequest q.mode = .ok .document) ∧
    ∀ (s : Service) (id : Int) (q : RenderQuery), ∃ response, s.answer (.byId id q) = .ok response ∧
      (response.status = 400 ↔ ∃ unknown, RenderMode.ofRequest q.mode = .error unknown) ∧
      (response.status = 503 ↔ (∃ mode, RenderMode.ofRequest q.mode = .ok mode) ∧ s.base = none) ∧
      (response.status = 404 ↔ (∃ mode, RenderMode.ofRequest q.mode = .ok mode) ∧
        ∃ kb, s.base = some kb ∧ ∀ row ∈ kb.rows, row.1 ≠ id) := by
  refine ⟨?_, ?_, fun s request response => specifies_of_tagged, answer_byId_status⟩
  · intro r
    obtain ⟨text, table, htext, htable⟩ := exists_document_table r
    refine ⟨text, etag text, table, rfl, htext, htable, fun s q request hspecifies => ⟨fun hmode => ?_, fun hmode => ?_⟩⟩
    · have hdecides : s.answer request = .ok ⟨304, none, none⟩ ↔ Lists q.ifNoneMatch (etag text) := by
        rw [hspecifies.answer_eq hmode]
        refine ⟨fun h => ?_, answerRecord_of_lists htext⟩
        by_contra hlists
        rw [answerRecord_of_not_lists htext hlists] at h
        cases h
      refine ⟨hdecides, fun hlists => ?_, fun header hheader h hstar => ?_⟩
      · rw [hspecifies.answer_eq hmode, answerRecord_of_not_lists htext hlists]
      · obtain ⟨_, heq, -, hlisted⟩ := hdecides.mp h
        cases hheader.symm.trans heq
        exact hlisted.resolve_left hstar
    · rw [hspecifies.answer_eq hmode, answerRecord_table htable]
  · rintro r s s' q q' request request' tag body h hanswer h' hmode' ⟨header, hheader, hrepeats⟩
    obtain ⟨text, -, htext, -⟩ := exists_document_table r
    have hmode : RenderMode.ofRequest q.mode = .ok .document := by
      obtain ⟨_, _, hspecifies, hmode⟩ := specifies_of_tagged hanswer (Or.inr nofun)
      rwa [← h.query_eq hspecifies] at hmode
    have htag : tag = etag text := by
      rw [h.answer_eq hmode] at hanswer
      by_cases hlists : Lists q.ifNoneMatch (etag text)
      · rw [answerRecord_of_lists htext hlists] at hanswer
        cases hanswer
      · rw [answerRecord_of_not_lists htext hlists] at hanswer
        cases hanswer
        rfl
    rw [h'.answer_eq hmode', hheader]
    exact answerRecord_of_lists htext (lists_of_repeats (htag ▸ hrepeats))

/-- A document that is sent, its tag repeated as the second of a list, a table for a client that has
everything, and an id without a row. -/
theorem tags_decide_the_answer_rsi :
    let body : Json := .object [("strategy_type", .string "rsi")]
    ∃ tag full table, (Service.mk none).answer (.render body ⟨some "doc", none⟩) = .ok ⟨200, some tag, some full⟩ ∧
      (Service.mk none).answer (.render body ⟨some "doc", some ("\"other\", " ++ tag)⟩) = .ok ⟨304, none, none⟩ ∧
      (∃ q r, (Service.mk none).Specifies q r (.render body ⟨some "doc", some ("\"other\", " ++ tag)⟩) ∧
        RenderMode.ofRequest q.mode = .ok .document) ∧
      (Service.mk none).answer (.render body ⟨none, some "*"⟩) = .ok ⟨200, none, some table⟩ ∧
      ∃ response, (Service.mk (some .empty)).answer (.byId 7 ⟨none, none⟩) = .ok response ∧ response.status = 404 := by
  intro body
  obtain ⟨r, hrecord⟩ : ∃ r, StrategyRecord.ofJson body = .ok r := exists_of_isOk (by decide +kernel)
  have hspecifies : ∀ q, (Service.mk none).Specifies q r (.render body q) := fun q => .sent hrecord
  have hmode : RenderMode.ofRequest (some "doc") = .ok .document := by decide +kernel
  obtain ⟨hrecords, hrepeated, htagged, hbyId⟩ := tags_decide_the_answer
  obtain ⟨text, tag, table, -, -, -, hanswers⟩ := hrecords r
  have hnone : ¬ Lists none tag := by
    rintro ⟨_, ⟨⟩, -⟩
  have hfirst := ((hanswers _ _ _ (hspecifies ⟨some "doc", none⟩)).1 hmode).2.1 hnone
  have hother : ∀ c ∈ "\"other\"".toList, Readable c := isReadable_iff.mp (by decide +kernel)
  have hlist : Repeats tag ("\"other\", " ++ tag) := by
    refine ⟨["\"other\"".toList], [' '], [], [], ?_, by simp, List.forall_mem_singleton.mpr hother⟩
    simp [List.intercalate_cons_cons]
  have hsecond := hrepeated r _ _ _ _ _ _ tag _ (hspecifies _) hfirst
    (hspecifies ⟨some "doc", some ("\"other\", " ++ tag)⟩) hmode ⟨_, rfl, hlist⟩
  have htable := (hanswers _ _ _ (hspecifies ⟨none, some "*"⟩)).2 rfl
  obtain ⟨response, hresponse, -, -, hstatus⟩ := hbyId ⟨some .empty⟩ 7 ⟨none, none⟩
  have hunknown : response.status = 404 := hstatus.mpr ⟨⟨.table, rfl⟩, .empty, rfl, fun row hrow => nomatch hrow⟩
  exact ⟨tag, _, _, hfirst, hsecond, htagged _ _ _ hsecond (Or.inl rfl), htable, response, hresponse, hunknown⟩

end Service

end BotSpec
