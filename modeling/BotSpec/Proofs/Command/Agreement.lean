import BotSpec.Command.Run
import BotSpec.Proofs.Record.Text
import BotSpec.Proofs.Report.Rendering
import BotSpec.Proofs.Report.Table

/-!
# What is printed is what is answered

A specification is had in two ways. `render` on the command line reads the text of a record and
prints; the service is sent the value of such a text and answers with JSON. The two read apart from
one another, and each has its own place where the terms of a specification are set. For a text that
repeats no fixed field they come to the same:

> `text_and_value_are_one_record`: both read the same record or refuse it, and what the command
> prints for it is what the service answers.
-/

namespace BotSpec

/-- On the standard terms every record has a specification in either mode. -/
theorem Brief.exists_render_standard (r : StrategyRecord) (mode : RenderMode) :
    ∃ rendered, Brief.render ⟨r, .standard⟩ mode = .ok rendered := by
  let interval := BotSettings.standard.interval
  let dataSource := BotSettings.standard.dataSource
  show ∃ rendered, (r.standardBrief interval dataSource).render mode = .ok rendered
  cases mode with
  | table =>
    obtain ⟨actions, hactions, -⟩ := exists_actionRows _ (pairSide_standardBrief r interval dataSource)
    obtain ⟨fees, hfees, -⟩ := (r.standardBrief interval dataSource).exists_feeRows rfl
    obtain ⟨t, ht, -⟩ := render_table _ hactions hfees
    exact ⟨_, ht⟩
  | document =>
    obtain ⟨execution, hexecution⟩ := exists_execution_standardBrief r interval dataSource
    obtain ⟨fees, hfees⟩ := exists_feeSection_standardBrief r interval dataSource
    obtain ⟨front, bodies, htext, -⟩ := render_document _ hexecution hfees
    exact ⟨_, htext⟩

/-! ## What is shown of a specification -/

/-- The data of a row are its three cells, by name. -/
def SpecRow.HasData (r : SpecRow) (data : Json) : Prop :=
  data.get? "parameter" = some (.string r.parameter) ∧ data.get? "value" = some (.string r.value) ∧
    data.get? "description" = some (.string r.description)

/-- A specification in print and in the data of an answer. A document is one text, in both. Of a
table the data have the rows and the diagnostics, and print is the text of the table, which has them
in columns. -/
inductive Rendered.Shown : Rendered → String → Json → Prop where
  | document {text : String} {data : Json} (htext : data.get? "text" = some (.string text)) :
      Shown (.document text) text data
  | table {t : SpecTable} {data : Json} {rows : List Json} (hrows : data.get? "rows" = some (.array rows))
      (hcells : List.Forall₂ SpecRow.HasData t.rows rows)
      (hdiagnostics : data.get? "diagnostics" = some (.array (t.diagnostics.map Diagnostic.toJson)))
      (hcolumns : t.ShownBy t.text) : Shown (.table t) t.text data

/-- **What is printed and what is sent are one specification.** -/
theorem Rendered.shown_plain (rendered : Rendered) : rendered.Shown rendered.plain rendered.toJson := by
  cases rendered with
  | document text => exact .document rfl
  | table t =>
    have hcells : List.Forall₂ SpecRow.HasData t.rows (t.rows.map rowJson) :=
      List.forall₂_map_right_iff.mpr (List.forall₂_same.mpr fun _ _ => ⟨rfl, rfl, rfl⟩)
    exact .table rfl hcells rfl t.shownBy_text

/-! ## The command -/

namespace Command

/-- The text of a source that is not a row. -/
def sourceText? (w : World) (path : String) : Option String := if path = "-" then some w.input else w.file? path

/-- With the interval left as it is, a record is printed on the standard terms. -/
theorem run_render {w : World} {path text : String} {r : StrategyRecord} {mode : RenderMode} {rendered : Rendered}
    (htext : sourceText? w path = some text) (hr : StrategyRecord.ofText text = .ok r)
    (hrendered : Brief.render ⟨r, .standard⟩ mode = .ok rendered) :
    run w (.render (.file path) mode BotSettings.standard.interval false) = .printed rendered.plain := by
  have hrecord : readRecord w (.file path) = .ok r := by
    unfold sourceText? at htext
    simp only [readRecord, htext, hr]
  have hstandard : termsFor BotSettings.standard.interval = SpecTerms.standard := rfl
  simp only [run, runRender, hrecord, hstandard, hrendered]
  rfl

end Command

/-! ## The service -/

namespace Service

/-- The specification in an answer. -/
def Response.data? (response : Response) : Option Json := response.body.bind fun body => body.get? "data"

/-- An answer that gives a specification, or tells a client that has the tag of the document to use
what it has. -/
def Gives (rendered : Rendered) (ifNoneMatch : Option String) (response : Response) : Prop :=
  response.data? = some rendered.toJson ∨
    ∃ text, rendered = .document text ∧ hasTag ifNoneMatch (etag text) = true ∧ response = .notModified

/-- Every record that is rendered is answered with. -/
theorem exists_answerRecord {r : StrategyRecord} {mode : RenderMode} {rendered : Rendered}
    (hrendered : Brief.render ⟨r, .standard⟩ mode = .ok rendered) (ifNoneMatch : Option String) :
    ∃ response, answerRecord r mode ifNoneMatch = .ok response ∧ Gives rendered ifNoneMatch response := by
  rw [answerRecord, bind_of_eq_ok hrendered]
  cases rendered with
  | table t => exact ⟨_, rfl, .inl rfl⟩
  | document text =>
    by_cases htag : hasTag ifNoneMatch (etag text) = true
    · exact ⟨.notModified, by simp only [htag, if_true]; rfl, .inr ⟨text, rfl, htag, rfl⟩⟩
    · exact ⟨_, by simp only [htag]; rfl, .inl rfl⟩

/-- A value that is a record is answered as the record is. -/
theorem answer_render {s : Service} {v : Json} {q : RenderQuery} {mode : RenderMode} {r : StrategyRecord}
    (hmode : RenderMode.ofRequest q.mode = .ok mode) (hr : StrategyRecord.ofJson v = .ok r) :
    s.answer (.render v q) = answerRecord r mode q.ifNoneMatch := by
  simp only [answer, answerRender, hmode, hr]

end Service

/-! ## Both together -/

open StrategyRecord in
/-- **A text and its value are one record.** If a text is JSON and repeats no fixed field, the
command reads from it what the service reads from its value, or both refuse it for its shape. If it
repeats one, the command refuses it, while for the service the last member of each key counts. A
text that is not JSON is refused.

For a record that is read, the command prints the text of the document that the service answers
with, or the table that it answers with in columns, in the same mode, if the interval is left as it
is. A client that has the document is told so instead. -/
theorem text_and_value_are_one_record (text : String) :
    (∀ v, Json.parse text = .ok v → ¬ RepeatsFixed text →
      ofText text = ofJson v ∧ (∀ e, ofText text = .error e → e = .wrongShape) ∧
      ∀ r, ofText text = .ok r →
        ∀ (w : World) (words : List String) (path : String) (mode : RenderMode),
          Command.parse words = .ok (.render (.file path) mode BotSettings.standard.interval false) →
          Command.sourceText? w path = some text →
          ∀ (s : Service) (q : Service.RenderQuery), RenderMode.ofRequest q.mode = .ok mode →
            ∃ rendered printed response, Brief.render ⟨r, .standard⟩ mode = .ok rendered ∧
              w.run words = .printed printed ∧ rendered.Shown printed rendered.toJson ∧
              s.answer (.render v q) = .ok response ∧ Service.Gives rendered q.ifNoneMatch response) ∧
    (∀ v, Json.parse text = .ok v → RepeatsFixed text →
      ofText text = .error .wrongShape ∧
      (∀ key, v.get? key = Json.lookup key (Json.topMembers text).reverse) ∧
      ofJson v = ofMembers (Json.topMembers text).reverse) ∧
    ∀ e, Json.parse text = .error e → ∃ e', ofText text = .error e' := by
  refine ⟨?_, ?_, ?_⟩
  · intro v hparse honce
    have hsame : ofText text = ofJson v := ofText_eq_ofJson hparse honce
    refine ⟨hsame, fun e h => ofJson_eq_wrongShape (hsame.symm.trans h), ?_⟩
    intro r hr w words path mode hwords htext s q hmode
    obtain ⟨rendered, hrendered⟩ := Brief.exists_render_standard r mode
    obtain ⟨response, hresponse, hgives⟩ := Service.exists_answerRecord hrendered q.ifNoneMatch
    refine ⟨rendered, rendered.plain, response, hrendered, ?_, rendered.shown_plain, ?_, hgives⟩
    · rw [World.run, hwords]
      exact Command.run_render htext hr hrendered
    · rw [Service.answer_render hmode (hsame.symm.trans hr)]
      exact hresponse
  · intro v hparse hrepeats
    exact ⟨ofText_of_repeatsFixed hparse hrepeats, Json.get?_of_parse hparse, ofJson_of_repeatsFixed hparse hrepeats⟩
  · intro e hparse
    cases h : ofText text with
    | error e' => exact ⟨e', rfl⟩
    | ok r =>
      obtain ⟨v, hv⟩ := exists_parse_of_ofText h
      cases hparse.symm.trans hv

/-- A text on the standard input that is printed as a document and answered as one, a text with two
symbols, and a text that is not JSON. -/
theorem text_and_value_are_one_record_rsi :
    let text := "\x7b\"strategy_type\": \"rsi\", \"symbol\": \"BTC\", \"win_rate\": \"61.5\", \"win_rate\": 60\x7d"
    let w : World := ⟨text, fun _ => none, ⟨[]⟩, fun _ => .absent⟩
    (∃ v r printed response data, Json.parse text = .ok v ∧ StrategyRecord.ofText text = .ok r ∧
      StrategyRecord.ofJson v = .ok r ∧ w.run ["render", "--input", "-", "--mode", "doc"] = .printed printed ∧
      (Service.mk none).answer (.render v ⟨some "document", none⟩) = .ok response ∧
      response.data? = some data ∧ data.get? "text" = some (.string printed)) ∧
    StrategyRecord.ofText "\x7b\"symbol\": \"BTC\", \"symbol\": \"ETH\"\x7d" = .error .wrongShape ∧
    ∃ e, StrategyRecord.ofText "BTC" = .error e := by
  intro text w
  refine ⟨?_, ?_, ?_⟩
  · obtain ⟨v, hv⟩ : ∃ v, Json.parse text = .ok v := exists_of_isOk (by decide +kernel)
    obtain ⟨r, hr⟩ : ∃ r, StrategyRecord.ofText text = .ok r := exists_of_isOk (by decide +kernel)
    obtain ⟨hsame, -, hboth⟩ := (text_and_value_are_one_record text).1 v hv (by decide +kernel)
    have hwords : Command.parse ["render", "--input", "-", "--mode", "doc"] =
        .ok (.render (.file "-") .document BotSettings.standard.interval false) := by decide +kernel
    obtain ⟨rendered, printed, response, hrendered, hprinted, hshown, hanswered, hgives⟩ :=
      hboth r hr w _ "-" .document hwords rfl (Service.mk none) ⟨some "document", none⟩ (by decide +kernel)
    refine ⟨v, r, printed, response, rendered.toJson, hv, hr, hsame.symm.trans hr, hprinted, hanswered, ?_, ?_⟩
    · rcases hgives with hdata | ⟨_, -, htag, -⟩
      · exact hdata
      · cases htag
    · cases hshown with
      | document htext => exact htext
      | table =>
        -- a document was asked for
        obtain ⟨d, -, hd⟩ := exists_of_bind_eq_ok hrendered
        cases hd
  · obtain ⟨v, hv⟩ : ∃ v, Json.parse "\x7b\"symbol\": \"BTC\", \"symbol\": \"ETH\"\x7d" = .ok v :=
      exists_of_isOk (by decide +kernel)
    exact ((text_and_value_are_one_record _).2.1 v hv (by decide +kernel)).1
  · have hrefused : (Json.parse "BTC").isOk = false := by decide +kernel
    cases h : Json.parse "BTC" with
    | error e => exact (text_and_value_are_one_record "BTC").2.2 e h
    | ok v =>
      rw [h] at hrefused
      cases hrefused

end BotSpec
