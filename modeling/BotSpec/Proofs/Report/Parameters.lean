import BotSpec.Proofs.Catalogue.Spelling
import BotSpec.Proofs.Report.CandleBuffer
import BotSpec.Proofs.Report.Rendering
import BotSpec.Record.Reader
import BotSpec.Strategy.Evaluation

/-!
# What a specification sees of its parameters

A record is read through the parameters of its type. What it stores besides, and which spelling it
stores a parameter under, is not seen, with one exception: the number of candles to keep is taken
from the raw values.

Two records with the same subject therefore have the same rows and lines but for those that name
this number (`render_sameButBuffer`), and are the same altogether if the number is the same
(`Rendered.SameButBuffer.eq`). Both kinds of change to the parameters keep the subject, and renaming
keeps the values, too:

> `spelling_is_unobservable`: nobody can tell an alias from the canonical name, and a key that
> belongs to no parameter shows in the candle buffer alone.
-/

namespace BotSpec

/-- A record with other parameters. -/
def StrategyRecord.withParams (r : StrategyRecord) (params : ParamSet) : StrategyRecord := { r with params }

/-! ## Equal but for the candle buffer -/

/-- The row of a table that says how many candles to keep. -/
def bufferRow (count : Nat) : SpecRow :=
  ⟨"Candle buffer", Text.natText count, "Closed candles to keep in memory before evaluating"⟩

/-- The line of a document that says how many candles to keep. -/
def keepLine (count : Nat) : String := "- " ++ s!"Keep a rolling buffer of at least {count} closed candles, oldest first."

/-- The step of a document that says when to drop candles. -/
def dropLine (count : Nat) : String :=
  "2. " ++ s!"Append it to the buffer and drop the oldest so at least {count} closed candles remain."

/-- The same row, or the rows of two candle buffers. -/
inductive SameRow (n m : Nat) : SpecRow → SpecRow → Prop where
  | refl (row : SpecRow) : SameRow n m row row
  | buffer : SameRow n m (bufferRow n) (bufferRow m)

/-- The same line, or lines on two candle buffers. -/
inductive SameLine (n m : Nat) : String → String → Prop where
  | refl (line : String) : SameLine n m line line
  | keep : SameLine n m (keepLine n) (keepLine m)
  | drop : SameLine n m (dropLine n) (dropLine m)

/-- Specifications that are the same row by row, or line by line, but for their candle buffers. -/
inductive Rendered.SameButBuffer (n m : Nat) : Rendered → Rendered → Prop where
  | table {rows rows' : List SpecRow} (h : List.Forall₂ (SameRow n m) rows rows') (name : String)
      (diagnostics : List Diagnostic) :
      SameButBuffer n m (.table ⟨name, rows, diagnostics⟩) (.table ⟨name, rows', diagnostics⟩)
  | document {lines lines' : List String} (h : List.Forall₂ (SameLine n m) lines lines') :
      SameButBuffer n m (.document (String.join (lines.map fun line => line ++ "\n")))
        (.document (String.join (lines'.map fun line => line ++ "\n")))

theorem forall₂_sameRow_refl (n m : Nat) (rows : List SpecRow) : List.Forall₂ (SameRow n m) rows rows :=
  List.forall₂_same.mpr fun row _ => .refl row

theorem forall₂_sameLine_refl (n m : Nat) (lines : List String) : List.Forall₂ (SameLine n m) lines lines :=
  List.forall₂_same.mpr fun line _ => .refl line

/-- With one number of candles, the specifications are the same. -/
theorem Rendered.SameButBuffer.eq {n : Nat} {a b : Rendered} (h : Rendered.SameButBuffer n n a b) : a = b := by
  cases h with
  | table h name diagnostics =>
    have hrows := h.imp fun {row row'} hrow => show row = row' by cases hrow <;> rfl
    rw [List.forall₂_eq_eq_eq] at hrows
    rw [hrows]
  | document h =>
    have hlines := h.imp fun {line line'} hline => show line = line' by cases hline <;> rfl
    rw [List.forall₂_eq_eq_eq] at hlines
    rw [hlines]

/-! ## Sections -/

/-- Sections with the same title and the same lines but for the candle buffer. -/
structure Section.SameButBuffer (n m : Nat) (s t : Section) : Prop where
  title : s.title = t.title
  body : List.Forall₂ (SameLine n m) s.body t.body

namespace Section.SameButBuffer

variable {n m : Nat}

protected theorem refl (s : Section) : Section.SameButBuffer n m s s := ⟨rfl, forall₂_sameLine_refl n m s.body⟩

/-- Such sections have the same lines, but for the candle buffer. -/
theorem lines {s t : Section} (h : Section.SameButBuffer n m s t) (number : Nat) :
    List.Forall₂ (SameLine n m) (s.lines number) (t.lines number) := by
  have hheading : s.heading number = t.heading number := by rw [heading, heading, h.title]
  rw [Section.lines, Section.lines, hheading]
  exact .cons (.refl _) (.cons (.refl _) (.cons (.refl _) h.body))

/-- Numbered sections, line by line: the sections go in step, whatever the number of the first is. -/
theorem forall₂_numbered {sections sections' : List Section}
    (h : List.Forall₂ (Section.SameButBuffer n m) sections sections') (first : Nat) :
    List.Forall₂ (SameLine n m) (sections.mapIdx fun i s => s.lines (i + first)).flatten
      (sections'.mapIdx fun i s => s.lines (i + first)).flatten := by
  induction h generalizing first with
  | nil => exact .nil
  | cons hfirst _ ih =>
    rw [List.mapIdx_cons, List.mapIdx_cons, List.flatten_cons, List.flatten_cons]
    refine List.rel_append (hfirst.lines _) ?_
    simpa only [Nat.add_assoc, Nat.add_comm 1] using ih (first + 1)

end Section.SameButBuffer

/-- Documents are the same but for the candle buffer if their sections are. -/
theorem Document.sameButBuffer_text {n m : Nat} {d d' : Document} (hheading : d.heading = d'.heading)
    (hwarnings : d.warnings = d'.warnings) (hsections : List.Forall₂ (Section.SameButBuffer n m) d.sections d'.sections) :
    Rendered.SameButBuffer n m (.document d.text) (.document d'.text) := by
  refine .document ?_
  rw [lines, lines, warningLines, warningLines, hheading, hwarnings]
  exact List.rel_append (forall₂_sameLine_refl n m (_ :: _)) (Section.SameButBuffer.forall₂_numbered hsections 1)

/-! ## Records with the same subject -/

/-- The first two steps with their numbers. -/
theorem Block.lines_steps (first second : String) (rest : List String) :
    (Block.steps (first :: second :: rest)).lines =
      ("1. " ++ first) :: ("2. " ++ second) :: rest.mapIdx fun i item => s!"{i + 3}. {item}" := by
  have hfirst : toString (0 + 1) ++ ". " = "1. " := by decide +kernel
  have hsecond : toString (0 + 1 + 1) ++ ". " = "2. " := by decide +kernel
  rw [Block.lines, List.mapIdx_cons, List.mapIdx_cons, ← hfirst, ← hsecond]
  rfl

namespace Brief

variable {r : StrategyRecord} {q : ParamSet} {s : Subject}

/-- The section on the data names the buffer in one line. -/
theorem dataSource_sameButBuffer (r : StrategyRecord) (q : ParamSet) (terms : SpecTerms) :
    Section.SameButBuffer r.params.candleBuffer q.candleBuffer (Brief.mk r terms).dataSource
      (Brief.mk (r.withParams q) terms).dataSource :=
  ⟨rfl, .cons (.refl _) (.cons (.refl _) (.cons .keep (.cons (.refl _) .nil)))⟩

/-! ### Tables -/

section SameSubject

variable (hr : r.subject = .ok s) (hq : (r.withParams q).subject = .ok s)

include hr hq

theorem diagnostics_congr : (r.withParams q).diagnostics = r.diagnostics := by
  simp only [StrategyRecord.diagnostics, StrategyRecord.subjectDiagnostics, hr, hq]
  rfl

variable (terms : SpecTerms)

theorem parameterRows_congr :
    (Brief.mk (r.withParams q) terms).parameterRows = (Brief.mk r terms).parameterRows := by
  simp only [parameterRows, subject, hr, hq]

/-- The row of the candle buffer alone depends on more than the subject. -/
theorem strategyRows_sameRow :
    List.Forall₂ (SameRow r.params.candleBuffer q.candleBuffer) (Brief.mk r terms).strategyRows
      (Brief.mk (r.withParams q) terms).strategyRows := by
  have htype : (Brief.mk (r.withParams q) terms).typeDescription = (Brief.mk r terms).typeDescription := by
    simp only [typeDescription, subject, hr, hq]
  rw [strategyRows, strategyRows, htype]
  exact List.rel_append (forall₂_sameRow_refl _ _ [_, _, _, _, _, _]) (.cons .buffer (forall₂_sameRow_refl _ _ [_]))

/-- Tables of one subject are the same but for the row of the buffer. -/
theorem render_table_sameButBuffer :
    SameOutcome (Rendered.SameButBuffer r.params.candleBuffer q.candleBuffer) ((Brief.mk r terms).render .table)
      ((Brief.mk (r.withParams q) terms).render .table) := by
  have hcomposition : (Brief.mk (r.withParams q) terms).compositionRows = (Brief.mk r terms).compositionRows := by
    simp only [compositionRows, subject, hr, hq]
  have hactions : (Brief.mk (r.withParams q) terms).actionRows = (Brief.mk r terms).actionRows := by
    simp only [actionRows, subject, hr, hq]
    rfl
  have hfees : (Brief.mk (r.withParams q) terms).feeRows = (Brief.mk r terms).feeRows := rfl
  simp only [render, table, bind_assoc, hcomposition, hactions, hfees, parameterRows_congr hr hq, diagnostics_congr hr hq]
  refine .bind _ fun actions => .bind _ fun fees => .ok (.table ?_ _ _)
  iterate 5 refine List.rel_append ?_ (forall₂_sameRow_refl _ _ _)
  exact strategyRows_sameRow hr hq terms

/-! ### Documents -/

/-- The control loop names the buffer in one step. -/
theorem controlLoop_sameButBuffer :
    Section.SameButBuffer r.params.candleBuffer q.candleBuffer (Brief.mk r terms).controlLoop
      (Brief.mk (r.withParams q) terms).controlLoop := by
  have hdecision : (Brief.mk (r.withParams q) terms).decisionStep = (Brief.mk r terms).decisionStep := by
    simp only [decisionStep, subject, hr, hq]
  refine ⟨rfl, ?_⟩
  simp only [Section.body, controlLoop, List.flatMap_singleton, Block.lines_steps, hdecision]
  exact .cons (.refl _) (.cons .drop (forall₂_sameLine_refl _ _ _))

/-- Documents of one subject are the same but for these two lines. -/
theorem render_document_sameButBuffer :
    SameOutcome (Rendered.SameButBuffer r.params.candleBuffer q.candleBuffer) ((Brief.mk r terms).render .document)
      ((Brief.mk (r.withParams q) terms).render .document) := by
  have hidentity : (Brief.mk (r.withParams q) terms).identity = (Brief.mk r terms).identity := by
    simp only [identity, typeLines, subject, hr, hq]
    rfl
  have hcomputation : (Brief.mk (r.withParams q) terms).computation = (Brief.mk r terms).computation := by
    simp only [computation, subject, hr, hq]
  have hsignal : (Brief.mk (r.withParams q) terms).signalLogic = (Brief.mk r terms).signalLogic := by
    simp only [signalLogic, subject, hr, hq]
    rfl
  have hexecution : (Brief.mk (r.withParams q) terms).execution = (Brief.mk r terms).execution := by
    simp only [execution, subject, hr, hq]
    rfl
  have hfees : (Brief.mk (r.withParams q) terms).feeSection = (Brief.mk r terms).feeSection := rfl
  simp only [render, document, bind_assoc, hidentity, hcomputation, hsignal, hexecution, hfees, diagnostics_congr hr hq]
  refine .bind _ fun execution => .bind _ fun fees => .ok (Document.sameButBuffer_text rfl rfl ?_)
  exact .cons (.refl _) (.cons (dataSource_sameButBuffer r q terms) (.cons (.refl _) (.cons (.refl _) (.cons (.refl _)
    (.cons (.refl _) (.cons (.refl _) (.cons (controlLoop_sameButBuffer hr hq terms) (.cons (.refl _) .nil))))))))

/-- With the same subject, specifications differ in their candle buffers at most. -/
theorem render_sameButBuffer (mode : RenderMode) :
    SameOutcome (Rendered.SameButBuffer r.params.candleBuffer q.candleBuffer) ((Brief.mk r terms).render mode)
      ((Brief.mk (r.withParams q) terms).render mode) := by
  cases mode with
  | table => exact render_table_sameButBuffer hr hq terms
  | document => exact render_document_sameButBuffer hr hq terms

end SameSubject

end Brief

/-! ## Spellings -/

/-- What two records of a variant have in common when nothing tells them apart. -/
structure StrategyRecord.Indistinguishable (v : Variant) (r r' : StrategyRecord) : Prop where
  rendered : ∀ terms mode, (Brief.mk r' terms).render mode = (Brief.mk r terms).render mode
  diagnostics : r'.diagnostics = r.diagnostics
  evaluated : ∀ candles,
    evaluateLatest v (v.canonicalize r'.params) candles = evaluateLatest v (v.canonicalize r.params) candles

/-- What two records of a variant have in common when the candle buffer alone tells them apart. -/
structure StrategyRecord.IndistinguishableButBuffer (v : Variant) (r r' : StrategyRecord) : Prop where
  rendered : ∀ terms mode,
    SameOutcome (Rendered.SameButBuffer r.params.candleBuffer r'.params.candleBuffer) ((Brief.mk r terms).render mode)
      ((Brief.mk r' terms).render mode)
  parameterRows : ∀ terms, (Brief.mk r' terms).parameterRows = (Brief.mk r terms).parameterRows
  diagnostics : r'.diagnostics = r.diagnostics
  evaluated : ∀ candles,
    evaluateLatest v (v.canonicalize r'.params) candles = evaluateLatest v (v.canonicalize r.params) candles

namespace StrategyRecord

variable {r : StrategyRecord} {v : Variant}

/-- The same canonical parameters leave nothing but the candle buffer to differ. -/
theorem indistinguishableButBuffer (hv : Variant.resolve r.type = .ok v) {q : ParamSet}
    (hcanonical : v.canonicalize q = v.canonicalize r.params) : IndistinguishableButBuffer v r (r.withParams q) := by
  have hr : r.subject = .ok ⟨v, v.canonicalize r.params⟩ := by
    simp only [subject, hv]
  have hq : (r.withParams q).subject = .ok ⟨v, v.canonicalize r.params⟩ := by
    simp only [subject, withParams, hv, hcanonical]
  exact
    { rendered := Brief.render_sameButBuffer hr hq
      parameterRows := Brief.parameterRows_congr hr hq
      diagnostics := Brief.diagnostics_congr hr hq
      evaluated := fun candles => by rw [withParams, hcanonical] }

/-- The same canonical parameters and the same candle buffer leave nothing to differ. -/
theorem indistinguishable (hv : Variant.resolve r.type = .ok v) {q : ParamSet}
    (hcanonical : v.canonicalize q = v.canonicalize r.params) (hbuffer : q.candleBuffer = r.params.candleBuffer) :
    Indistinguishable v r (r.withParams q) := by
  have h := indistinguishableButBuffer hv hcanonical
  refine ⟨fun terms mode => ?_, h.diagnostics, h.evaluated⟩
  have hrendered := h.rendered terms mode
  rw [withParams, hbuffer] at hrendered
  exact hrendered.eq_of_imp fun h => h.eq

/-- **Neither aliases nor foreign keys are seen.** Where an alias gives a parameter its value, the
canonical name in its place changes nothing that can be observed of a record. A key that is no
spelling of any parameter shows nowhere but in the number of candles to keep. -/
theorem spelling_is_unobservable (hv : Variant.resolve r.type = .ok v) :
    (∀ spec ∈ v.schema, ∀ spelling, spec.winner? r.params = some spelling → spelling ≠ spec.name →
      Indistinguishable v r (r.withParams (r.params.rename spelling spec.name))) ∧
    ∀ key ∉ v.spellings, ∀ value,
      IndistinguishableButBuffer v r (r.withParams (r.params.insert key value)) := by
  constructor
  · intro spec hspec spelling hwinner halias
    refine indistinguishable hv (Variant.canonicalize_rename (Variant.mem_all_of_resolve hv) hspec hwinner) ?_
    -- the canonical name is free, so renaming loses no value
    exact ParamSet.candleBuffer_congr fun _ => ParamSet.mem_values_rename_iff (ParamSpec.get?_name_of_winner? hwinner halias)
  · intro key hkey value
    exact indistinguishableButBuffer hv (Variant.canonicalize_insert hkey value)

/-- An alias of the RSI, and a key that only a band would read. -/
theorem spelling_is_unobservable_rsi :
    let j : Json := .object [("strategy_name", .string "N"), ("strategy_type", .string "rsi")]
    let params : ParamSet := .ofList [("rsi_period", 14), ("rsi_os", 30), ("rsi_overbought", 70)]
    let v := VariantTag.rsi.variant
    ∃ stored, ofJson j = .ok stored ∧
      let r := stored.withParams params
      Indistinguishable v r (r.withParams (params.rename "rsi_os" "oversold")) ∧
        IndistinguishableButBuffer v r (r.withParams (params.insert "bb_period" 200)) := by
  intro j params v
  obtain ⟨stored, hstored, hv⟩ : ∃ stored, ofJson j = .ok stored ∧ Variant.resolve stored.type = .ok v := ⟨_, rfl, rfl⟩
  have hwinner : ParamSpec.winner? ⟨"oversold", .oversold, ["rsi_oversold", "rsi_os"], Schema.rsiOversoldText⟩ params
      = some "rsi_os" := by decide +kernel
  obtain ⟨hrenamed, hinserted⟩ := spelling_is_unobservable (r := stored.withParams params) hv
  exact ⟨stored, hstored, hrenamed _ (by decide +kernel) "rsi_os" hwinner (by decide),
    hinserted "bb_period" (by decide +kernel) 200⟩

end StrategyRecord

end BotSpec
