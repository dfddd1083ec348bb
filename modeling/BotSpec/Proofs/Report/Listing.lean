import BotSpec.Proofs.Report.Rendering
import BotSpec.Proofs.Report.Sentence
import BotSpec.Record.Reader

/-!
# Where parameters are listed

The parameters of a record are written down four times: as rows of the table, as bullets of the
document, in the sentences above the bullets, and, those without a value, among the diagnostics.

> `outputs_agree_on_parameters`: all four list the parameters of the type, in the order of its
> schema, with one text for each value. A type that is not known has what is stored in their place.

Rows and bullets are made of the bound parameters one by one. What is to be shown of the document is
where the bullets are: section three is the parts of the components with empty lines between them
(`computation_body`), and it stands between the headings three and four (`exists_lines_eq`).
-/

namespace BotSpec

/-! ## Section three -/

/-- What is made of a list that was put together from parts is put together from what is made of the
parts. -/
theorem flatMap_intercalate {α β : Type} (f : α → List β) (separator : List α) (parts : List (List α)) :
    (separator.intercalate parts).flatMap f =
      (separator.flatMap f).intercalate (parts.map fun part => part.flatMap f) := by
  induction parts with
  | nil => rfl
  | cons part parts ih =>
    -- there is a separator behind a part only if another one follows
    cases parts with
    | nil => simp only [List.intercalate_singleton, List.map_cons, List.map_nil]
    | cons next parts =>
      rw [List.intercalate_cons_cons, List.flatMap_append, List.flatMap_append, ih]
      simp only [List.map_cons, List.intercalate_cons_cons]

/-- The bullet of a parameter. -/
def ParamSpec.bulletIn (spec : ParamSpec) (p : ParamSet) : String :=
  "- " ++ s!"`{spec.name}` = {spec.textIn p}: {spec.description}"

/-- The part of section three on a component: its heading, its sentence, a bullet for each
parameter, and the steps. -/
def Component.part (c : Component) (p : ParamSet) (number : Nat) : List String :=
  ["### " ++ s!"3.{number} {c.indicator.displayName}", "",
    interleave c.indicator.sentence (c.params.map fun spec => spec.settingIn p), ""] ++
  (c.params.map fun spec => spec.bulletIn p) ++
  "" :: ((c.bind p).computation c.indicator).mapIdx fun i step => s!"{i + 1}. {step}"

namespace Variant

variable {v : Variant}

/-- The lines on a component are its heading, its setup, its bullets and its steps, as the registry
has them. -/
theorem lines_blocks (hv : v ∈ all) (p : ParamSet) {c : Component} (hc : c ∈ v.components) (number : Nat) :
    (((c.bind p).describe c.indicator).blocks number).flatMap Block.lines = c.part p number := by
  have hbullets : ((c.bind p).values.map BoundParam.line).map (fun line =>
      "- " ++ s!"`{line.name}` = {line.value}: {line.description}") = c.params.map fun spec => spec.bulletIn p := by
    simp only [Component.bind, List.map_map]
    rfl
  rw [Component.part, ← setup_bind hv p hc, ← hbullets]
  simp [IndicatorDescription.blocks, Block.lines, ComponentParams.describe]

end Variant

/-- Two sections that follow each other stand next to each other in the document, with their
numbers. -/
theorem Document.exists_lines_eq {d : Document} {before after : List Section} {s next : Section}
    (h : d.sections = before ++ s :: next :: after) :
    ∃ front back,
      d.lines = front ++ s.lines (before.length + 1) ++ next.lines (before.length + 2) ++ back := by
  refine ⟨("# " ++ d.heading) :: d.warningLines ++ (before.mapIdx fun i s => s.lines (i + 1)).flatten,
    (after.mapIdx fun i s => s.lines (before.length + (i + 1 + 1) + 1)).flatten, ?_⟩
  rw [lines, h, List.mapIdx_append]
  simp only [List.mapIdx_cons, List.flatten_append, List.flatten_cons, List.append_assoc, List.cons_append,
    Nat.zero_add, Nat.add_zero, Nat.add_comm _ before.length]

namespace Brief

variable {b : Brief} {v : Variant}

/-- The subject of a brief of a known type is the type with its parameters. -/
theorem subject_eq (hv : Variant.resolve b.record.type = .ok v) :
    b.subject = .ok ⟨v, v.canonicalize b.record.params⟩ := by
  simp only [subject, StrategyRecord.subject, hv]

/-- Section three of a known type: a part for each component, with empty lines between the parts. -/
theorem computation_body (hv : Variant.resolve b.record.type = .ok v) :
    b.computation.body = [""].intercalate (v.components.mapIdx fun i c => c.part b.record.params (i + 1)) := by
  have hlist : (v.components.map fun c => (c.bind b.record.params).describe c.indicator) =
      (Subject.mk v (v.canonicalize b.record.params)).descriptions := by
    simp only [Subject.descriptions, Variant.canonicalize, List.map_map]
    rfl
  simp only [Section.body, computation, subject_eq hv]
  rw [← hlist, descriptionBlocks, flatMap_intercalate]
  refine congrArg _ (List.ext_getElem (by simp) fun i _ hi => ?_)
  rw [List.length_mapIdx] at hi
  simp only [List.getElem_map, List.getElem_mapIdx]
  exact Variant.lines_blocks (Variant.mem_all_of_resolve hv) _ (List.getElem_mem hi) _

/-- Section three of an unknown type: what is stored, if anything is. -/
theorem computation_body_unknown {unknown : UnknownType}
    (hunknown : Variant.resolve b.record.type = .error unknown) :
    b.computation.body =
      "Unknown strategy type: no indicator formula is available." ::
        (if b.record.params.entries = [] then "No parameters were stored with the record."
          else "Stored parameters, as recorded:") ::
        b.record.params.entries.map fun e => "- " ++ s!"`{e.1}` = {valueText e.2}" := by
  simp only [Section.body, computation, subject, StrategyRecord.subject, hunknown, storedParameters]
  by_cases hempty : b.record.params.entries = []
  · simp [ParamSet.isEmpty, hempty, Block.lines]
  · simp [ParamSet.isEmpty, hempty, Block.lines]

/-- Where sections three and four are in a document. -/
theorem exists_lines_eq {d : Document} (h : b.document = .ok d) :
    ∃ front back,
      d.lines = front ++ "" :: "## 3. Indicator computation" :: "" :: b.computation.body ++
        "" :: "## 4. Signal logic" :: "" :: back := by
  have hthree : Section.heading ⟨"Indicator computation", []⟩ 3 = "## 3. Indicator computation" := by decide +kernel
  have hfour : Section.heading ⟨"Signal logic", []⟩ 4 = "## 4. Signal logic" := by decide +kernel
  obtain ⟨execution, -, h⟩ := exists_of_bind_eq_ok h
  obtain ⟨fees, -, h⟩ := exists_of_bind_eq_ok h
  have hsections : d.sections = [b.identity, b.dataSource] ++ b.computation :: b.signalLogic ::
      [execution, fees, b.risk, b.controlLoop, b.statistics] := by cases h; rfl
  obtain ⟨front, back, hlines⟩ := Document.exists_lines_eq hsections
  refine ⟨front, b.signalLogic.body ++ back, hlines.trans ?_⟩
  rw [← hthree, ← hfour]
  simp only [List.append_assoc, List.cons_append]
  rfl

/-- Where the parameters are in a table. -/
theorem exists_rows_eq {t : SpecTable} (h : b.table = .ok t) :
    ∃ front actions back, b.actionRows = .ok actions ∧ t.rows = front ++ b.record.shownParameters ++ actions ++ back := by
  obtain ⟨actions, hactions, h⟩ := exists_of_bind_eq_ok h
  obtain ⟨fees, -, h⟩ := exists_of_bind_eq_ok h
  cases h
  refine ⟨b.strategyRows ++ b.compositionRows, actions, fees ++ b.breakerRows, hactions, ?_⟩
  simp only [parameterRows_eq, List.append_assoc]

end Brief

/-! ## Diagnostics -/

namespace StrategyRecord

variable {r : StrategyRecord}

/-- The diagnostic of parameters that could not be read. -/
def malformedMark (r : StrategyRecord) : List Diagnostic := if r.malformedParams then [.malformedInput] else []

/-- The diagnostics of a known type are about the parameters without a value. -/
theorem diagnostics_eq {v : Variant} (hv : Variant.resolve r.type = .ok v) :
    r.diagnostics = r.malformedMark ++
      (v.schema.filter fun spec => spec.AbsentFrom r.params).map fun spec => .missingParameter spec.name := by
  have hmissing : (v.canonicalize r.params).missing =
      (v.schema.filter fun spec => spec.AbsentFrom r.params).map ParamSpec.name := by
    rw [CanonicalParams.missing, Variant.all_canonicalize, List.filter_map, List.map_map]
    refine congrArg (List.map ParamSpec.name) (List.filter_congr fun spec _ => ?_)
    rw [Function.comp_apply, Bool.eq_iff_iff, Option.isNone_iff_eq_none, ParamSpec.value_bind_eq_none_iff, decide_eq_true_iff]
  simp only [diagnostics, subjectDiagnostics, subject, hv, hmissing, List.map_map, malformedMark]
  rfl

/-- The diagnostics of an unknown type are about the type. -/
theorem diagnostics_eq_unknown {unknown : UnknownType} (hunknown : Variant.resolve r.type = .error unknown) :
    r.diagnostics = r.malformedMark ++ [.unknownVariant r.type] := by
  have htag : unknown.tag = r.type := by
    unfold Variant.resolve at hunknown
    split at hunknown
    next => cases hunknown
    next => cases hunknown; rfl
  simp only [diagnostics, subjectDiagnostics, subject, hunknown, htag, malformedMark]

/-- Marking malformed input reports no missing parameter. -/
theorem missingParameter_notMem_malformedMark (name : String) : .missingParameter name ∉ r.malformedMark := by
  unfold malformedMark
  split <;> simp

/-- A parameter is reported exactly if it is absent: no other parameter has its name. -/
theorem missingParameter_mem_diagnostics_iff {v : Variant} (hv : Variant.resolve r.type = .ok v) {spec : ParamSpec}
    (hspec : spec ∈ v.schema) : .missingParameter spec.name ∈ r.diagnostics ↔ spec.AbsentFrom r.params := by
  rw [diagnostics_eq hv, List.mem_append, or_iff_right (missingParameter_notMem_malformedMark _)]
  simp only [List.mem_map, List.mem_filter, decide_eq_true_iff, Diagnostic.missingParameter.injEq]
  constructor
  · rintro ⟨other, ⟨hother, habsent⟩, hname⟩
    rwa [List.inj_on_of_nodup_map (Variant.nodup_names (Variant.mem_all_of_resolve hv)) hspec hother hname.symm]
  · exact fun habsent => ⟨spec, ⟨hspec, habsent⟩, rfl⟩

end StrategyRecord

/-! ## Agreement -/

namespace Brief

/-- A table and a document that list the parameters of a variant, each with the same text for its
value. -/
structure ListsParameters (b : Brief) (v : Variant) (t : SpecTable) (d : Document) : Prop where
  /-- The table has a row for each parameter, directly before the rows of the actions. -/
  rows : ∃ front actions back, b.actionRows = .ok actions ∧
    t.rows = front ++ (v.schema.map fun spec => ⟨spec.name, spec.textIn b.record.params, spec.description⟩) ++
      actions ++ back
  /-- Section three of the document is the parts of the components. -/
  bullets : ∃ front back,
    d.lines = front ++ "" :: "## 3. Indicator computation" :: "" ::
      [""].intercalate (v.components.mapIdx fun i c => c.part b.record.params (i + 1)) ++
      "" :: "## 4. Signal logic" :: "" :: back
  undefined_iff : ∀ spec ∈ v.schema, spec.textIn b.record.params = "undefined" ↔ spec.AbsentFrom b.record.params
  missing_iff : ∀ spec ∈ v.schema, .missingParameter spec.name ∈ b.record.diagnostics ↔ spec.AbsentFrom b.record.params
  diagnostics : b.record.diagnostics = b.record.malformedMark ++
    (v.schema.filter fun spec => spec.AbsentFrom b.record.params).map fun spec => .missingParameter spec.name

/-- A table and a document that list what is stored, for a type that is not known. -/
structure ListsStored (b : Brief) (t : SpecTable) (d : Document) : Prop where
  rows : ∃ front actions back, b.actionRows = .ok actions ∧
    t.rows = front ++
      (b.record.params.entries.map fun e => ⟨e.1, valueText e.2, "Not in the registry; shown as stored"⟩) ++
      actions ++ back
  bullets : ∃ front back,
    d.lines = front ++ "" :: "## 3. Indicator computation" :: "" ::
      "Unknown strategy type: no indicator formula is available." ::
      (if b.record.params.entries = [] then "No parameters were stored with the record."
        else "Stored parameters, as recorded:") ::
      (b.record.params.entries.map fun e => "- " ++ s!"`{e.1}` = {valueText e.2}") ++
      "" :: "## 4. Signal logic" :: "" :: back
  diagnostics : b.record.diagnostics = b.record.malformedMark ++ [.unknownVariant b.record.type]
  nothing_missing : ∀ name, .missingParameter name ∉ b.record.diagnostics

variable {b : Brief} {t : SpecTable} {d : Document}

/-- The table and the document of a known type list its parameters. -/
theorem listsParameters {v : Variant} (hv : Variant.resolve b.record.type = .ok v) (ht : b.table = .ok t)
    (hd : b.document = .ok d) : b.ListsParameters v t d where
  rows := by
    have hrows : b.record.shownParameters =
        v.schema.map fun spec => ⟨spec.name, spec.textIn b.record.params, spec.description⟩ := by
      simp only [StrategyRecord.shownParameters, hv]
      rfl
    exact hrows ▸ exists_rows_eq ht
  bullets := computation_body hv ▸ exists_lines_eq hd
  undefined_iff := fun _ _ => ParamSpec.textIn_eq_undefinedText_iff
  missing_iff := fun _ hspec => StrategyRecord.missingParameter_mem_diagnostics_iff hv hspec
  diagnostics := StrategyRecord.diagnostics_eq hv

/-- Those of an unknown type list what is stored. -/
theorem listsStored {unknown : UnknownType} (hunknown : Variant.resolve b.record.type = .error unknown)
    (ht : b.table = .ok t) (hd : b.document = .ok d) : b.ListsStored t d where
  rows := by
    have hrows : b.record.shownParameters =
        b.record.params.entries.map fun e => ⟨e.1, valueText e.2, "Not in the registry; shown as stored"⟩ := by
      simp only [StrategyRecord.shownParameters, hunknown]
    exact hrows ▸ exists_rows_eq ht
  bullets := computation_body_unknown hunknown ▸ exists_lines_eq hd
  diagnostics := StrategyRecord.diagnostics_eq_unknown hunknown
  nothing_missing := by
    intro name
    rw [StrategyRecord.diagnostics_eq_unknown hunknown]
    simp [StrategyRecord.missingParameter_notMem_malformedMark]

end Brief

/-- On the standard terms every record has a table and a document. -/
theorem StrategyRecord.exists_table_document (r : StrategyRecord) (interval dataSource : String) :
    ∃ t d,
      (r.standardBrief interval dataSource).table = .ok t ∧ (r.standardBrief interval dataSource).document = .ok d := by
  obtain ⟨actions, hactions, -⟩ := Brief.exists_actionRows _ (Brief.pairSide_standardBrief r interval dataSource)
  obtain ⟨fees, hfees, -⟩ := (r.standardBrief interval dataSource).exists_feeRows rfl
  obtain ⟨execution, hexecution⟩ := Brief.exists_execution_standardBrief r interval dataSource
  obtain ⟨feeLines, hfeeLines⟩ := Brief.exists_feeSection_standardBrief r interval dataSource
  obtain ⟨t, ht⟩ : ∃ t, (r.standardBrief interval dataSource).table = .ok t :=
    exists_bind_eq_ok hactions <| exists_bind_eq_ok hfees ⟨_, rfl⟩
  obtain ⟨d, hd⟩ : ∃ d, (r.standardBrief interval dataSource).document = .ok d :=
    exists_bind_eq_ok hexecution <| exists_bind_eq_ok hfeeLines ⟨_, rfl⟩
  exact ⟨t, d, ht, hd⟩

/-- **The outputs agree on every parameter.** A record has a table and a document on the standard
terms. On any terms, where it has both they show its diagnostics. For a known type they list the
parameters of the type, component by component, and each has one text for its value in its row, its
bullet and the sentence of its component. The text is `undefined` exactly for a parameter that has
no spelling among the stored keys, and these are the ones that the diagnostics report. For an
unknown type they list what is stored, and the diagnostics report the type and no parameter. -/
theorem outputs_agree_on_parameters (r : StrategyRecord) :
    (∀ interval dataSource, ∃ t d,
      (r.standardBrief interval dataSource).table = .ok t ∧ (r.standardBrief interval dataSource).document = .ok d) ∧
    ∀ terms t d, (Brief.mk r terms).table = .ok t → (Brief.mk r terms).document = .ok d →
      t.diagnostics = r.diagnostics ∧ d.warnings = r.diagnostics.map Diagnostic.message ∧
      (∀ v, Variant.resolve r.type = .ok v → (Brief.mk r terms).ListsParameters v t d) ∧
      ∀ unknown, Variant.resolve r.type = .error unknown → (Brief.mk r terms).ListsStored t d :=
  ⟨r.exists_table_document, fun _ _ _ ht hd => ⟨Brief.diagnostics_of_table ht, Brief.warnings_of_document hd,
    fun _ hv => Brief.listsParameters hv ht hd, fun _ hunknown => Brief.listsStored hunknown ht hd⟩⟩

/-- An RSI that lacks its lower level, and a type that is not known, with the same stored
parameters. -/
theorem outputs_agree_on_parameters_rsi :
    let record (type : String) : Json := .object [("strategy_name", .string "N"), ("strategy_type", .string type)]
    let params : ParamSet := .ofList [("rsi_period", 14), ("overbought", 70)]
    ∃ rsi other, StrategyRecord.ofJson (record "rsi") = .ok rsi ∧ StrategyRecord.ofJson (record "zigzag") = .ok other ∧
      let known := ({ rsi with params } : StrategyRecord).standardBrief "15m" "Binance"
      let unknown := ({ other with params } : StrategyRecord).standardBrief "15m" "Binance"
      (∃ t d, known.table = .ok t ∧ known.document = .ok d ∧ known.ListsParameters VariantTag.rsi.variant t d ∧
        .missingParameter "oversold" ∈ t.diagnostics ∧ .missingParameter "period" ∉ t.diagnostics) ∧
      ∃ t d, unknown.table = .ok t ∧ unknown.document = .ok d ∧ unknown.ListsStored t d := by
  intro record params
  obtain ⟨rsi, hrsi, hknown⟩ : ∃ r : StrategyRecord, StrategyRecord.ofJson (record "rsi") = .ok r ∧
      Variant.resolve r.type = .ok VariantTag.rsi.variant := ⟨_, rfl, rfl⟩
  obtain ⟨other, hother, hunknown⟩ : ∃ r : StrategyRecord, StrategyRecord.ofJson (record "zigzag") = .ok r ∧
      Variant.resolve r.type = .error ⟨"zigzag"⟩ := ⟨_, rfl, rfl⟩
  let lower : ParamSpec := ⟨"oversold", .oversold, ["rsi_oversold", "rsi_os"], Schema.rsiOversoldText⟩
  let period : ParamSpec := ⟨"period", .period, ["rsi_period"], Schema.rsiPeriodText⟩
  have hspecs : lower ∈ VariantTag.rsi.variant.schema ∧ period ∈ VariantTag.rsi.variant.schema := by decide +kernel
  have habsent : lower.AbsentFrom params ∧ ¬ period.AbsentFrom params := by decide +kernel
  refine ⟨rsi, other, hrsi, hother, ?_, ?_⟩
  · obtain ⟨hexists, hagree⟩ := outputs_agree_on_parameters { rsi with params }
    obtain ⟨t, d, ht, hd⟩ := hexists "15m" "Binance"
    obtain ⟨hdiagnostics, -, hlists, -⟩ := hagree _ t d ht hd
    have hlists := hlists _ hknown
    refine ⟨t, d, ht, hd, hlists, ?_, ?_⟩
    · exact hdiagnostics ▸ (hlists.missing_iff lower hspecs.1).mpr habsent.1
    · exact hdiagnostics ▸ mt (hlists.missing_iff period hspecs.2).mp habsent.2
  · obtain ⟨hexists, hagree⟩ := outputs_agree_on_parameters { other with params }
    obtain ⟨t, d, ht, hd⟩ := hexists "15m" "Binance"
    obtain ⟨-, -, -, hstored⟩ := hagree _ t d ht hd
    exact ⟨t, d, ht, hd, hstored _ hunknown⟩

end BotSpec
