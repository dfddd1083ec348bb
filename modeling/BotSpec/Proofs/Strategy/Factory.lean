import BotSpec.Proofs.Catalogue.Canonical
import BotSpec.Proofs.Strategy.Period
import BotSpec.Proofs.Strategy.Warmup
import BotSpec.Report.Sections
import BotSpec.Report.Table

/-!
# Which parameters give a generator

Building the generator of a variant reads parameters one after the other, some in one branch per
indicator and some behind others. What comes of it can be said without the order of the branches:

> `factory_errors_are_exact`: a variant has a generator exactly if each of its parameters is
> accepted, and otherwise the error is about the first one that is not, in the order in which the
> catalogue lists them.

A parameter alone decides whether it is accepted, and how it is refused (`BoundParam.check`). That
building checks all parameters in that order, and refuses for no other reason, is
`verdict_ofVariant`: a formula reads the roles that its indicator has in the catalogue
(`verdict_ofComponent`), and no indicator or mode has anything left to refuse.
-/

namespace BotSpec

open Indicator

/-! ## One parameter -/

/-- Whether a formula counts bars with a parameter. -/
def ParamRole.isPeriod : ParamRole → Bool
  | .period | .fast | .slow | .signalPeriod | .atrPeriod | .smaPeriod => true
  | _ => false

namespace ParamRole

/-- What a role takes: a period, a factor above zero, or a level, which may be any value. -/
def Accepts (role : ParamRole) (x : Float) : Prop :=
  if role.isPeriod then ∃ n, IsPeriod x n else if role = .multiplier then 0 < x else True

/-- What is wrong with a value for a role. -/
def Refuses (role : ParamRole) (x : Float) (fault : ParamFault) : Prop :=
  if role.isPeriod then RefusesPeriod x fault else role = .multiplier ∧ ¬ 0 < x ∧ fault = .notPositive

/-- The fault that is found with a value. -/
def fault? (role : ParamRole) (x : Float) : Option ParamFault :=
  if role.isPeriod then
    match periodOf x with
    | .ok _ => none
    | .error fault => some fault
  else if role = .multiplier ∧ ¬ 0 < x then some .notPositive
  else none

/-- A role finds no fault with the values that it accepts. -/
theorem fault?_eq_none_iff {role : ParamRole} {x : Float} : role.fault? x = none ↔ role.Accepts x := by
  unfold fault? Accepts
  split
  next =>
    simp only [← periodOf_eq_ok_iff]
    cases periodOf x <;> simp
  next => simp

/-- The fault that it finds with another one is that of the first check that fails. -/
theorem fault?_eq_some_iff {role : ParamRole} {x : Float} {fault : ParamFault} :
    role.fault? x = some fault ↔ role.Refuses x fault := by
  unfold fault? Refuses
  split
  next =>
    rw [← periodOf_eq_error_iff]
    cases periodOf x <;> simp
  next => simp [and_assoc, eq_comm]

end ParamRole

namespace BoundParam

/-- A parameter with a value that its role takes. -/
def Accepted (b : BoundParam) : Prop := ∃ x, b.value = some x ∧ b.spec.role.Accepts x

/-- A parameter without a value is missing, one with a value may be invalid. The error has the
canonical name. -/
inductive Refused (b : BoundParam) : FormulaError → Prop where
  | missing (h : b.value = none) : Refused b (.missingParameter b.spec.name)
  | invalid {x : Float} {fault : ParamFault} (h : b.value = some x) (hfault : b.spec.role.Refuses x fault) :
      Refused b (.invalidParameter b.spec.name x fault)

/-- The check of one parameter. -/
def check (b : BoundParam) : Except FormulaError Unit :=
  match b.value with
  | none => .error (.missingParameter b.spec.name)
  | some x =>
    match b.spec.role.fault? x with
    | none => .ok ()
    | some fault => .error (.invalidParameter b.spec.name x fault)

/-- A parameter is checked successfully exactly if it is there and its role accepts it. -/
theorem check_eq_ok_iff {b : BoundParam} : b.check = .ok () ↔ b.Accepted := by
  unfold check Accepted
  cases b.value with
  | none => exact ⟨nofun, nofun⟩
  | some x =>
    simp only [Option.some_inj, exists_eq_left', ← ParamRole.fault?_eq_none_iff]
    cases b.spec.role.fault? x with
    | none => exact ⟨fun _ => rfl, fun _ => rfl⟩
    | some fault => exact ⟨nofun, nofun⟩

/-- Otherwise the error says whether it is missing or what is wrong with it. -/
theorem check_eq_error_iff {b : BoundParam} {e : FormulaError} : b.check = .error e ↔ b.Refused e := by
  unfold check
  constructor
  · intro h
    split at h
    next hnone =>
      cases h
      exact .missing hnone
    next x hsome =>
      split at h
      next => cases h
      next fault hfault =>
        cases h
        exact .invalid hsome (ParamRole.fault?_eq_some_iff.mp hfault)
  · rintro (hnone | ⟨hsome, hfault⟩)
    · rw [hnone]
    · simp only [hsome, ParamRole.fault?_eq_some_iff.mpr hfault]

end BoundParam

/-! ## One component -/

namespace ComponentParams

/-- The check of the parameter of a role. -/
def check (c : ComponentParams) (role : ParamRole) : Except FormulaError Unit :=
  match c.entry? role with
  | some b => b.check
  | none => .error (.missingParameter "?")

/-- The parameter of a role has that role. -/
theorem role_eq_of_entry {c : ComponentParams} {role : ParamRole} {b : BoundParam}
    (h : c.entry? role = some b) :
    b.spec.role = role := by
  have hfound := List.find?_some h
  exact of_decide_eq_true hfound

/-- Reading a period succeeds exactly where the check of its role does, with the same error. -/
theorem verdict_period (c : ComponentParams) {role : ParamRole} (hrole : role.isPeriod) :
    verdict (c.period role) = c.check role := by
  unfold period level get? name check
  cases hentry : c.entry? role with
  | none => rfl
  | some b =>
    have hb := role_eq_of_entry hentry
    simp only [Option.bind_some, BoundParam.check, ParamRole.fault?, hb, if_pos hrole]
    cases hvalue : b.value with
    | none => rfl
    | some x =>
      show verdict (match periodOf x with | .ok n => _ | .error fault => _) = _
      simp only
      cases periodOf x <;> rfl

theorem verdict_level (c : ComponentParams) {role : ParamRole} (hrole : role.isPeriod = false)
    (hfactor : role ≠ .multiplier) :
    verdict (c.level role) = c.check role := by
  unfold level get? name check
  cases hentry : c.entry? role with
  | none => rfl
  | some b =>
    have hb := role_eq_of_entry hentry
    simp only [Option.bind_some, BoundParam.check, ParamRole.fault?, hb, hrole, hfactor, false_and, if_false]
    cases b.value <;> rfl

theorem verdict_positive (c : ComponentParams) : verdict (c.positive .multiplier) = c.check .multiplier := by
  unfold positive level get? name check
  cases hentry : c.entry? .multiplier with
  | none => rfl
  | some b =>
    have hb := role_eq_of_entry hentry
    simp only [Option.bind_some, BoundParam.check, ParamRole.fault?, hb]
    cases b.value with
    | none => rfl
    | some x =>
      show verdict (if x > 0 then _ else _) = _
      by_cases hx : 0 < x
      · simp [ParamRole.isPeriod, hx, verdict, Except.map]
      · simp [ParamRole.isPeriod, hx, verdict, Except.map]

end ComponentParams

/-- An indicator that could be started gives no error. -/
theorem verdict_orZeroPeriod {β : Type} {make : β → Generator Float} {o : Option β} (h : o.isSome) :
    verdict (orZeroPeriod make o) = .ok () := by
  obtain ⟨s, rfl⟩ := Option.isSome_iff_exists.mp h
  rfl

/-- A period that was read is not zero. -/
theorem ne_zero_of_period {c : ComponentParams} {role : ParamRole} {n : Nat} (h : c.period role = .ok n) : n ≠ 0 := by
  obtain ⟨x, -, hx⟩ := ComponentParams.exists_value_of_period h
  exact Nat.ne_of_gt (isPeriod_of_periodOf hx).1

/-- **A generator is built if all roles of its indicator pass.** The checks are those of the
catalogue's roles in their order, and with periods that are not zero no window is left to be
refused. -/
theorem Generator.verdict_ofComponent {kind : IndicatorKind} (hkind : kind.isArbitrage = false)
    (c : ComponentParams) :
    verdict (ofComponent kind c) = forM kind.roles c.check := by
  -- parameters are read in the order of the roles, and a window is refused for a period of zero only
  cases kind with
  | rsi =>
    exact verdict_bind (c.verdict_period rfl) fun _ _ => verdict_bind (c.verdict_level rfl (by decide)) fun _ _ =>
      verdict_bind (c.verdict_level rfl (by decide)) fun _ _ => rfl
  | bollingerBands =>
    refine verdict_bind (c.verdict_period rfl) fun _ hperiod => verdict_bind c.verdict_positive fun _ _ =>
      verdict_orZeroPeriod ?_
    simp [Bollinger.start?, Deviation.start?, ne_zero_of_period hperiod]
  | macd =>
    refine verdict_bind (c.verdict_period rfl) fun _ hfast => verdict_bind (c.verdict_period rfl) fun _ hslow =>
      verdict_bind (c.verdict_period rfl) fun _ hline => verdict_orZeroPeriod ?_
    simp [Macd.start?, Divergence.start?, Ema.start?, ne_zero_of_period hfast, ne_zero_of_period hslow,
      ne_zero_of_period hline]
  | emaCrossover =>
    refine verdict_bind (c.verdict_period rfl) fun _ hfast => verdict_bind (c.verdict_period rfl) fun _ hslow =>
      verdict_orZeroPeriod ?_
    simp [EmaCrossover.start?, Ema.start?, ne_zero_of_period hfast, ne_zero_of_period hslow]
  | stochastic =>
    refine verdict_bind (c.verdict_period rfl) fun _ hperiod => verdict_bind (c.verdict_level rfl (by decide)) fun _ _ =>
      verdict_bind (c.verdict_level rfl (by decide)) fun _ _ => verdict_orZeroPeriod ?_
    simp [Stochastic.start?, Extremum.start?, ne_zero_of_period hperiod]
  | atrMeanReversion =>
    refine verdict_bind (c.verdict_period rfl) fun _ hrange => verdict_bind (c.verdict_period rfl) fun _ hmean =>
      verdict_bind c.verdict_positive fun _ _ => verdict_orZeroPeriod ?_
    simp [AtrReversion.start?, Sma.start?, ne_zero_of_period hrange, ne_zero_of_period hmean]
  | vwap => exact verdict_bind (c.verdict_period rfl) fun _ _ => rfl
  | obv =>
    refine verdict_bind (c.verdict_period rfl) fun _ hperiod => verdict_orZeroPeriod ?_
    simp [Obv.start?, Sma.start?, ne_zero_of_period hperiod]
  | williamsR =>
    refine verdict_bind (c.verdict_period rfl) fun _ hperiod => verdict_bind (c.verdict_level rfl (by decide)) fun _ _ =>
      verdict_bind (c.verdict_level rfl (by decide)) fun _ _ => verdict_orZeroPeriod ?_
    simp [WilliamsR.start?, Extremum.start?, ne_zero_of_period hperiod]
  | adx =>
    exact verdict_bind (c.verdict_period rfl) fun _ _ => verdict_bind (c.verdict_level rfl (by decide)) fun _ _ => rfl
  | gabagool => cases hkind

/-! ## Whole variants -/

namespace Variant

/-- The parameters of a component have the roles of its indicator, in the order of the formula. -/
theorem roles_eq {v : Variant} (hv : v ∈ all) {component : Component}
    (hcomponent : component ∈ v.components) :
    component.params.map ParamSpec.role = component.indicator.roles := by
  revert component
  revert v
  decide +kernel

theorem nodup_roles (kind : IndicatorKind) : kind.roles.Nodup := by cases kind <;> decide

/-- A mode has as many components as it composes. -/
theorem admits_length {v : Variant} (hv : v ∈ all) {mode : CompositionMode} (hmode : v.mode = some mode) :
    mode.misfit? v.components.length = none := by
  revert mode
  revert v
  decide +kernel

theorem components_ne_nil {v : Variant} (hv : v ∈ all) : v.components ≠ [] := by
  revert v
  decide +kernel

theorem entry?_bind {component : Component} (hnodup : (component.params.map ParamSpec.role).Nodup) (p : ParamSet)
    {spec : ParamSpec} (hspec : spec ∈ component.params) :
    ComponentParams.entry? (component.bind p) spec.role = some (spec.bind p) := by
  have hfind : (component.params.find? fun other => other.role = spec.role) = some spec := by
    cases hfound : component.params.find? fun other => other.role = spec.role with
    | none => exact absurd (decide_eq_true rfl) (List.find?_eq_none.mp hfound spec hspec)
    | some other =>
      have hrole : other.role = spec.role := by simpa using List.find?_some hfound
      rw [List.inj_on_of_nodup_map hnodup (List.mem_of_find?_eq_some hfound) hspec hrole]
  unfold ComponentParams.entry? Component.bind
  rw [List.find?_map]
  exact congrArg (Option.map _) hfind

/-- The roles of an indicator lead to all parameters of its component. -/
theorem forM_check {v : Variant} (hv : v ∈ all) (p : ParamSet) {component : Component}
    (hcomponent : component ∈ v.components) :
    forM component.indicator.roles (component.bind p).check = forM (component.bind p).values BoundParam.check := by
  have hroles := roles_eq hv hcomponent
  have hnodup : (component.params.map ParamSpec.role).Nodup := hroles ▸ nodup_roles component.indicator
  have hvalues : (component.bind p).values = component.params.map fun spec => spec.bind p := rfl
  rw [← hroles, hvalues, List.forM_map, List.forM_map]
  refine forM_congr fun spec hspec => ?_
  rw [ComponentParams.check, entry?_bind hnodup p hspec]

/-- **The generators of a variant check all its parameters**, component by component. -/
theorem verdict_generators {v : Variant} (hv : v ∈ all) (hdirectional : v.isArbitrage = false)
    (p : ParamSet) :
    verdict (v.generators (v.canonicalize p)) = forM (v.canonicalize p).all BoundParam.check := by
  have hzip : v.components.zip (v.canonicalize p).components = v.components.map fun c => (c, c.bind p) := by
    rw [canonicalize, List.zip_eq_zipWith, List.zipWith_map_right, List.zipWith_self]
  rw [generators, verdict_mapM, hzip, List.forM_map, CanonicalParams.all, forM_flatMap, canonicalize, List.forM_map]
  refine forM_congr fun c hc => ?_
  have hkind : c.indicator.isArbitrage = false := by
    rw [isArbitrage, List.any_eq_false] at hdirectional
    simpa using hdirectional c hc
  rw [Generator.verdict_ofComponent hkind, forM_check hv p hc]

/-- The components' generators are all that a variant's generator needs. -/
theorem verdict_ofVariant {v : Variant} (hv : v ∈ all) (hdirectional : v.isArbitrage = false) (p : ParamSet) :
    verdict (VariantGenerator.ofVariant v (v.canonicalize p)) = forM (v.canonicalize p).all BoundParam.check := by
  refine verdict_bind_ok (verdict_generators hv hdirectional p) fun parts hparts => ?_
  have hlength : parts.length = v.components.length := by
    rw [← (mapM_eq_ok_iff.mp hparts).length_eq, canonicalize, List.length_zip, List.length_map, Nat.min_self]
  cases hmode : v.mode with
  | some mode =>
    have hadmits := hlength ▸ admits_length hv hmode
    simp only [Combo.ofParts_eq_ok_iff.mpr ⟨CompositionMode.misfit?_eq_none_iff.mp hadmits, rfl⟩]
    exact ⟨_, rfl⟩
  | none =>
    have hne : parts ≠ [] := fun hnil => components_ne_nil hv (List.length_eq_zero_iff.mp (by rw [← hlength, hnil]; rfl))
    simp only [List.getLast?_eq_some_getLast hne]
    exact ⟨_, rfl⟩

end Variant

/-! ## Errors and diagnostics -/

namespace CanonicalParams

/-- An error about the first parameter that is not accepted. -/
def FirstRefusal (params : CanonicalParams) (e : FormulaError) : Prop :=
  ∃ before b after, params.all = before ++ b :: after ∧ (∀ a ∈ before, a.Accepted) ∧ b.Refused e

/-- The missing parameters are those without a value. -/
theorem mem_missing_iff {params : CanonicalParams} {name : String} :
    name ∈ params.missing ↔ ∃ b ∈ params.all, b.value = none ∧ b.spec.name = name := by
  simp [missing, and_assoc]

/-- Parameters that are accepted are not missing. -/
theorem missing_eq_nil {params : CanonicalParams} (h : ∀ b ∈ params.all, b.Accepted) : params.missing = [] := by
  refine List.eq_nil_iff_forall_not_mem.mpr fun name hname => ?_
  obtain ⟨b, hb, hnone, -⟩ := mem_missing_iff.mp hname
  obtain ⟨x, hsome, -⟩ := h b hb
  rw [hnone] at hsome
  cases hsome

/-- An error about a missing parameter is about one that is missing. -/
theorem FirstRefusal.mem_missing {params : CanonicalParams} {name : String}
    (h : params.FirstRefusal (.missingParameter name)) : name ∈ params.missing := by
  obtain ⟨before, b, after, hall, -, hrefused⟩ := h
  cases hrefused with
  | missing hnone => exact mem_missing_iff.mpr ⟨b, by rw [hall]; simp, hnone, rfl⟩

end CanonicalParams

/-- What is missing of a known type's parameters is among the diagnostics. -/
theorem StrategyRecord.mem_diagnostics_of_mem_missing {r : StrategyRecord} {v : Variant}
    (htype : Variant.resolve r.type = .ok v) {name : String} (h : name ∈ (v.canonicalize r.params).missing) :
    .missingParameter name ∈ r.diagnostics := by
  simp only [diagnostics, subjectDiagnostics, subject, htype]
  exact List.mem_append_right _ (List.mem_map_of_mem h)

namespace Brief

variable {b : Brief}

/-- A table carries the diagnostics of its record. -/
theorem diagnostics_of_table {t : SpecTable} (h : b.table = .ok t) : t.diagnostics = b.record.diagnostics := by
  obtain ⟨actions, -, h⟩ := exists_of_bind_eq_ok h
  obtain ⟨fees, -, h⟩ := exists_of_bind_eq_ok h
  cases h
  rfl

/-- A document carries them as warnings. -/
theorem warnings_of_document {d : Document} (h : b.document = .ok d) :
    d.warnings = b.record.diagnostics.map Diagnostic.message := by
  obtain ⟨execution, -, h⟩ := exists_of_bind_eq_ok h
  obtain ⟨fees, -, h⟩ := exists_of_bind_eq_ok h
  cases h
  rfl

end Brief

/-- **The errors of the factory.** A variant without the arbitrage has a generator for a set of
parameters exactly if each of its parameters is accepted. Otherwise the error is about the first one
that is not: it is missing, or its value is invalid, and no other error is possible. So nothing is
missing where a generator is built, and a missing parameter that keeps one from being built is
reported in the table and in the document of every record with this type and these parameters. -/
theorem factory_errors_are_exact {v : Variant} (hv : v ∈ Variant.all)
    (hdirectional : v.isArbitrage = false) (p : ParamSet) :
    ((∃ g, VariantGenerator.ofVariant v (v.canonicalize p) = .ok g) ↔ ∀ b ∈ (v.canonicalize p).all, b.Accepted) ∧
    (∀ e, VariantGenerator.ofVariant v (v.canonicalize p) = .error e ↔ (v.canonicalize p).FirstRefusal e) ∧
    (∀ g, VariantGenerator.ofVariant v (v.canonicalize p) = .ok g → (v.canonicalize p).missing = []) ∧
    ∀ name, VariantGenerator.ofVariant v (v.canonicalize p) = .error (.missingParameter name) →
      name ∈ (v.canonicalize p).missing ∧
      ∀ b : Brief, Variant.resolve b.record.type = .ok v → b.record.params = p →
        (∀ t, b.table = .ok t → .missingParameter name ∈ t.diagnostics) ∧
        ∀ d, b.document = .ok d → (Diagnostic.missingParameter name).message ∈ d.warnings := by
  have hverdict := Variant.verdict_ofVariant hv hdirectional p
  have hok : (∃ g, VariantGenerator.ofVariant v (v.canonicalize p) = .ok g) ↔
      ∀ b ∈ (v.canonicalize p).all, b.Accepted := by
    rw [← verdict_eq_ok_iff, hverdict, forM_eq_ok_iff]
    simp only [BoundParam.check_eq_ok_iff]
  have herror : ∀ e, VariantGenerator.ofVariant v (v.canonicalize p) = .error e ↔
      (v.canonicalize p).FirstRefusal e := by
    intro e
    rw [← verdict_eq_error_iff, hverdict, forM_eq_error_iff]
    simp only [BoundParam.check_eq_ok_iff, BoundParam.check_eq_error_iff, CanonicalParams.FirstRefusal]
  refine ⟨hok, herror, fun g hg => CanonicalParams.missing_eq_nil (hok.mp ⟨g, hg⟩), fun name hname => ?_⟩
  have hmissing := ((herror _).mp hname).mem_missing
  refine ⟨hmissing, ?_⟩
  rintro b htype rfl
  have hdiagnostics := StrategyRecord.mem_diagnostics_of_mem_missing htype hmissing
  constructor
  · intro t ht
    rw [Brief.diagnostics_of_table ht]
    exact hdiagnostics
  · intro d hd
    rw [Brief.warnings_of_document hd]
    exact List.mem_map_of_mem hdiagnostics

/-- An RSI without its lower level, beside a band with a fractional period. The first of the two is
reported. -/
theorem factory_errors_are_exact_rsiBollinger :
    let v := VariantTag.rsiBollinger.variant
    let p := ParamSet.ofList [("rsi_period", 14), ("rsi_ob", 70), ("bb_period", 2.5), ("bb_mult", 2)]
    VariantGenerator.ofVariant v (v.canonicalize p) = .error (.missingParameter "rsi_oversold") ∧
      "rsi_oversold" ∈ (v.canonicalize p).missing ∧
      (v.canonicalize p).FirstRefusal (.missingParameter "rsi_oversold") ∧
      ¬ ∀ b ∈ (v.canonicalize p).all, b.Accepted := by
  intro v p
  obtain ⟨hok, herror, -, hreported⟩ := factory_errors_are_exact (v := v) (by decide) rfl p
  have hbuild : VariantGenerator.ofVariant v (v.canonicalize p) = .error (.missingParameter "rsi_oversold") := by rfl
  refine ⟨hbuild, (hreported _ hbuild).1, (herror _).mp hbuild, fun hall => ?_⟩
  obtain ⟨g, hg⟩ := hok.mpr hall
  rw [hbuild] at hg
  cases hg

end BotSpec
