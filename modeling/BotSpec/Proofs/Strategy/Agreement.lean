import BotSpec.Proofs.Strategy.Run
import BotSpec.Strategy.Evaluation

/-!
# The two evaluators agree

A variant can be evaluated in two ways. `evaluateLatest` runs all generators over the candles, keeps
the latest vote of each and composes once, at the end. `VariantGenerator.ofVariant` builds one
machine that composes on every bar. This file proves that both give the same answer on the last
candle, and fail for the same reason:

> `evaluateLatest_eq_replay`: the errors are the same, and otherwise action, composition and the
> primary's value are those of the variant's generator after the same candles.

Both sides are brought to the runs of the single generators: `foldl_stepAll` for the evaluator,
`Combo.replay_eq` for the machine. The errors agree because both build the generators in the same
order, and because composing fails only over the number of votes, which is the number of generators
on either side.
-/

namespace BotSpec

/-- The generators step side by side, each as if it were alone. -/
theorem foldl_stepAll (candles : List Candle) (gs : List (Generator Float)) :
    candles.foldl stepAll (gs.map fun g => (Signal.hold, g))
      = gs.map fun g => replay Generator.step g (candles.map Candle.bar) := by
  have hall : ∀ (candles : List Candle) (standings : List Standing),
      candles.foldl stepAll standings
        = standings.map fun s => candles.foldl (fun r c => r.2.step c.bar) s := by
    intro candles
    induction candles with
    | nil => intro standings; simp
    | cons c candles ih =>
      intro standings
      rw [List.foldl_cons, ih, stepAll, List.map_map]
      rfl
  rw [hall, List.map_map]
  simp only [Function.comp_def, replay, List.foldl_map]

/-- What each component of a variant reports, from the standings of its generators. -/
def componentReports (v : Variant) (standings : List Standing) : List ComponentVote :=
  (v.components.zip standings).map fun x => ⟨x.1.indicator, x.2.1, x.2.2.reading⟩

/-- With generators for all components, the latest decision is that of their votes after the replay
of all candles. -/
theorem evaluateLatest_eq {v : Variant} (hv : v.isArbitrage = false) {params : CanonicalParams}
    {gs : List (Generator Float)} (hgs : v.generators params = .ok gs) (candles : List Candle) :
    evaluateLatest v params candles =
      (let standings := gs.map fun g => replay Generator.step g (candles.map Candle.bar)
      let votes := standings.map fun s => s.1
      match v.mode with
      | none => .ok (.directional (componentReports v standings) none (votes.headD .hold))
      | some mode =>
        match Composition.compose mode votes with
        | .ok c => .ok (.directional (componentReports v standings) (some c) c.action)
        | .error e => .error (.composition e)) := by
  simp only [evaluateLatest, hv, hgs, bind, Except.bind, foldl_stepAll, Bool.false_eq_true, if_false]
  rfl

/-- Without a generator for each component there is no decision. -/
theorem evaluateLatest_eq_error {v : Variant} (hv : v.isArbitrage = false)
    {params : CanonicalParams} {e : FormulaError} (he : v.generators params = .error e)
    (candles : List Candle) : evaluateLatest v params candles = .error e := by
  simp [evaluateLatest, hv, he, bind, Except.bind]

/-- The generator of a variant fails for the same reason. -/
theorem ofVariant_eq_error {v : Variant} {params : CanonicalParams} {e : FormulaError}
    (he : v.generators params = .error e) : VariantGenerator.ofVariant v params = .error e := by
  simp [VariantGenerator.ofVariant, he, bind, Except.bind]

/-- The first report is about the first generator. -/
theorem head?_componentReports {v : Variant} {params : CanonicalParams}
    {g : Generator Float} {gs : List (Generator Float)}
    (hgs : v.generators params = .ok (g :: gs)) (bars : List (Bar Float)) :
    ∃ first,
      (componentReports v ((g :: gs).map fun g => replay Generator.step g bars)).head? = some first ∧
      first.value = (replay Generator.step g bars).2.reading := by
  cases hc : v.components with
  | nil =>
    simp [Variant.generators, hc, pure, Except.pure] at hgs
  | cons c cs =>
    exact ⟨⟨c.indicator, (replay Generator.step g bars).1, (replay Generator.step g bars).2.reading⟩,
      by simp [componentReports, hc], rfl⟩

/-- What it means that an evaluation of a variant says what its generator says after a run: the same
action, the same composition (for a composite, and only for one), and the generator's reading as the
value of the first component. -/
def Evaluation.Reports (evaluation : Evaluation) (v : Variant)
    (r : Signal × VariantGenerator Float) : Prop :=
  ∃ votes composition action,
    evaluation = .directional votes composition action ∧ action = r.1 ∧ composition = r.2.last ∧
      composition.isSome = v.mode.isSome ∧
      ∃ first, votes.head? = some first ∧ first.value = r.2.reading

/-- A variant with one component: the action is its vote, and there is nothing to compose. -/
theorem atomic_agrees {v : Variant} (hv : v.isArbitrage = false) {c : Component}
    (hm : v.makeup = .atomic c) (params : ParamSet) {gs : List (Generator Float)}
    (hgs : v.generators (v.canonicalize params) = .ok gs) (candles : List Candle) :
    ∃ evaluation generator,
      evaluateLatest v (v.canonicalize params) candles = .ok evaluation ∧
      VariantGenerator.ofVariant v (v.canonicalize params) = .ok generator ∧
      evaluation.Reports v (replay VariantGenerator.step generator (candles.map Candle.bar)) := by
  have hone : ∃ g, gs = [g] := by
    simp only [Variant.generators, Variant.canonicalize, Variant.components, hm, List.map_cons,
      List.map_nil, List.zip_cons_cons, List.zip_nil_left, List.mapM_cons, List.mapM_nil] at hgs
    cases hg : Generator.ofComponent c.indicator (c.bind params) with
    | error e => rw [hg] at hgs; cases hgs
    | ok g =>
      rw [hg] at hgs
      cases hgs
      exact ⟨g, rfl⟩
  obtain ⟨g, rfl⟩ := hone
  have hmode : v.mode = none := by simp [Variant.mode, hm]
  refine ⟨_, .atomic g, by rw [evaluateLatest_eq hv hgs, hmode], ?_, ?_⟩
  · simp [VariantGenerator.ofVariant, hgs, hmode, bind, Except.bind, pure, Except.pure]
  · obtain ⟨first, hhead, hvalue⟩ := head?_componentReports hgs (candles.map Candle.bar)
    rw [VariantGenerator.replay_atomic]
    exact ⟨_, _, _, rfl, rfl, rfl, by rw [hmode]; rfl, first, hhead, hvalue⟩

/-- A composite: either it has a number of components that the mode cannot compose, or it is
composed. -/
theorem composite_agrees {v : Variant} (hv : v.isArbitrage = false) {mode : CompositionMode}
    (hmode : v.mode = some mode) {params : CanonicalParams} {gs : List (Generator Float)}
    (hgs : v.generators params = .ok gs) {candles : List Candle} (hne : candles ≠ []) :
    (∃ e, evaluateLatest v params candles = .error e ∧ VariantGenerator.ofVariant v params = .error e) ∨
    ∃ evaluation generator,
      evaluateLatest v params candles = .ok evaluation ∧
      VariantGenerator.ofVariant v params = .ok generator ∧
      evaluation.Reports v (replay VariantGenerator.step generator (candles.map Candle.bar)) := by
  have heval := evaluateLatest_eq hv hgs candles
  simp only [hmode, List.map_map, Function.comp_def] at heval
  have hstart : VariantGenerator.ofVariant v params
      = (Combo.ofParts v.name gs mode).map VariantGenerator.composite := by
    simp only [VariantGenerator.ofVariant, hgs, hmode, bind, Except.bind, pure, Except.pure]
    cases Combo.ofParts v.name gs mode <;> rfl
  -- composing the holds that a combo is tried with fails exactly as composing the real votes does
  have hlen : (gs.map fun _ => Signal.hold).length
      = (gs.map fun g => (replay Generator.step g (candles.map Candle.bar)).1).length := by
    rw [List.length_map, List.length_map]
  cases hc : Composition.compose mode
      (gs.map fun g => (replay Generator.step g (candles.map Candle.bar)).1) with
  | error e =>
    left
    have hholds := (Composition.compose_eq_error_iff_of_length_eq hlen mode e).mpr hc
    refine ⟨.composition e, by rw [heval, hc], ?_⟩
    rw [hstart, Combo.ofParts, Combo.start, hholds]
    rfl
  | ok composition =>
    right
    have hfits := Composition.misfit?_eq_none_of_compose_eq_ok hc
    obtain ⟨holds, hholds⟩ := Composition.exists_compose_eq_ok (hlen.symm ▸ hfits)
    have hcombo : Combo.start v.name gs mode = .ok ⟨v.name, gs, mode, none⟩ := by
      rw [Combo.start, hholds]
    have hgen : VariantGenerator.ofVariant v params
        = .ok (.composite ⟨v.name, gs, mode, none⟩) := by
      rw [hstart, Combo.ofParts, hcombo]
      rfl
    refine ⟨_, _, by rw [heval, hc], hgen, ?_⟩
    have hbars : candles.map Candle.bar ≠ [] := by simpa using hne
    obtain ⟨composition', hcomp, hreplay⟩ :=
      Combo.replay_eq (Combo.fits_of_start hcombo).1 hbars
    have heq : composition' = composition := Except.ok.inj (hcomp.symm.trans hc)
    subst heq
    cases gs with
    | nil => simp [Composition.compose] at hc
    | cons g gs =>
      obtain ⟨first, hhead, hvalue⟩ := head?_componentReports hgs (candles.map Candle.bar)
      rw [VariantGenerator.replay_composite, hreplay]
      exact ⟨_, _, _, rfl, rfl, rfl, by rw [hmode]; rfl, first, hhead, hvalue⟩

/-- **The two evaluators agree.** Whatever the parameters are, evaluating the candles and building
the generator fail with the same error or not at all; and then the evaluation reports what the
generator says on the last candle. -/
theorem evaluateLatest_eq_replay (v : Variant) (hv : v.isArbitrage = false) (params : ParamSet)
    (candles : List Candle) (hne : candles ≠ []) :
    (∀ e, evaluateLatest v (v.canonicalize params) candles = .error e ↔
        VariantGenerator.ofVariant v (v.canonicalize params) = .error e) ∧
    ∀ evaluation generator,
      evaluateLatest v (v.canonicalize params) candles = .ok evaluation →
      VariantGenerator.ofVariant v (v.canonicalize params) = .ok generator →
      evaluation.Reports v (replay VariantGenerator.step generator (candles.map Candle.bar)) := by
  -- both build the generators first, and what follows is told by the makeup of the variant
  have hagree : (∃ e, evaluateLatest v (v.canonicalize params) candles = .error e ∧
        VariantGenerator.ofVariant v (v.canonicalize params) = .error e) ∨
      ∃ evaluation generator,
        evaluateLatest v (v.canonicalize params) candles = .ok evaluation ∧
        VariantGenerator.ofVariant v (v.canonicalize params) = .ok generator ∧
        evaluation.Reports v (replay VariantGenerator.step generator (candles.map Candle.bar)) := by
    cases hgs : v.generators (v.canonicalize params) with
    | error e => exact Or.inl ⟨e, evaluateLatest_eq_error hv hgs candles, ofVariant_eq_error hgs⟩
    | ok gs =>
      cases hm : v.makeup with
      | atomic c => exact Or.inr (atomic_agrees hv hm params hgs candles)
      | composite cs mode =>
        have hmode : v.mode = some mode := by simp [Variant.mode, hm]
        exact composite_agrees hv hmode hgs hne
  rcases hagree with ⟨e, heval, hgen⟩ | ⟨evaluation, generator, heval, hgen, hreports⟩
  · rw [heval, hgen]
    refine ⟨fun e' => by simp, ?_⟩
    intro evaluation generator h
    cases h
  · rw [heval, hgen]
    refine ⟨fun e => by simp, ?_⟩
    intro evaluation' generator' h h'
    cases h
    cases h'
    exact hreports

/-- Two candles of a primary with a confirmer: both evaluators succeed, and agree. -/
theorem evaluateLatest_eq_replay_vwapRsi :
    let v := VariantTag.vwapRsi.variant
    let params := ParamSet.ofList
      [("vwap_period", 2), ("rsi_period", 1), ("rsi_ob", 70), ("rsi_oversold", 30)]
    let candles : List Candle :=
      [⟨.ofDigits 100 0, .ofDigits 110 0, .ofDigits 90 0, .ofDigits 1005 1, .ofDigits 7 0⟩,
        ⟨.ofDigits 100 0, .ofDigits 111 0, .ofDigits 90 0, .ofDigits 1105 1, .ofDigits 8 0⟩]
    v.isArbitrage = false ∧ candles ≠ [] ∧
      ∃ evaluation generator,
        evaluateLatest v (v.canonicalize params) candles = .ok evaluation ∧
        VariantGenerator.ofVariant v (v.canonicalize params) = .ok generator ∧
        evaluation.Reports v (replay VariantGenerator.step generator (candles.map Candle.bar)) := by
  intro v params candles
  have hv : v.isArbitrage = false := by decide
  have hne : candles ≠ [] := by simp [candles]
  obtain ⟨-, hagree⟩ := evaluateLatest_eq_replay v hv params candles hne
  have hboth : (evaluateLatest v (v.canonicalize params) candles).isOk = true ∧
      (VariantGenerator.ofVariant v (v.canonicalize params)).isOk = true := by decide +kernel
  refine ⟨hv, hne, ?_⟩
  cases heval : evaluateLatest v (v.canonicalize params) candles with
  | error e => simp [heval, Except.isOk, Except.toBool] at hboth
  | ok evaluation =>
    cases hgen : VariantGenerator.ofVariant v (v.canonicalize params) with
    | error e => simp [hgen, Except.isOk, Except.toBool] at hboth
    | ok generator => exact ⟨evaluation, generator, rfl, rfl, hagree _ _ heval hgen⟩

end BotSpec
