import BotSpec.Proofs.Catalogue.Canonical
import BotSpec.Proofs.Outcome
import BotSpec.Proofs.Strategy.Agreement

/-!
# Components do not see each other

The components of a composite share candles and nothing else. Each one reads parameters of its own,
under spellings that no other component has, and its generator runs on these alone:

> `key_reaches_one_component`: a key that changes, comes or goes in the stored parameters changes
> one parameter of one component at most, and every other component reports the same vote and the
> same value.

An evaluation lists its reports in the order of the components, and the report at a place depends on
the parameters at that place (`getElem?_votes_eq`). That the parameters of all places but one are
the same is what `exists_canonicalize_eq_withValue` says.
-/

namespace BotSpec

/-- The reports of the components, in their order; an arbitrage has none. -/
def Evaluation.votes : Evaluation → List ComponentVote
  | .directional votes _ _ => votes
  | .arbitrage _ => []

namespace CanonicalParams

/-- Another value at one component leaves the parameters of the others. -/
theorem getElem?_components_withValue (params : CanonicalParams) {component i : Nat} (hne : i ≠ component) (place : Nat)
    (value : Option Float) : (params.withValue component place value).components[i]? = params.components[i]? := by
  rw [withValue, List.getElem?_modify]
  simp [Ne.symm hne]

end CanonicalParams

section Reports

variable {v : Variant} {params params' : CanonicalParams} {candles : List Candle} {evaluation evaluation' : Evaluation}

/-- A directional variant that is evaluated has generators, and reports what they say after the
candles. -/
theorem exists_generators_of_evaluateLatest (hv : v.isArbitrage = false)
    (h : evaluateLatest v params candles = .ok evaluation) :
    ∃ gs, v.generators params = .ok gs ∧
      evaluation.votes = componentReports v (gs.map fun g => replay Generator.step g (candles.map Candle.bar)) := by
  cases hgs : v.generators params with
  | error e =>
    rw [evaluateLatest_eq_error hv hgs] at h
    cases h
  | ok gs =>
    rw [evaluateLatest_eq hv hgs] at h
    refine ⟨gs, rfl, ?_⟩
    cases hmode : v.mode with
    | none =>
      rw [hmode] at h
      cases h
      rfl
    | some mode =>
      simp only [hmode] at h
      split at h
      next =>
        cases h
        rfl
      next => cases h

/-- The generator at a place is built from the parameters at that place. -/
theorem getElem?_generators_eq {gs gs' : List (Generator Float)} (hgs : v.generators params = .ok gs)
    (hgs' : v.generators params' = .ok gs') {i : Nat} (h : params'.components[i]? = params.components[i]?) :
    gs'[i]? = gs[i]? := by
  have hzip : (v.components.zip params'.components)[i]? = (v.components.zip params.components)[i]? := by
    rw [List.zip_eq_zipWith, List.zip_eq_zipWith, List.getElem?_zipWith, List.getElem?_zipWith, h]
  have hbuilt := getElem?_of_mapM hgs i
  rw [← hzip, getElem?_of_mapM hgs' i] at hbuilt
  exact Option.map_injective (fun _ _ => Except.ok.inj) hbuilt

/-- The report at a place depends on the parameters at that place. -/
theorem getElem?_votes_eq (hv : v.isArbitrage = false) (heval : evaluateLatest v params candles = .ok evaluation)
    (heval' : evaluateLatest v params' candles = .ok evaluation') {i : Nat}
    (h : params'.components[i]? = params.components[i]?) : evaluation'.votes[i]? = evaluation.votes[i]? := by
  obtain ⟨gs, hgs, hvotes⟩ := exists_generators_of_evaluateLatest hv heval
  obtain ⟨gs', hgs', hvotes'⟩ := exists_generators_of_evaluateLatest hv heval'
  rw [hvotes, hvotes', componentReports, componentReports, List.getElem?_map, List.getElem?_map, List.zip_eq_zipWith,
    List.zip_eq_zipWith, List.getElem?_zipWith, List.getElem?_zipWith, List.getElem?_map, List.getElem?_map,
    getElem?_generators_eq hgs hgs' h]

/-- There is one report for each component. -/
theorem length_votes {p : ParamSet} (hv : v.isArbitrage = false)
    (h : evaluateLatest v (v.canonicalize p) candles = .ok evaluation) : evaluation.votes.length = v.components.length := by
  obtain ⟨gs, hgs, hvotes⟩ := exists_generators_of_evaluateLatest hv h
  have hlength := (mapM_eq_ok_iff.mp hgs).length_eq
  rw [Variant.canonicalize, List.length_zip, List.length_map, Nat.min_self] at hlength
  rw [hvotes, componentReports, List.length_map, List.length_zip, List.length_map, ← hlength, Nat.min_self]

end Reports

/-- **A key reaches one component.** Two sets of parameters that agree on all keys but one bind a
variant to the same parameters but for one value of one component, and every other component of a
directional variant reports the same on the same candles. Parameters that are stored again under
their canonical names are bound as before. -/
theorem key_reaches_one_component {v : Variant} (hv : v ∈ Variant.all) {key : String} {p q : ParamSet}
    (h : p.AgreeExcept key q) :
    (∃ component place value, v.canonicalize q = (v.canonicalize p).withValue component place value ∧
      (v.isArbitrage = false → ∀ candles evaluation evaluation',
        evaluateLatest v (v.canonicalize p) candles = .ok evaluation →
        evaluateLatest v (v.canonicalize q) candles = .ok evaluation' →
        evaluation.votes.length = v.components.length ∧ evaluation'.votes.length = v.components.length ∧
          ∀ i, i ≠ component → evaluation'.votes[i]? = evaluation.votes[i]?)) ∧
    v.canonicalize (v.canonicalize p).toParamSet = v.canonicalize p ∧
    (v.canonicalize (v.canonicalize p).toParamSet).missing = (v.canonicalize p).missing := by
  have hagain := Variant.canonicalize_toParamSet hv p
  refine ⟨?_, hagain, by rw [hagain]⟩
  obtain ⟨component, place, value, hq⟩ := Variant.exists_canonicalize_eq_withValue hv h
  refine ⟨component, place, value, hq, fun hdirectional candles evaluation evaluation' heval heval' => ?_⟩
  refine ⟨length_votes hdirectional heval, length_votes hdirectional heval', fun i hne => ?_⟩
  refine getElem?_votes_eq hdirectional heval heval' ?_
  rw [hq, CanonicalParams.getElem?_components_withValue _ hne]

/-- A VWAP that an RSI confirms, with two settings of the RSI's period. On the same candles the VWAP
says the same. -/
theorem key_reaches_one_component_rsiPeriod :
    let v := VariantTag.vwapRsi.variant
    let p := ParamSet.ofList [("vwap_period", 2), ("rsi_period", 1), ("rsi_ob", 70), ("rsi_oversold", 30)]
    let q := p.insert "rsi_period" 2
    let candles : List Candle :=
      [⟨.ofDigits 100 0, .ofDigits 110 0, .ofDigits 90 0, .ofDigits 1005 1, .ofDigits 7 0⟩,
        ⟨.ofDigits 100 0, .ofDigits 111 0, .ofDigits 90 0, .ofDigits 1105 1, .ofDigits 8 0⟩]
    v.canonicalize q ≠ v.canonicalize p ∧
      ∃ evaluation evaluation', evaluateLatest v (v.canonicalize p) candles = .ok evaluation ∧
        evaluateLatest v (v.canonicalize q) candles = .ok evaluation' ∧
        evaluation.votes.length = 2 ∧ evaluation'.votes[0]? = evaluation.votes[0]? := by
  intro v p q candles
  have hagree : p.AgreeExcept "rsi_period" q := fun other hne => by rw [ParamSet.get?_insert, if_neg hne]
  obtain ⟨⟨component, place, value, hq, hothers⟩, -, -⟩ := key_reaches_one_component (v := v) (by decide) hagree
  have hperiods : (((v.canonicalize q).components[1]?.bind fun c => c.get? .period).map Float.toUInt64 = some 2) ∧
      ((v.canonicalize p).components[1]?.bind fun c => c.get? .period).map Float.toUInt64 = some 1 := by decide +kernel
  have hrsi : component = 1 := by
    by_contra hne
    rw [hq, CanonicalParams.getElem?_components_withValue _ (Ne.symm hne), hperiods.2] at hperiods
    cases hperiods.1
  have hboth : (evaluateLatest v (v.canonicalize p) candles).isOk = true ∧
      (evaluateLatest v (v.canonicalize q) candles).isOk = true := by decide +kernel
  refine ⟨fun heq => ?_, ?_⟩
  · rw [heq, hperiods.2] at hperiods
    cases hperiods.1
  · cases heval : evaluateLatest v (v.canonicalize p) candles with
    | error e => simp [heval, Except.isOk, Except.toBool] at hboth
    | ok evaluation =>
      cases heval' : evaluateLatest v (v.canonicalize q) candles with
      | error e => simp [heval', Except.isOk, Except.toBool] at hboth
      | ok evaluation' =>
        obtain ⟨hlength, -, hsame⟩ := hothers rfl candles evaluation evaluation' heval heval'
        exact ⟨evaluation, evaluation', rfl, rfl, hlength, hsame 0 (by omega)⟩

end BotSpec
