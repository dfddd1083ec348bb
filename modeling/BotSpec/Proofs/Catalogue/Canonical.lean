import BotSpec.Proofs.Catalogue.Spelling

/-!
# Canonical parameters, one by one

Binding a variant to a set reads every key of the set for one parameter at most. So a key that
changes, comes or goes reaches one place:

> `exists_canonicalize_eq_withValue`: sets that agree on all keys but one are bound to the same
> parameters, but for the value of one of them.

And canonical names are spellings like any other. The parameters that a set is bound to are a set of
their own (`CanonicalParams.toParamSet`), which is bound to the same parameters again
(`canonicalize_toParamSet`).
-/

namespace BotSpec

/-- Two sets have the same entries but for one key. -/
def ParamSet.AgreeExcept (key : String) (p q : ParamSet) : Prop := ∀ other, other ≠ key → p.get? other = q.get? other

namespace CanonicalParams

/-- The parameters with another value, or none, at one place of one component. -/
def withValue (params : CanonicalParams) (component place : Nat) (value : Option Float) : CanonicalParams :=
  ⟨params.components.modify component fun c => { c with values := c.values.modify place fun b => { b with value } }⟩

/-- The parameters that have a value, under their canonical names. -/
def toParamSet (params : CanonicalParams) : ParamSet :=
  .ofList (params.all.filterMap fun b => b.value.map fun value => (b.spec.name, value))

end CanonicalParams

/-! ## Places -/

section Places

variable {α β : Type}

/-- Where no two members share anything, what a member has tells its place. -/
theorem place_eq_of_mem {f : α → List β} {xs : List α} (h : (xs.flatMap f).Nodup) {i j : Nat} {a b : α}
    (hi : xs[i]? = some a) (hj : xs[j]? = some b) {x : β} (ha : x ∈ f a) (hb : x ∈ f b) : i = j := by
  have hdisjoint := List.pairwise_iff_getElem.mp (List.nodup_flatMap.mp h).2
  obtain ⟨hilt, rfl⟩ := List.getElem?_eq_some_iff.mp hi
  obtain ⟨hjlt, rfl⟩ := List.getElem?_eq_some_iff.mp hj
  rcases Nat.lt_trichotomy i j with hlt | heq | hlt
  · exact absurd hb (hdisjoint i j hilt hjlt hlt ha)
  · exact heq
  · exact absurd ha (hdisjoint j i hjlt hilt hlt hb)

/-- Two functions that differ at one place of a list give lists that differ there. -/
theorem map_eq_modify {f g : α → β} {change : β → β} {xs : List α} {i : Nat}
    (hother : ∀ j a, j ≠ i → xs[j]? = some a → g a = f a) (hat : ∀ a, xs[i]? = some a → g a = change (f a)) :
    xs.map g = (xs.map f).modify i change := by
  apply List.ext_getElem?
  intro j
  rw [List.getElem?_modify, List.getElem?_map, List.getElem?_map]
  cases hj : xs[j]? with
  | none => rfl
  | some a =>
    by_cases heq : i = j
    · subst heq
      simp [hat a hj]
    · simp [heq, hother j a (Ne.symm heq) hj]

end Places

namespace Variant

variable {v : Variant} {p q : ParamSet} {key : String}

/-- A spelling belongs to one component, and there to one parameter. -/
theorem place_eq_of_mem_keys (hv : v ∈ all) {i i' j j' : Nat} {c c' : Component} {spec spec' : ParamSpec}
    (hi : v.components[i]? = some c) (hi' : v.components[i']? = some c') (hj : c.params[j]? = some spec)
    (hj' : c'.params[j']? = some spec') (hkey : key ∈ spec.keys) (hkey' : key ∈ spec'.keys) : i' = i ∧ j' = j := by
  have hspellings : (v.components.flatMap fun c => c.params.flatMap ParamSpec.keys).Nodup := by
    have hnodup := nodup_spellings hv
    rw [spellings, schema, List.flatMap_assoc] at hnodup
    exact hnodup
  have hmem : key ∈ c.params.flatMap ParamSpec.keys := List.mem_flatMap.mpr ⟨spec, List.mem_of_getElem? hj, hkey⟩
  have hmem' : key ∈ c'.params.flatMap ParamSpec.keys := List.mem_flatMap.mpr ⟨spec', List.mem_of_getElem? hj', hkey'⟩
  have hcomponent : i' = i := place_eq_of_mem hspellings hi' hi hmem' hmem
  subst hcomponent
  obtain rfl : c' = c := Option.some.inj (hi'.symm.trans hi)
  have hparams := (List.nodup_flatMap.mp hspellings).1 c' (List.mem_of_getElem? hi)
  exact ⟨rfl, place_eq_of_mem hparams hj' hj hkey' hkey⟩

/-- A component without a spelling of the key does not see it. -/
theorem bind_eq_of_agree {c : Component} (h : p.AgreeExcept key q)
    (hkey : ∀ spec ∈ c.params, key ∉ spec.keys) :
    c.bind q = c.bind p := by
  have hvalues : (c.params.map fun spec => spec.bind q) = c.params.map fun spec => spec.bind p := by
    refine List.map_congr_left fun spec hspec => ParamSpec.bind_congr fun other hother => (h other ?_).symm
    rintro rfl
    exact hkey spec hspec hother
  rw [Component.bind, Component.bind, hvalues]

/-- **One key, one place.** Sets that agree on all other keys are bound to the same parameters but
for one value. -/
theorem exists_canonicalize_eq_withValue (hv : v ∈ all) (h : p.AgreeExcept key q) :
    ∃ component place value, v.canonicalize q = (v.canonicalize p).withValue component place value := by
  by_cases hspelled : ∃ (i : Nat) (c : Component) (j : Nat) (spec : ParamSpec),
      v.components[i]? = some c ∧ c.params[j]? = some spec ∧ key ∈ spec.keys
  · obtain ⟨i, c, j, spec, hi, hj, hkey⟩ := hspelled
    refine ⟨i, j, (spec.bind q).value, congrArg CanonicalParams.mk (map_eq_modify ?_ ?_)⟩
    · intro i' c' hne hi'
      -- another component does not spell the key, or the place would be its own
      refine bind_eq_of_agree h fun spec' hspec' hkey' => hne ?_
      obtain ⟨j', hj'⟩ := List.mem_iff_getElem?.mp hspec'
      exact (place_eq_of_mem_keys hv hi hi' hj hj' hkey hkey').1
    · intro c' hi'
      obtain rfl : c' = c := Option.some.inj (hi'.symm.trans hi)
      refine congrArg (ComponentParams.mk c'.indicator) (map_eq_modify ?_ ?_)
      · intro j' spec' hne hj'
        refine ParamSpec.bind_congr fun other hother => (h other ?_).symm
        rintro rfl
        exact hne (place_eq_of_mem_keys hv hi hi hj hj' hkey hother).2
      · intro spec' hj'
        obtain rfl : spec' = spec := Option.some.inj (hj'.symm.trans hj)
        rfl
  · -- no parameter has the key, so the place may as well be behind the last component
    refine ⟨v.components.length, 0, none, congrArg CanonicalParams.mk (map_eq_modify ?_ ?_)⟩
    · intro i c _ hi
      refine bind_eq_of_agree h fun spec hspec hkey => hspelled ?_
      obtain ⟨j, hj⟩ := List.mem_iff_getElem?.mp hspec
      exact ⟨i, c, j, spec, hi, hj, hkey⟩
    · intro c hi
      rw [List.getElem?_eq_none (Nat.le_refl _)] at hi
      cases hi

/-! ## Parameters as a set -/

/-- The parameters of a variant are those of its schema. -/
theorem all_canonicalize (v : Variant) (p : ParamSet) :
    (v.canonicalize p).all = v.schema.map fun spec => spec.bind p := by
  rw [CanonicalParams.all, canonicalize, schema, List.flatMap_map, List.map_flatMap]
  rfl

theorem nodup_names (hv : v ∈ all) : (v.schema.map ParamSpec.name).Nodup := by
  have hsublist : ∀ specs : List ParamSpec, (specs.map ParamSpec.name).Sublist (specs.flatMap ParamSpec.keys) := by
    intro specs
    induction specs with
    | nil => exact .slnil
    | cons spec specs ih => exact .cons_cons _ (ih.trans (List.sublist_append_right spec.aliases _))
  exact (hsublist v.schema).nodup (nodup_spellings hv)

/-- The set of the parameters has the values that are there, under their canonical names. -/
theorem get?_toParamSet_eq_some_iff (hv : v ∈ all) {value : Float} :
    (v.canonicalize p).toParamSet.get? key = some value ↔
      ∃ spec ∈ v.schema, (spec.bind p).value = some value ∧ spec.name = key := by
  have hkeys : (((v.canonicalize p).all.filterMap fun b =>
      b.value.map fun value => (b.spec.name, value)).map Prod.fst).Nodup := by
    rw [List.Nodup, List.pairwise_map, List.pairwise_filterMap, all_canonicalize, List.pairwise_map]
    refine (List.pairwise_map.mp (nodup_names hv)).imp fun hne e he e' he' => ?_
    obtain ⟨_, -, rfl⟩ := Option.map_eq_some_iff.mp he
    obtain ⟨_, -, rfl⟩ := Option.map_eq_some_iff.mp he'
    exact hne
  rw [CanonicalParams.toParamSet, ParamSet.get?_ofList hkeys, all_canonicalize]
  simp only [List.mem_filterMap, List.mem_map, Option.map_eq_some_iff, Prod.mk.injEq]
  constructor
  · rintro ⟨_, ⟨spec, hspec, rfl⟩, _, hvalue, hname, rfl⟩
    exact ⟨spec, hspec, hvalue, hname⟩
  · rintro ⟨spec, hspec, hvalue, hname⟩
    exact ⟨_, ⟨spec, hspec, rfl⟩, value, hvalue, hname, rfl⟩

/-- **Canonical parameters are canonical already.** -/
theorem canonicalize_toParamSet (hv : v ∈ all) (p : ParamSet) :
    v.canonicalize (v.canonicalize p).toParamSet = v.canonicalize p := by
  refine canonicalize_congr fun spec hspec => congrArg (BoundParam.mk spec) ?_
  show spec.keys.findSome? (v.canonicalize p).toParamSet.get? = (spec.bind p).value
  cases hvalue : (spec.bind p).value with
  | some value =>
    have hname := (get?_toParamSet_eq_some_iff hv).mpr ⟨spec, hspec, hvalue, rfl⟩
    rw [ParamSpec.keys, List.findSome?_cons, hname]
  | none =>
    -- an alias of a parameter is no other one's canonical name
    refine List.findSome?_eq_none_iff.mpr fun key hkey => Option.eq_none_iff_forall_ne_some.mpr fun value hget => ?_
    obtain ⟨other, hother, hvalue', rfl⟩ := (get?_toParamSet_eq_some_iff hv).mp hget
    obtain rfl : spec = other := eq_of_mem_keys hv hspec hother hkey List.mem_cons_self
    rw [hvalue] at hvalue'
    cases hvalue'

end Variant

end BotSpec
