import Mathlib.Data.List.Pairwise
import Mathlib.Data.List.Nodup
import BotSpec.Catalogue.Canonical
import BotSpec.Proofs.ParamSet.Lookup

/-!
# Spellings of parameters

Every parameter of a variant has its own spellings: none of them is a spelling of another parameter
of the same variant (`nodup_spellings`). So what a set says under one spelling is seen by one
parameter alone (`eq_of_mem_keys`), and binding a variant to a set has a frame:

* `canonicalize_rename`: the value of the spelling that a parameter takes may as well stand under
  the canonical name,
* `canonicalize_insert`: a key that is no spelling of any parameter is not seen at all.
-/

namespace BotSpec

/-- All accepted spellings of a variant's parameters. -/
def Variant.spellings (v : Variant) : List String := v.schema.flatMap ParamSpec.keys

/-- The spelling whose value a parameter takes: the first one that is present. -/
def ParamSpec.winner? (spec : ParamSpec) (params : ParamSet) : Option String :=
  spec.keys.find? fun key => (params.get? key).isSome

namespace Variant

/-- What is resolved is one of the variants. -/
theorem mem_all_of_resolve {type : String} {v : Variant} (h : resolve type = .ok v) : v ∈ all := by
  unfold resolve at h
  split at h
  next tag htag =>
    cases h
    have hmem : tag ∈ VariantTag.all := by
      simp only [VariantTag.parse?] at htag
      split at htag
      next => cases htag
      next => exact List.mem_of_find?_eq_some htag
    exact List.mem_map_of_mem hmem
  next => cases h

/-- No spelling is used twice in a variant. -/
theorem nodup_spellings {v : Variant} (hv : v ∈ all) : v.spellings.Nodup := by
  have hall : ∀ v ∈ all, v.spellings.Nodup := by decide +kernel
  exact hall v hv

theorem eq_of_mem_keys {v : Variant} (hv : v ∈ all) {spec other : ParamSpec} (hspec : spec ∈ v.schema)
    (hother : other ∈ v.schema) {key : String} (hkey : key ∈ spec.keys) (hkey' : key ∈ other.keys) : spec = other := by
  by_contra hne
  have hpairwise := (List.nodup_flatMap.mp (nodup_spellings hv)).2
  have : Std.Symm (Function.onFun List.Disjoint ParamSpec.keys) := ⟨fun _ _ h => List.disjoint_comm.mp h⟩
  exact hpairwise.forall hspec hother hne hkey hkey'

end Variant

/-! ## Binding -/

section Binding

variable {p q : ParamSet}

/-- Sets that answer alike for some keys answer alike for the first of them that is present. -/
theorem findSome?_get?_congr {keys : List String} (h : ∀ key ∈ keys, p.get? key = q.get? key) :
    keys.findSome? p.get? = keys.findSome? q.get? := by
  induction keys with
  | nil => rfl
  | cons key rest ih =>
    rw [List.findSome?_cons, List.findSome?_cons, h key List.mem_cons_self,
      ih fun key hkey => h key (List.mem_cons_of_mem _ hkey)]

/-- A parameter looks at its own spellings only. -/
theorem ParamSpec.bind_congr {spec : ParamSpec} (h : ∀ key ∈ spec.keys, p.get? key = q.get? key) :
    spec.bind p = spec.bind q := by
  rw [bind, bind, findSome?_get?_congr h]

/-- Sets that bind each parameter alike are bound alike. -/
theorem Variant.canonicalize_congr {v : Variant} (h : ∀ spec ∈ v.schema, spec.bind p = spec.bind q) :
    v.canonicalize p = v.canonicalize q := by
  have hcomponent : ∀ c ∈ v.components, c.bind p = c.bind q := by
    intro c hc
    have hvalues : (c.params.map fun spec => spec.bind p) = c.params.map fun spec => spec.bind q :=
      List.map_congr_left fun spec hspec => h spec (List.mem_flatMap.mpr ⟨c, hc, hspec⟩)
    rw [Component.bind, Component.bind, hvalues]
  rw [canonicalize, canonicalize, List.map_congr_left hcomponent]

end Binding

/-! ## Winning spellings -/

namespace ParamSpec

variable {spec : ParamSpec} {p : ParamSet} {key : String}

/-- A parameter takes the value of its winning spelling. -/
theorem bind_of_winner? (h : spec.winner? p = some key) {value : Float} (hvalue : p.get? key = some value) :
    spec.bind p = ⟨spec, some value⟩ := by
  obtain ⟨-, before, after, hkeys, habsent⟩ := List.find?_eq_some_iff_append.mp h
  have hfirst : spec.keys.findSome? p.get? = some value :=
    List.findSome?_eq_some_iff.mpr ⟨before, key, after, hkeys, hvalue, fun k hk => by simpa using habsent k hk⟩
  rw [bind, hfirst]

/-- The spelling that counts is stored. -/
theorem exists_get?_of_winner? (h : spec.winner? p = some key) : ∃ value, p.get? key = some value :=
  Option.isSome_iff_exists.mp (List.find?_some (p := fun key => (p.get? key).isSome) h)

theorem mem_keys_of_winner? (h : spec.winner? p = some key) : key ∈ spec.keys := List.mem_of_find?_eq_some h

/-- Where an alias wins, the canonical name is absent. -/
theorem get?_name_of_winner? (h : spec.winner? p = some key) (halias : key ≠ spec.name) :
    p.get? spec.name = none := by
  rw [winner?, keys, List.find?_cons] at h
  cases hname : p.get? spec.name with
  | none => rfl
  | some value =>
    rw [hname] at h
    cases h
    exact absurd rfl halias

end ParamSpec

namespace Variant

variable {v : Variant} {p : ParamSet}

/-- Renaming the spelling that a parameter takes to the canonical name changes no parameter. -/
theorem canonicalize_rename (hv : v ∈ all) {spec : ParamSpec} (hspec : spec ∈ v.schema) {key : String}
    (hwinner : spec.winner? p = some key) : v.canonicalize (p.rename key spec.name) = v.canonicalize p := by
  obtain ⟨value, hvalue⟩ := ParamSpec.exists_get?_of_winner? hwinner
  have hname : spec.name ∈ spec.keys := List.mem_cons_self
  refine canonicalize_congr fun other hother => ?_
  by_cases heq : other = spec
  · subst heq
    have hrenamed : (p.rename key other.name).get? other.name = some value := by
      rw [ParamSet.get?_rename hvalue, if_pos rfl]
    rw [ParamSpec.bind_of_winner? hwinner hvalue, ParamSpec.bind, ParamSpec.keys, List.findSome?_cons, hrenamed]
  · -- another parameter has neither of the two keys among its spellings
    refine ParamSpec.bind_congr fun k hk => ?_
    have hnew : k ≠ spec.name := by
      rintro rfl
      exact heq (eq_of_mem_keys hv hother hspec hk hname)
    have hold : k ≠ key := by
      rintro rfl
      exact heq (eq_of_mem_keys hv hother hspec hk (ParamSpec.mem_keys_of_winner? hwinner))
    rw [ParamSet.get?_rename hvalue, if_neg hnew, if_neg hold]

/-- A key that no parameter spells is not seen. -/
theorem canonicalize_insert {key : String} (hkey : key ∉ v.spellings) (value : Float) :
    v.canonicalize (p.insert key value) = v.canonicalize p := by
  refine canonicalize_congr fun spec hspec => ParamSpec.bind_congr fun k hk => ?_
  have hne : k ≠ key := by
    rintro rfl
    exact hkey (List.mem_flatMap.mpr ⟨spec, hspec, hk⟩)
  rw [ParamSet.get?_insert, if_neg hne]

end Variant

end BotSpec
