import BotSpec.Proofs.ParamSet.Lookup
import BotSpec.Proofs.ParamSet.Normalize

/-!
# The shapes of a payload

The same parameters come as an object, in the JSON text of an object, wrapped under a key, with a
type tag beside them, and in any combination of these. `Holds` says which objects hold the members
of a list and `Carries` says which payloads do, in terms of the shapes alone. What a value
contributes is said by `StandsFor`.

> `normalize_ignores_shape`: every payload that carries the same members is normalized to the same
> set, the numbers that stand among the members, and a normalized set is normalized to itself.

The proofs follow the two recursions: through wrappers for objects (`flatten_of_holds`) and through
texts for payloads (`normalize?_of_carries`).
-/

namespace BotSpec.ParamSet

/-! ## Numbers among members -/

/-- A value stands for a finite number: it is one, or a string that reads as one but for blanks
around it. -/
inductive StandsFor : Json → Float → Prop where
  | whole {n : Int} (h : (wholeFloat n).isFinite = true) : StandsFor (.whole n) (wholeFloat n)
  | real {x : Float} (h : x.isFinite = true) : StandsFor (.real x) x
  | numeral {s : String} {x : Float} (hread : Binary64.readFloat? (Text.trimChars s.toList) = some x)
      (h : x.isFinite = true) : StandsFor (.string s) x

/-- A value is read as a number exactly if it stands for it. -/
theorem numeric?_eq_some_iff {j : Json} {x : Float} : numeric? j = some x ↔ StandsFor j x := by
  constructor
  · intro h
    obtain ⟨hvalue, hfinite⟩ := Option.filter_eq_some_iff.mp h
    cases j with
    | whole n => cases hvalue; exact .whole hfinite
    | real y => cases hvalue; exact .real hfinite
    | string s => exact .numeral hvalue hfinite
    | _ => cases hvalue
  · intro h
    cases h with
    | whole h => exact Option.filter_eq_some_iff.mpr ⟨rfl, h⟩
    | real h => exact Option.filter_eq_some_iff.mpr ⟨rfl, h⟩
    | numeral hread h => exact Option.filter_eq_some_iff.mpr ⟨hread, h⟩

/-- What stands for no number is read as none. -/
theorem numeric?_eq_none {j : Json} (h : ∀ x, ¬ StandsFor j x) : numeric? j = none :=
  Option.eq_none_iff_forall_ne_some.mpr fun x hx => h x (numeric?_eq_some_iff.mp hx)

/-- The numbers that stand among members, with their keys. -/
def numbers (members : List (String × Json)) : List (String × Float) :=
  members.filterMap fun m => (numeric? m.2).map fun x => (m.1, x)

/-- The numbers of an object are those that its members stand for. -/
theorem mem_numbers {members : List (String × Json)} {key : String} {x : Float} :
    (key, x) ∈ numbers members ↔ ∃ j, (key, j) ∈ members ∧ StandsFor j x := by
  simp only [numbers, List.mem_filterMap, Option.map_eq_some_iff, numeric?_eq_some_iff]
  constructor
  · rintro ⟨⟨k, j⟩, hmem, y, hy, heq⟩
    cases heq
    exact ⟨j, hmem, hy⟩
  · rintro ⟨j, hmem, hx⟩
    exact ⟨(key, j), hmem, x, hx, rfl⟩

/-- Members with distinct keys leave numbers with distinct keys. -/
theorem nodup_keys_numbers {members : List (String × Json)} (h : (members.map Prod.fst).Nodup) :
    ((numbers members).map Prod.fst).Nodup := by
  have hsublist : ((numbers members).map Prod.fst).Sublist (members.map Prod.fst) := by
    induction members with
    | nil => exact .slnil
    | cons m rest ih =>
      rw [List.map_cons, numbers, List.filterMap_cons]
      rw [List.map_cons, List.nodup_cons] at h
      cases numeric? m.2 with
      | none => exact (ih h.2).cons _
      | some x => exact (ih h.2).cons_cons _
  exact hsublist.nodup h

theorem get?_ofList_numbers {members : List (String × Json)} (h : (members.map Prod.fst).Nodup)
    {key : String} {x : Float} :
    (ofList (numbers members)).get? key = some x ↔ ∃ j, (key, j) ∈ members ∧ StandsFor j x := by
  rw [get?_ofList (nodup_keys_numbers h), mem_numbers]

/-- The order of members does not matter. -/
theorem ofList_numbers_perm {members listing : List (String × Json)} (h : (members.map Prod.fst).Nodup)
    (hperm : listing.Perm members) : ofList (numbers listing) = ofList (numbers members) := by
  have hkeys : (listing.map Prod.fst).Nodup := (hperm.map Prod.fst).nodup_iff.mpr h
  refine ext_get? fun key => Option.ext fun x => ?_
  rw [get?_ofList_numbers hkeys, get?_ofList_numbers h]
  exact exists_congr fun j => and_congr_left' hperm.mem_iff

/-! ## Objects -/

/-- The objects that hold the given members: in any order, with a type tag beside them, or wrapped
under a key. -/
inductive Holds (members : List (String × Json)) : List (String × Json) → Prop where
  | plain {listing : List (String × Json)} (h : listing.Perm members) : Holds members listing
  | tagged {listing : List (String × Json)} {tag : String} (htag : ∀ x, ¬ StandsFor (.string tag) x)
      (hfree : "type" ∉ members.map Prod.fst) (h : listing.Perm (("type", .string tag) :: members)) : Holds members listing
  | wrapped {inner : List (String × Json)} (key : String) (h : Holds members inner) : Holds members [(key, .object inner)]

/-- Members that are no objects are not taken for a wrapper. -/
theorem flatten_of_no_object {members : List (String × Json)}
    (h : ∀ m ∈ members, ∀ inner, m.2 ≠ .object inner) :
    flatten members = ofList (numbers members) := by
  rw [flatten, numbers]
  intro key inner heq
  exact h (key, .object inner) (heq ▸ List.mem_singleton_self _) inner rfl

section Shapes

variable {members : List (String × Json)} (hkeys : (members.map Prod.fst).Nodup)
  (hflat : ∀ m ∈ members, ∀ inner, m.2 ≠ .object inner)

include hkeys hflat

/-- An object is flattened to the numbers among the members that it holds. -/
theorem flatten_of_holds {listing : List (String × Json)} (h : Holds members listing) :
    flatten listing = ofList (numbers members) := by
  induction h with
  | plain hperm =>
    rw [flatten_of_no_object fun m hm => hflat m (hperm.mem_iff.mp hm), ofList_numbers_perm hkeys hperm]
  | @tagged listing tag htag hfree hperm =>
    have hobject : ∀ m ∈ listing, ∀ inner, m.2 ≠ .object inner := by
      intro m hm inner
      rcases List.mem_cons.mp (hperm.mem_iff.mp hm) with rfl | hmem
      · exact nofun
      · exact hflat m hmem inner
    have hnodup : ((("type", Json.string tag) :: members).map Prod.fst).Nodup := List.nodup_cons.mpr ⟨hfree, hkeys⟩
    -- the tag is no number, so it leaves nothing behind
    have htagged : numbers (("type", .string tag) :: members) = numbers members := by
      rw [numbers, List.filterMap_cons, numeric?_eq_none htag]
      rfl
    rw [flatten_of_no_object hobject, ofList_numbers_perm hnodup hperm, htagged]
  | wrapped key h ih => rw [flatten, ih]

end Shapes

/-! ## Payloads -/

/-- The payloads that carry the given members: an object that holds them, or the JSON text of such a
payload. -/
inductive Carries (members : List (String × Json)) : Json → Prop where
  | object {listing : List (String × Json)} (h : Holds members listing) : Carries members (.object listing)
  | encoded {text : String} {j : Json} (hparse : Json.parse text = .ok j) (h : Carries members j) :
      Carries members (.string text)

/-- The text of an object is read as the object. -/
theorem normalize?_of_parse_object {text : String} {listing : List (String × Json)}
    (hparse : Json.parse text = .ok (.object listing)) : normalize? (.string text) = .ok (flatten listing) := by
  rw [normalize?, normalize?.ofText]
  split <;> simp_all

/-- The text of a text is read as the text. -/
theorem normalize?_of_parse_string {text inner : String} (hparse : Json.parse text = .ok (.string inner)) :
    normalize? (.string text) = normalize? (.string inner) := by
  rw [normalize?, normalize?.ofText]
  split <;> simp_all [normalize?]

/-- A payload is normalized to the numbers among the members that it carries. -/
theorem normalize?_of_carries {members : List (String × Json)} (hkeys : (members.map Prod.fst).Nodup)
    (hflat : ∀ m ∈ members, ∀ inner, m.2 ≠ .object inner) {payload : Json} (h : Carries members payload) :
    normalize? payload = .ok (ofList (numbers members)) := by
  induction h with
  | object h => rw [normalize?, flatten_of_holds hkeys hflat h]
  | encoded hparse h ih =>
    cases h with
    | object h => rw [normalize?_of_parse_object hparse, flatten_of_holds hkeys hflat h]
    | encoded => rw [normalize?_of_parse_string hparse, ih]

/-- Whatever the payload is, its parameters are finite. -/
theorem finite_normalize (payload : Json) : (normalize payload).Finite := by
  rw [normalize]
  cases h : normalize? payload with
  | ok p => exact finite_of_normalize? h
  | error e => exact finite_empty

/-- **The shape of a payload does not matter.** All payloads that carry the same members, none of
which is an object, have the same set of parameters: the finite numbers that stand among the
members. Whatever a payload is, its parameters are finite, and normalizing their JSON gives them
back. -/
theorem normalize_ignores_shape :
    (∀ members : List (String × Json), (members.map Prod.fst).Nodup → (∀ m ∈ members, ∀ inner, m.2 ≠ .object inner) →
      ∃ p : ParamSet, (∀ key x, p.get? key = some x ↔ ∃ j, (key, j) ∈ members ∧ StandsFor j x) ∧
        ∀ payload, Carries members payload → normalize? payload = .ok p ∧ normalize payload = p) ∧
    ∀ payload, (normalize payload).Finite ∧ normalize (normalize payload).toJson = normalize payload := by
  constructor
  · intro members hkeys hflat
    refine ⟨ofList (numbers members), fun key x => get?_ofList_numbers hkeys, fun payload h => ?_⟩
    have hnormalized := normalize?_of_carries hkeys hflat h
    exact ⟨hnormalized, by rw [normalize, hnormalized]⟩
  · intro payload
    have hfinite := finite_normalize payload
    refine ⟨hfinite, ?_⟩
    conv_lhs => rw [normalize, normalize?_toJson hfinite]

/-- The key and the number of an object with one whole number in it. Unlike JSON values, the answers
can be compared. -/
def soleWhole? : Json → Option (String × Int)
  | .object [(key, .whole n)] => some (key, n)
  | _ => none

theorem parse_eq_of_soleWhole? {text key : String} {n : Int}
    (h : (Json.parse text).toOption.bind soleWhole? = some (key, n)) :
    Json.parse text = .ok (.object [(key, .whole n)]) := by
  obtain ⟨j, hj, hsole⟩ := Option.bind_eq_some_iff.mp h
  unfold soleWhole? at hsole
  split at hsole
  next =>
    cases hsole
    cases hparse : Json.parse text with
    | ok j' => rw [hparse] at hj; cases hj; rfl
    | error e => rw [hparse] at hj; cases hj
  next => cases hsole

/-- A tagged object under a wrapper, and the text of a text of the object alone. -/
theorem normalize_ignores_shape_fast :
    normalize (.object [("macd", .object [("type", .string "macd"), ("fast", .whole 12)])]) =
      normalize (.string "\"\x7b\\\"fast\\\":12\x7d\"") := by
  have htag : ∀ x, ¬ StandsFor (.string "macd") x := by
    rintro x (_ | _ | ⟨hread, -⟩)
    have hnone : (Binary64.readFloat? (Text.trimChars "macd".toList)).isNone = true := by decide +kernel
    rw [hread] at hnone
    cases hnone
  have hdecoded : Json.parse "\"\x7b\\\"fast\\\":12\x7d\"" = .ok (.string "\x7b\"fast\":12\x7d") := by
    with_unfolding_all rfl
  have hobject : Json.parse "\x7b\"fast\":12\x7d" = .ok (.object [("fast", .whole 12)]) := by
    have hsole : (Json.parse "\x7b\"fast\":12\x7d").toOption.bind soleWhole? = some ("fast", 12) := by decide +kernel
    exact parse_eq_of_soleWhole? hsole
  obtain ⟨p, -, hp⟩ := normalize_ignores_shape.1 [("fast", .whole 12)] (by decide) (by simp)
  have hwrapped : Carries [("fast", .whole 12)]
      (.object [("macd", .object [("type", .string "macd"), ("fast", .whole 12)])]) :=
    .object (.wrapped "macd" (.tagged htag (by decide) (.refl _)))
  have hencoded : Carries [("fast", .whole 12)] (.string "\"\x7b\\\"fast\\\":12\x7d\"") :=
    .encoded hdecoded (.encoded hobject (.object (.plain (.refl _))))
  exact (hp _ hwrapped).2.trans (hp _ hencoded).2.symm

end BotSpec.ParamSet
