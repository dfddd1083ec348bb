import Mathlib.Data.List.Basic
import BotSpec.ParamSet.Normalize
import BotSpec.Proofs.Binary64.Order
import BotSpec.Record.Encoding

/-!
# Normalized parameters

A payload is normalized to a set of finite numbers (`finite_of_normalize?`), and a set of finite
numbers is its own normal form:

> `normalize?_toJson`: the JSON of a set is normalized to the set.

The JSON of a set is an object of numbers, so even a set with one entry is not taken for a wrapper.
Its keys come in order, and entries that come in order are inserted one behind the other
(`ofList_entries`).
-/

namespace BotSpec.ParamSet

/-! ## Entries in order -/

/-- An entry whose key comes last is put at the end. -/
theorem insertEntry_of_lt {key : String} {value : Float} {entries : List (String × Float)}
    (h : ∀ e ∈ entries, e.1 < key) : insertEntry key value entries = entries ++ [(key, value)] := by
  induction entries with
  | nil => rfl
  | cons e rest ih =>
    obtain ⟨k, v⟩ := e
    have hlt : k < key := h (k, v) List.mem_cons_self
    have hnlt : ¬ key < k := fun hgt => String.lt_irrefl _ (String.lt_trans hlt hgt)
    have hne : k ≠ key := fun heq => String.lt_irrefl _ (heq ▸ hlt)
    rw [insertEntry, if_neg hnlt, if_neg hne, ih fun e he => h e (List.mem_cons_of_mem _ he), List.cons_append]

/-- Entries in order are inserted behind the ones that are there. -/
theorem entries_foldl_insert {rest : List (String × Float)} {p : ParamSet}
    (h : (p.entries ++ rest).Pairwise fun a b => a.1 < b.1) :
    (rest.foldl (fun p e => p.insert e.1 e.2) p).entries = p.entries ++ rest := by
  induction rest generalizing p with
  | nil => rw [List.foldl_nil, List.append_nil]
  | cons e rest ih =>
    have hlast : ∀ d ∈ p.entries, d.1 < e.1 := fun d hd => (List.pairwise_append.mp h).2.2 d hd e List.mem_cons_self
    have hinsert : (p.insert e.1 e.2).entries = p.entries ++ [e] := insertEntry_of_lt hlast
    rw [List.foldl_cons, ih (by rw [hinsert, List.append_assoc]; exact h), hinsert, List.append_assoc]
    rfl

theorem ofList_entries (p : ParamSet) : ofList p.entries = p := by
  have h : (ofList p.entries).entries = p.entries := entries_foldl_insert (p := empty) p.sorted
  cases p
  cases hset : ofList _
  simp_all

/-! ## Finite values -/

/-- Every value of the set is finite. -/
def Finite (p : ParamSet) : Prop := ∀ e ∈ p.entries, e.2.isFinite = true

theorem finite_empty : empty.Finite := by
  intro e he
  cases he

/-- Parameters made of finite values are finite. -/
theorem finite_ofList {entries : List (String × Float)} (h : ∀ e ∈ entries, e.2.isFinite = true) :
    (ofList entries).Finite := by
  have hstep : ∀ {p : ParamSet}, p.Finite → (entries.foldl (fun p e => p.insert e.1 e.2) p).Finite := by
    induction entries with
    | nil => intro p hp; exact hp
    | cons e rest ih =>
      intro p hp
      rw [List.foldl_cons]
      refine ih (fun d hd => h d (List.mem_cons_of_mem _ hd)) ?_
      intro d hd
      rcases mem_insertEntry hd with rfl | hd
      · exact h e List.mem_cons_self
      · exact hp d hd
  exact hstep finite_empty

/-- What counts as a number is finite. -/
theorem isFinite_of_numeric? {j : Json} {x : Float} (h : numeric? j = some x) : x.isFinite = true :=
  (Option.filter_eq_some_iff.mp h).2

/-- Numbers that are not finite are left out. -/
theorem finite_flatten (members : List (String × Json)) : (flatten members).Finite := by
  induction members using flatten.induct with
  | case1 key inner ih => rw [flatten]; exact ih
  | case2 members hwrapper =>
    rw [flatten]
    · refine finite_ofList fun e he => ?_
      obtain ⟨m, -, hm⟩ := List.mem_filterMap.mp he
      obtain ⟨x, hx, rfl⟩ := Option.map_eq_some_iff.mp hm
      exact isFinite_of_numeric? hx
    · exact hwrapper

theorem finite_of_ofText {text : String} {p : ParamSet} (h : normalize?.ofText text = .ok p) : p.Finite := by
  fun_induction normalize?.ofText text with
  | case1 => cases h
  | case2 text members hparse => cases h; exact finite_flatten members
  | case3 text inner hparse hshorter ih => exact ih h
  | case4 => cases h

/-- The parameters of a payload are finite. -/
theorem finite_of_normalize? {payload : Json} {p : ParamSet} (h : normalize? payload = .ok p) : p.Finite := by
  cases payload with
  | null => cases h; exact finite_empty
  | object members => cases h; exact finite_flatten members
  | string text => exact finite_of_ofText h
  | _ => cases h

theorem beq_self_of_isFinite {x : Float} (h : x.isFinite = true) : (x == x) = true := by
  rw [Binary64.beq_self_iff]
  intro hform
  have hfinite : (Binary64.formOf x).isFinite = true := h
  rw [hform] at hfinite
  cases hfinite

/-- Finite entries are equal to themselves, which not all doubles are. -/
theorem entries_beq_self {entries : List (String × Float)} (h : ∀ e ∈ entries, e.2.isFinite = true) :
    (entries == entries) = true := by
  induction entries with
  | nil => rfl
  | cons e rest ih =>
    obtain ⟨key, value⟩ := e
    have hvalue := beq_self_of_isFinite (h (key, value) List.mem_cons_self)
    rw [List.cons_beq_cons, ih fun d hd => h d (List.mem_cons_of_mem _ hd), Bool.and_true]
    show (key == key && value == value) = true
    rw [beq_self_eq_true, hvalue, Bool.and_true]

/-! ## The JSON of a set -/

/-- **A set of finite numbers is read back from its JSON.** -/
theorem normalize?_toJson {p : ParamSet} (hp : p.Finite) : normalize? p.toJson = .ok p := by
  have hread : (p.entries.map fun e => (e.1, Json.real e.2)).filterMap
      (fun m => (numeric? m.2).map fun x => (m.1, x)) = p.entries := by
    rw [List.filterMap_map]
    refine (List.filterMap_congr fun e he => ?_).trans List.filterMap_some
    have hfinite : numeric? (.real e.2) = some e.2 := Option.filter_eq_some_iff.mpr ⟨rfl, hp e he⟩
    rw [Function.comp_apply, hfinite]
    rfl
  show Except.ok (flatten (p.entries.map fun e => (e.1, Json.real e.2))) = _
  rw [flatten]
  -- an entry is a number, so no set of entries looks like a wrapper
  · rw [hread, ofList_entries]
  · intro key inner heq
    obtain ⟨e, -, he⟩ := List.mem_map.mp (heq ▸ List.mem_singleton_self _)
    cases he

end BotSpec.ParamSet
