import Mathlib.Data.List.Nodup
import Mathlib.Data.List.Perm.Basic
import BotSpec.ParamSet.Basic

/-!
# Looking up parameters

A set of parameters is the same as what it answers for every key (`ext_get?`). So every operation on
sets is described by what `get?` says afterwards: of `insert` (`get?_insert`), of `erase`
(`get?_erase`), and of `rename`, which moves the value of one key to another (`get?_rename`).

The entries of a list with distinct keys are the entries of its set, in whatever order they come
(`get?_ofList`).
-/

namespace BotSpec.ParamSet

/-! ## Entries and answers -/

/-- In entries with increasing keys, a key leads to its one entry. -/
theorem lookup_eq_some_iff {key : String} {value : Float} {entries : List (String × Float)}
    (h : entries.Pairwise fun a b => a.1 < b.1) : lookup key entries = some value ↔ (key, value) ∈ entries := by
  induction entries with
  | nil => simp [lookup]
  | cons e rest ih =>
    obtain ⟨k, v⟩ := e
    obtain ⟨hfirst, hrest⟩ := List.pairwise_cons.mp h
    rw [lookup, List.mem_cons, Prod.mk.injEq]
    by_cases hkey : k = key
    · subst hkey
      have hno : (k, value) ∉ rest := fun hmem => String.lt_irrefl k (hfirst (k, value) hmem)
      simp [hno, eq_comm]
    · simp [hkey, Ne.symm hkey, ih hrest]

/-- A parameter has a value exactly if the two are an entry. -/
theorem get?_eq_some_iff {p : ParamSet} {key : String} {value : Float} :
    p.get? key = some value ↔ (key, value) ∈ p.entries := lookup_eq_some_iff p.sorted

theorem mem_values_iff {p : ParamSet} {value : Float} : value ∈ p.values ↔ ∃ key, p.get? key = some value := by
  simp only [values, List.mem_map, get?_eq_some_iff]
  constructor
  · rintro ⟨⟨key, v⟩, he, rfl⟩
    exact ⟨key, he⟩
  · rintro ⟨key, he⟩
    exact ⟨(key, value), he, rfl⟩

/-- Entries with increasing keys are distinct. -/
theorem nodup_entries (p : ParamSet) : p.entries.Nodup := by
  refine p.sorted.imp fun {a b} hlt heq => ?_
  subst heq
  exact String.lt_irrefl _ hlt

/-- Two sets that answer alike are the same. -/
theorem ext_get? {p q : ParamSet} (h : ∀ key, p.get? key = q.get? key) : p = q := by
  have hmem (e : String × Float) : e ∈ p.entries ↔ e ∈ q.entries := by
    rw [← get?_eq_some_iff, ← get?_eq_some_iff, h]
  have hperm : p.entries.Perm q.entries := (List.perm_ext_iff_of_nodup p.nodup_entries q.nodup_entries).mpr hmem
  have hentries : p.entries = q.entries :=
    hperm.eq_of_pairwise (fun a b _ _ hab hba => absurd (String.lt_trans hab hba) (String.lt_irrefl _))
      p.sorted q.sorted
  cases p
  cases q
  cases hentries
  rfl

/-! ## Insertion -/

/-- An entry that is put in is found, and the others as before. -/
theorem lookup_insertEntry (key : String) (value : Float) (other : String) (entries : List (String × Float)) :
    lookup other (insertEntry key value entries) = if other = key then some value else lookup other entries := by
  induction entries with
  | nil => simp [insertEntry, lookup, eq_comm]
  | cons e rest ih =>
    obtain ⟨k, v⟩ := e
    unfold insertEntry
    split
    next => simp [lookup, eq_comm]
    next =>
      split
      next heq =>
        subst heq
        by_cases hother : other = k <;> simp [lookup, hother, eq_comm]
      next hne =>
        rw [lookup, ih, lookup]
        by_cases hk : k = other
        · subst hk
          simp [hne]
        · simp [hk]

/-- A parameter that is put in is found, and the others as before. -/
theorem get?_insert (p : ParamSet) (key : String) (value : Float) (other : String) :
    (p.insert key value).get? other = if other = key then some value else p.get? other :=
  lookup_insertEntry key value other p.entries

/-! ## Removal and renaming -/

/-- The set without a key. -/
def erase (p : ParamSet) (key : String) : ParamSet := ⟨p.entries.filter fun e => e.1 ≠ key, p.sorted.filter _⟩

/-- A parameter that is taken out is not found, and the others as before. -/
theorem get?_erase (p : ParamSet) (key other : String) :
    (p.erase key).get? other = if other = key then none else p.get? other := by
  apply Option.ext
  intro x
  rw [get?_eq_some_iff, erase, List.mem_filter]
  by_cases h : other = key
  · simp [h]
  · simp [h, get?_eq_some_iff]

/-- The set with the value of one key stored under another one; what stood there is replaced. -/
def rename (p : ParamSet) (old new : String) : ParamSet :=
  match p.get? old with
  | some value => (p.erase old).insert new value
  | none => p

/-- A parameter that is renamed is found under its new name only, and the others as before. -/
theorem get?_rename {p : ParamSet} {old : String} {value : Float} (h : p.get? old = some value)
    (new other : String) :
    (p.rename old new).get? other =
      if other = new then some value else if other = old then none else p.get? other := by
  unfold rename
  rw [h]
  rw [get?_insert, get?_erase]

/-- A key renamed to one that is free leaves the values as they are. -/
theorem mem_values_rename_iff {p : ParamSet} {old new : String} (hfree : p.get? new = none) {x : Float} :
    x ∈ (p.rename old new).values ↔ x ∈ p.values := by
  cases hold : p.get? old with
  | none => rw [rename, hold]
  | some value =>
    simp only [mem_values_iff, get?_rename hold]
    constructor
    · rintro ⟨key, hkey⟩
      split at hkey
      next => exact ⟨old, hold.trans hkey⟩
      next =>
        split at hkey
        next => cases hkey
        next => exact ⟨key, hkey⟩
    · -- the value of the old key is found under the new one, and no other key has moved
      rintro ⟨key, hkey⟩
      by_cases holdKey : key = old
      · subst holdKey
        exact ⟨new, by rw [if_pos rfl, ← hold, hkey]⟩
      · have hnew : key ≠ new := by
          rintro rfl
          rw [hfree] at hkey
          cases hkey
        exact ⟨key, by rw [if_neg hnew, if_neg holdKey, hkey]⟩

/-! ## Sets made of lists -/

/-- Entries with distinct keys are all kept; of the older ones, those of other keys. -/
theorem get?_foldl_insert {entries : List (String × Float)} (h : (entries.map Prod.fst).Nodup) {p : ParamSet}
    {key : String} {value : Float} :
    (entries.foldl (fun p e => p.insert e.1 e.2) p).get? key = some value ↔
      (key, value) ∈ entries ∨ key ∉ entries.map Prod.fst ∧ p.get? key = some value := by
  induction entries generalizing p with
  | nil => simp
  | cons e rest ih =>
    obtain ⟨k, v⟩ := e
    rw [List.map_cons, List.nodup_cons] at h
    obtain ⟨hfirst, hrest⟩ := h
    rw [List.foldl_cons, ih hrest, get?_insert, List.map_cons, List.mem_cons, List.mem_cons, Prod.mk.injEq]
    by_cases hkey : key = k
    · subst hkey
      have hno : (key, value) ∉ rest := fun hmem => hfirst (List.mem_map.mpr ⟨_, hmem, rfl⟩)
      simp [hno, hfirst, eq_comm]
    · simp [hkey]

/-- Of entries with different keys each is found. -/
theorem get?_ofList {entries : List (String × Float)} (h : (entries.map Prod.fst).Nodup)
    {key : String} {value : Float} :
    (ofList entries).get? key = some value ↔ (key, value) ∈ entries := by
  have hnone : empty.get? key = none := rfl
  rw [ofList, get?_foldl_insert h, hnone]
  simp

end BotSpec.ParamSet
