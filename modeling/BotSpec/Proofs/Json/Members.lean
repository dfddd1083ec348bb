import BotSpec.Json.Basic

/-!
# Members of an object

What a list of members answers for a key after an edit, and when the members of a text become those
of an object.

An object keeps one member per key, the last one given: it answers like the members read backwards
(`lookup_ofMembers`).
-/

namespace BotSpec.Json

variable {key k : String} {v : Json} {members others : List (String × Json)}

/-! ## Looking up -/

theorem lookup_cons : lookup key ((k, v) :: members) = if k = key then some v else lookup key members := rfl

theorem mem_of_lookup_eq_some (h : lookup key members = some v) : (key, v) ∈ members := by
  induction members with
  | nil => cases h
  | cons m rest ih =>
    obtain ⟨k, w⟩ := m
    rw [lookup_cons] at h
    split at h
    next heq =>
      subst heq
      cases h
      exact List.mem_cons_self
    next => exact List.mem_cons_of_mem _ (ih h)

/-- Nothing is found exactly if no member has the key. -/
theorem lookup_eq_none_iff : lookup key members = none ↔ key ∉ members.map Prod.fst := by
  induction members with
  | nil => simp [lookup]
  | cons m rest ih =>
    obtain ⟨k, w⟩ := m
    rw [lookup_cons, List.map_cons, List.mem_cons]
    by_cases hk : k = key
    · simp [hk]
    · simp [hk, Ne.symm hk, ih]

/-- Members behind others count where those have nothing. -/
theorem lookup_append : lookup key (members ++ others) = (lookup key members).or (lookup key others) := by
  induction members with
  | nil => rfl
  | cons m rest ih =>
    obtain ⟨k, w⟩ := m
    rw [List.cons_append, lookup_cons, lookup_cons, ih]
    split <;> rfl

/-- A member whose key is not repeated is found. -/
theorem lookup_eq_of_count_le_one (hmem : (key, v) ∈ members)
    (hcount : (members.map Prod.fst).count key ≤ 1) :
    lookup key members = some v := by
  induction members with
  | nil => cases hmem
  | cons m rest ih =>
    obtain ⟨k, w⟩ := m
    rw [List.map_cons, List.count_cons] at hcount
    rw [lookup_cons]
    rcases List.mem_cons.mp hmem with heq | hrest
    · cases heq
      exact if_pos rfl
    · have hone : 0 < (rest.map Prod.fst).count key := List.count_pos_iff.mpr (List.mem_map_of_mem hrest)
      by_cases hk : k = key
      · rw [if_pos (beq_iff_eq.mpr hk)] at hcount
        omega
      · rw [if_neg hk]
        exact ih hrest (by omega)

/-- Where keys are distinct, every member is found. -/
theorem lookup_eq_of_mem (hkeys : (members.map Prod.fst).Nodup) (hmem : (key, v) ∈ members) :
    lookup key members = some v :=
  lookup_eq_of_count_le_one hmem (List.nodup_iff_count.mp hkeys key)

/-! ## Edits -/

/-- Two lists of members that answer alike for every key but one. -/
def SameBut (k : String) (members others : List (String × Json)) : Prop :=
  ∀ key, key ≠ k → lookup key others = lookup key members

/-- A member that is put is found, and the others are as they were. -/
theorem lookup_putMember :
    lookup key (putMember members k v) = if k = key then some v else lookup key members := by
  induction members with
  | nil => rfl
  | cons m rest ih =>
    obtain ⟨k', w⟩ := m
    rw [putMember]
    by_cases hput : k' = k
    · subst hput
      rw [if_pos rfl, lookup_cons, lookup_cons]
      split <;> rfl
    · rw [if_neg hput, lookup_cons, lookup_cons, ih]
      by_cases hk : k' = key
      · subst hk
        rw [if_pos rfl, if_neg (Ne.symm hput), if_pos rfl]
      · rw [if_neg hk, if_neg hk]

/-- Setting a member, whether it is there or not, is not seen under other keys. -/
theorem sameBut_putMember : SameBut k members (putMember members k v) := by
  intro key hkey
  rw [lookup_putMember, if_neg (Ne.symm hkey)]

/-- The members without those of a key. -/
def eraseMember (members : List (String × Json)) (k : String) : List (String × Json) :=
  members.filter fun m => m.1 ≠ k

/-- A member that is erased is not found, and the others are as they were. -/
theorem lookup_eraseMember :
    lookup key (eraseMember members k) = if k = key then none else lookup key members := by
  induction members with
  | nil =>
    split <;> rfl
  | cons m rest ih =>
    obtain ⟨k', w⟩ := m
    rw [lookup_cons]
    by_cases herase : k' = k
    · subst herase
      rw [eraseMember, List.filter_cons_of_neg (by simp), ← eraseMember, ih]
      by_cases hk : k' = key
      · rw [if_pos hk, if_pos hk]
      · rw [if_neg hk, if_neg hk, if_neg hk]
    · rw [eraseMember, List.filter_cons_of_pos (by simpa using herase), ← eraseMember, lookup_cons, ih]
      by_cases hk : k' = key
      · subst hk
        rw [if_pos rfl, if_neg (Ne.symm herase), if_pos rfl]
      · rw [if_neg hk, if_neg hk]

/-- Erasing a member changes its key alone. -/
theorem sameBut_eraseMember : SameBut k members (eraseMember members k) := by
  intro key hkey
  rw [lookup_eraseMember, if_neg (Ne.symm hkey)]

/-! ## One member per key -/

/-- Of the members of one key the last one counts. -/
theorem lookup_ofMembers : lookup key (ofMembers members) = lookup key members.reverse := by
  have hfold : ∀ acc, lookup key (members.foldl (fun acc m => putMember acc m.1 m.2) acc) =
      (lookup key members.reverse).or (lookup key acc) := by
    induction members with
    | nil => intro acc; rfl
    | cons m rest ih =>
      obtain ⟨k, w⟩ := m
      intro acc
      rw [List.foldl_cons, ih, List.reverse_cons, lookup_append, lookup_putMember, lookup_cons, Option.or_assoc]
      split <;> rfl
  rw [ofMembers, hfold]
  exact Option.or_none

end BotSpec.Json
