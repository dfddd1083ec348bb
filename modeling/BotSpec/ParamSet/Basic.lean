/-!
# Sets of numeric parameters

A `ParamSet` gives each of finitely many keys a number. The entries are kept in the order of their
keys, so two sets with the same entries are equal.

* `insert` keeps the order (`sorted`), `ofList` lets a later entry replace an earlier one of the
  same key.
-/

namespace BotSpec

/-- Entries with strictly increasing keys. -/
structure ParamSet where
  entries : List (String × Float)
  sorted : entries.Pairwise fun a b => a.1 < b.1

namespace ParamSet

def empty : ParamSet := ⟨[], List.Pairwise.nil⟩

instance : Inhabited ParamSet := ⟨empty⟩

/-- The value of a key in a list of entries. -/
def lookup (key : String) : List (String × Float) → Option Float
  | [] => none
  | (k, v) :: rest => if k = key then some v else lookup key rest

/-- The value of a key. -/
def get? (p : ParamSet) (key : String) : Option Float := lookup key p.entries

/-- Entries with one entry put at its place; an entry of the same key is replaced. -/
def insertEntry (key : String) (value : Float) : List (String × Float) → List (String × Float)
  | [] => [(key, value)]
  | (k, v) :: rest =>
    if key < k then (key, value) :: (k, v) :: rest
    else if k = key then (key, value) :: rest
    else (k, v) :: insertEntry key value rest

theorem mem_insertEntry {key : String} {value : Float} {entries : List (String × Float)}
    {e : String × Float} (h : e ∈ insertEntry key value entries) :
    e = (key, value) ∨ e ∈ entries := by
  induction entries with
  | nil => simpa [insertEntry] using h
  | cons a rest ih =>
    unfold insertEntry at h
    split at h
    · simpa using h
    · split at h
      · rcases List.mem_cons.1 h with rfl | h
        · exact Or.inl rfl
        · exact Or.inr (List.mem_cons_of_mem _ h)
      · rcases List.mem_cons.1 h with rfl | h
        · exact Or.inr List.mem_cons_self
        · exact (ih h).imp id (List.mem_cons_of_mem _)

theorem insertEntry_sorted {key : String} {value : Float} {entries : List (String × Float)}
    (h : entries.Pairwise fun a b => a.1 < b.1) :
    (insertEntry key value entries).Pairwise fun a b => a.1 < b.1 := by
  induction entries with
  | nil => exact List.pairwise_singleton _ _
  | cons a rest ih =>
    obtain ⟨ha, hr⟩ := List.pairwise_cons.1 h
    unfold insertEntry
    split
    · rename_i hlt
      refine List.pairwise_cons.2 ⟨?_, h⟩
      intro b hb
      rcases List.mem_cons.1 hb with rfl | hb
      · exact hlt
      · exact String.lt_trans hlt (ha b hb)
    · rename_i hnlt
      split
      · rename_i heq
        refine List.pairwise_cons.2 ⟨?_, hr⟩
        intro b hb
        exact heq ▸ ha b hb
      · rename_i hne
        refine List.pairwise_cons.2 ⟨?_, ih hr⟩
        intro b hb
        rcases mem_insertEntry hb with rfl | hb
        · exact Std.lt_of_le_of_ne (Std.not_lt.1 hnlt) hne
        · exact ha b hb

/-- The set with one entry more, or with the entry of that key replaced. -/
def insert (p : ParamSet) (key : String) (value : Float) : ParamSet :=
  ⟨insertEntry key value p.entries, insertEntry_sorted p.sorted⟩

/-- The entries of a list; of several with one key the last one counts. -/
def ofList (entries : List (String × Float)) : ParamSet :=
  entries.foldl (fun p e => p.insert e.1 e.2) empty

def size (p : ParamSet) : Nat := p.entries.length

def isEmpty (p : ParamSet) : Bool := p.entries.isEmpty

/-- The numbers, in the order of their keys. -/
def values (p : ParamSet) : List Float := p.entries.map fun e => e.2

end ParamSet

end BotSpec
