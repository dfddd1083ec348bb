import Mathlib.Data.List.Basic
import Mathlib.Logic.Relation
import BotSpec.Catalogue.Variant

/-!
# Which variant a text spells

A type is looked up by its letters: the ASCII letters and digits of the text in lower case, in their
order. Each variant has two names, the key and the display name, and the lookup takes the first
variant that has a name with these letters.

What makes the lookup independent of the order is a fact about the 44 names alone
(`eq_of_letters_eq`): the letters of a name of one variant are not those of a name of another. So at
most one variant is spelled, whoever is asked first:

> `resolution_is_unambiguous`: a text is resolved if its letters are those of a name, to the variant
> of that name, and is refused as it was written if they are not.

A respelling of a name is made in single edits, none of which the letters show (`Edit.letters_eq`).
-/

namespace BotSpec

namespace Text

/-- The ASCII letters and digits of a text, in lower case. -/
def letters (cs : List Char) : List Char := (cs.filter Char.isAlphanum).map Char.toLower

theorem isAsciiAlphanumeric_eq_isAlphanum (c : Char) : isAsciiAlphanumeric c = c.isAlphanum := by
  unfold isAsciiAlphanumeric Char.isAlphanum Char.isAlpha Char.isUpper Char.isLower Char.isDigit
  simp only [Char.le_def, ge_iff_le, Bool.decide_and,
    Bool.or_comm (decide _ && decide _) (decide ('A'.val ≤ _) && _)]

/-- A character is one of the 26 capitals, or is written in one case only. -/
theorem isCapital_or_toLower_eq (c : Char) :
    (∃ n : Fin 26, c = Char.ofNat (65 + n)) ∨ c.toLower = c ∧ lowerAscii c = c := by
  by_cases h : 'A' ≤ c ∧ c ≤ 'Z'
  · refine .inl ⟨⟨c.toNat - 65, ?_⟩, ?_⟩
    · have hlast : c.toNat ≤ 90 := h.2
      omega
    · have hfirst : 65 ≤ c.toNat := h.1
      rw [Nat.add_sub_cancel' hfirst, Char.ofNat_toNat]
  · refine .inr ⟨?_, if_neg h⟩
    exact dif_neg h

theorem lowerAscii_eq_toLower (c : Char) : lowerAscii c = c.toLower := by
  rcases isCapital_or_toLower_eq c with ⟨n, rfl⟩ | ⟨hlower, hascii⟩
  · revert n
    decide
  · rw [hlower, hascii]

/-- The folded spelling of a text are its letters. -/
theorem fold_eq_letters (s : String) : fold s = letters s.toList := by
  unfold fold letters
  rw [funext isAsciiAlphanumeric_eq_isAlphanum, funext lowerAscii_eq_toLower]

theorem isAlphanum_toLower (c : Char) : c.toLower.isAlphanum = c.isAlphanum := by
  rcases isCapital_or_toLower_eq c with ⟨n, rfl⟩ | ⟨hlower, -⟩
  · revert n
    decide
  · rw [hlower]

/-! ## Respelling -/

/-- One edit of a text: a letter in the other case, or a character put in or taken out that is
neither an ASCII letter nor a digit. -/
inductive Edit : List Char → List Char → Prop where
  | recase (front rest : List Char) {c d : Char} (h : c.toLower = d.toLower) :
    Edit (front ++ c :: rest) (front ++ d :: rest)
  | putIn (front rest : List Char) {c : Char} (h : c.isAlphanum = false) : Edit (front ++ rest) (front ++ c :: rest)
  | takeOut (front rest : List Char) {c : Char} (h : c.isAlphanum = false) : Edit (front ++ c :: rest) (front ++ rest)

/-- The second text is made from the first in any number of edits. -/
def Respelling (s t : String) : Prop := Relation.ReflTransGen Edit s.toList t.toList

/-- The letters of two texts in a row are those of both. -/
theorem letters_append (cs ds : List Char) : letters (cs ++ ds) = letters cs ++ letters ds := by
  rw [letters, List.filter_append, List.map_append]
  rfl

/-- A character that does not count does not show in the letters. -/
theorem letters_cons_of_not_alphanum {c : Char} (h : c.isAlphanum = false) (cs : List Char) :
    letters (c :: cs) = letters cs := by
  rw [letters, List.filter_cons_of_neg (by rw [h]; decide)]
  rfl

/-- Only the lower-case form of a character is seen. -/
theorem letters_cons_congr {c d : Char} (h : c.toLower = d.toLower) (cs : List Char) :
    letters (c :: cs) = letters (d :: cs) := by
  have halphanum : c.isAlphanum = d.isAlphanum := by rw [← isAlphanum_toLower c, h, isAlphanum_toLower]
  cases hd : d.isAlphanum with
  | false =>
    rw [letters_cons_of_not_alphanum (halphanum.trans hd), letters_cons_of_not_alphanum hd]
  | true =>
    rw [letters, letters, List.filter_cons_of_pos (halphanum.trans hd), List.filter_cons_of_pos hd, List.map_cons,
      List.map_cons, h]

theorem Edit.letters_eq {cs ds : List Char} (h : Edit cs ds) : letters cs = letters ds := by
  cases h with
  | recase front rest h => rw [letters_append, letters_append, letters_cons_congr h]
  | putIn front rest h => rw [letters_append, letters_append, letters_cons_of_not_alphanum h]
  | takeOut front rest h => rw [letters_append, letters_append, letters_cons_of_not_alphanum h]

theorem letters_eq_of_edits {cs ds : List Char} (h : Relation.ReflTransGen Edit cs ds) :
    letters cs = letters ds := by
  induction h with
  | refl => rfl
  | tail _ hedit ih => exact ih.trans hedit.letters_eq

theorem Respelling.letters_eq {s t : String} (h : Respelling s t) : letters s.toList = letters t.toList :=
  letters_eq_of_edits h

end Text

open Text (letters Respelling)

namespace VariantTag

/-- The two names of a variant. -/
def names (tag : VariantTag) : List String := [tag.key, tag.displayName]

/-- A text has the letters of a name. -/
def SpelledAs (s : String) (tag : VariantTag) : Prop := ∃ name ∈ tag.names, letters s.toList = letters name.toList

/-- Every tag is in the list that is searched. -/
theorem mem_all (tag : VariantTag) : tag ∈ all := by
  cases tag <;> decide

/-- The letters of every name, with the variant that has it. -/
def namings : List (List Char × VariantTag) :=
  all.flatMap fun tag => tag.names.map fun name => (letters name.toList, tag)

/-- Every name of a tag is among the 44. -/
theorem mem_namings {tag : VariantTag} {name : String} (h : name ∈ tag.names) :
    (letters name.toList, tag) ∈ namings :=
  List.mem_flatMap.mpr ⟨tag, mem_all tag, List.mem_map_of_mem h⟩

/-- **No two variants share the letters of a name.** -/
theorem eq_of_letters_eq {tag other : VariantTag} {name name' : String} (h : name ∈ tag.names) (h' : name' ∈ other.names)
    (hletters : letters name.toList = letters name'.toList) : tag = other := by
  have hall : ∀ n ∈ namings, ∀ m ∈ namings, n.1 = m.1 → n.2 = m.2 := by decide +kernel
  exact hall _ (mem_namings h) _ (mem_namings h') hletters

theorem letters_name_ne_nil {tag : VariantTag} {name : String} (h : name ∈ tag.names) :
    letters name.toList ≠ [] := by
  have hall : ∀ n ∈ namings, n.1 ≠ [] := by decide +kernel
  exact hall _ (mem_namings h)

/-- A text spells one variant at most. -/
theorem SpelledAs.unique {s : String} {tag other : VariantTag} (h : SpelledAs s tag)
    (h' : SpelledAs s other) :
    tag = other := by
  obtain ⟨name, hname, heq⟩ := h
  obtain ⟨name', hname', heq'⟩ := h'
  exact eq_of_letters_eq hname hname' (heq.symm.trans heq')

/-- The lookup asks whether a name has the letters of the text. -/
theorem spelledBy_fold_iff {s : String} {tag : VariantTag} :
    tag.spelledBy (Text.fold s) = true ↔ SpelledAs s tag := by
  simp only [spelledBy, Text.fold_eq_letters, Bool.or_eq_true, decide_eq_true_eq]
  constructor
  · rintro (hkey | hname)
    · exact ⟨tag.key, List.mem_cons_self, hkey.symm⟩
    · exact ⟨tag.displayName, List.mem_cons_of_mem _ List.mem_cons_self, hname.symm⟩
  · rintro ⟨name, hname, heq⟩
    rcases List.mem_pair.mp hname with rfl | rfl
    · exact Or.inl heq.symm
    · exact Or.inr heq.symm

/-- Whatever the order is in which the variants are tried, the one that is spelled is found. -/
theorem find?_eq_some_iff {order : List VariantTag} (horder : ∀ tag, tag ∈ order) {s : String}
    {tag : VariantTag} :
    order.find? (fun tag => tag.spelledBy (Text.fold s)) = some tag ↔ SpelledAs s tag := by
  constructor
  · intro h
    exact spelledBy_fold_iff.mp (by simpa using List.find?_some h)
  · intro h
    have hsome : (order.find? fun tag => tag.spelledBy (Text.fold s)).isSome := by
      rw [List.find?_isSome]
      exact ⟨tag, horder tag, spelledBy_fold_iff.mpr h⟩
    obtain ⟨found, hfound⟩ := Option.isSome_iff_exists.mp hsome
    have hspelled : SpelledAs s found := spelledBy_fold_iff.mp (by simpa using List.find?_some hfound)
    rw [hfound, hspelled.unique h]

/-- The order does not count, and a text without letters needs no case of its own. -/
theorem find?_eq_parse? {order : List VariantTag} (horder : ∀ tag, tag ∈ order) (s : String) :
    order.find? (fun tag => tag.spelledBy (Text.fold s)) = parse? s := by
  simp only [parse?]
  split
  next hnil =>
    rw [List.find?_eq_none]
    intro tag _ hspelled
    obtain ⟨name, hname, heq⟩ := spelledBy_fold_iff.mp hspelled
    rw [Text.fold_eq_letters] at hnil
    exact letters_name_ne_nil hname (heq.symm.trans hnil)
  next =>
    refine Option.ext fun tag => ?_
    rw [find?_eq_some_iff horder, find?_eq_some_iff mem_all]

/-- What is found is what the text spells. -/
theorem parse?_eq_some_iff {s : String} {tag : VariantTag} : parse? s = some tag ↔ SpelledAs s tag := by
  rw [← find?_eq_parse? mem_all, find?_eq_some_iff mem_all]

end VariantTag

namespace Variant

open VariantTag (SpelledAs)

/-- A text is resolved exactly to the variant that it spells. -/
theorem resolve_eq_ok_iff {s : String} {v : Variant} :
    resolve s = .ok v ↔ ∃ tag, v = tag.variant ∧ SpelledAs s tag := by
  simp only [← VariantTag.parse?_eq_some_iff]
  unfold resolve
  cases VariantTag.parse? s with
  | none => simp
  | some tag => simp [eq_comm]

/-- What is refused is what no variant is spelled as. -/
theorem resolve_eq_error_iff {s : String} : resolve s = .error ⟨s⟩ ↔ ∀ tag, ¬ SpelledAs s tag := by
  simp only [← VariantTag.parse?_eq_some_iff]
  unfold resolve
  cases VariantTag.parse? s with
  | none => simp
  | some tag => simp

/-- A text with the letters of a name is resolved to the variant of the name. -/
theorem resolve_of_letters_eq {s name : String} {tag : VariantTag} (hname : name ∈ tag.names)
    (h : letters s.toList = letters name.toList) : resolve s = .ok tag.variant :=
  resolve_eq_ok_iff.mpr ⟨tag, rfl, name, hname, h⟩

/-- **The letters of a text tell the variant.** Texts with the same letters are resolved alike; a
text is resolved to the one variant that has a name with its letters, whichever variants are tried
first; and a text without letters, or with those of no name, is refused as it was written. So every
respelling of a name is resolved to its variant. -/
theorem resolution_is_unambiguous (s : String) :
    (∀ s', letters s.toList = letters s'.toList → ∀ v, resolve s = .ok v ↔ resolve s' = .ok v) ∧
    (∀ v, resolve s = .ok v ↔ ∃ tag, v = tag.variant ∧ SpelledAs s tag ∧ ∀ other, SpelledAs s other → other = tag) ∧
    (∀ order : List VariantTag, (∀ tag, tag ∈ order) →
      resolve s = match order.find? fun tag => tag.spelledBy (Text.fold s) with
        | some tag => .ok tag.variant
        | none => .error ⟨s⟩) ∧
    (resolve s = .error ⟨s⟩ ↔ letters s.toList = [] ∨ ∀ tag, ¬ SpelledAs s tag) ∧
    ∀ tag : VariantTag, ∀ name ∈ tag.names, Respelling name s → resolve s = .ok tag.variant := by
  refine ⟨?_, ?_, ?_, ?_, ?_⟩
  · intro s' h v
    simp only [resolve_eq_ok_iff, SpelledAs, h]
  · intro v
    rw [resolve_eq_ok_iff]
    constructor
    · rintro ⟨tag, rfl, h⟩
      exact ⟨tag, rfl, h, fun other hother => hother.unique h⟩
    · rintro ⟨tag, rfl, h, -⟩
      exact ⟨tag, rfl, h⟩
  · intro order horder
    rw [VariantTag.find?_eq_parse? horder]
    rfl
  · rw [resolve_eq_error_iff]
    refine ⟨Or.inr, ?_⟩
    rintro (hnil | hnone)
    · rintro tag ⟨name, hname, heq⟩
      exact VariantTag.letters_name_ne_nil hname (heq.symm.trans hnil)
    · exact hnone
  · intro tag name hname h
    exact resolve_of_letters_eq hname h.letters_eq.symm

/-- A display name in another case and with another mark, looked up from the last variant to the
first, and a text without letters. -/
theorem resolution_is_unambiguous_rsi :
    letters "R-SI".toList = letters "rsi".toList ∧ (∀ tag, tag ∈ VariantTag.all.reverse) ∧ Respelling "RSI" "r·SI" ∧
      resolve "r·SI" = .ok VariantTag.rsi.variant ∧
      (resolve "R-SI" = .ok VariantTag.rsi.variant ↔ resolve "rsi" = .ok VariantTag.rsi.variant) ∧
      (resolve "r·SI" = match VariantTag.all.reverse.find? fun tag => tag.spelledBy (Text.fold "r·SI") with
        | some tag => .ok tag.variant
        | none => .error ⟨"r·SI"⟩) ∧
      resolve "+++" = .error ⟨"+++"⟩ := by
  have hletters : letters "R-SI".toList = letters "rsi".toList := by decide
  have horder : ∀ tag, tag ∈ VariantTag.all.reverse := fun tag => List.mem_reverse.mpr tag.mem_all
  have hrespelling : Respelling "RSI" "r·SI" := by
    have hcase : Text.Edit "RSI".toList "rSI".toList := .recase [] ['S', 'I'] (by decide)
    have hmark : Text.Edit "rSI".toList "r·SI".toList := .putIn ['r'] ['S', 'I'] (by decide)
    exact (Relation.ReflTransGen.single hcase).tail hmark
  obtain ⟨-, -, horders, -, hrespelled⟩ := resolution_is_unambiguous "r·SI"
  exact ⟨hletters, horder, hrespelling, hrespelled .rsi "RSI" (by decide) hrespelling,
    (resolution_is_unambiguous "R-SI").1 "rsi" hletters _, horders _ horder,
    (resolution_is_unambiguous "+++").2.2.2.1.mpr (Or.inl (by decide))⟩

end Variant

end BotSpec
