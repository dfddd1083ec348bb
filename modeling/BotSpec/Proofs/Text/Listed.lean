import Mathlib.Data.List.TakeWhile
import BotSpec.Text.Blank
import BotSpec.Text.Split

/-!
# Texts in a list

A list is written as texts with a mark between them and blanks around them. It is read by cutting at
every mark and taking the blanks off each piece; a text is `Listed` if it was written as one of the
list, blanks apart. The two agree for a text that does not contain the mark itself:

> `listed_iff`: the texts read from a list are those that are listed.

The other texts of the list may contain the mark: a cut inside of one of them makes more pieces, but
does not come near another one (`mem_pieces_intercalate`). What stays when blanks are taken off is
told by its two ends (`Trims`), and nothing else stays (`trimChars_eq_iff`).
-/

namespace BotSpec.Text

/-! ## Blanks around a text -/

/-- The first text is the second one with blanks around it, and no blank stands at an end of the
second one. -/
structure Trims (cs trimmed : List Char) : Prop where
  blanks : ∃ left right, cs = left ++ trimmed ++ right ∧ ∀ c ∈ left ++ right, isBlank c = true
  head : ∀ c, trimmed.head? = some c → isBlank c = false
  last : ∀ c, trimmed.getLast? = some c → isBlank c = false

/-- A text without blanks is listed with any blanks around it. -/
theorem Trims.of_no_blank {left cs right : List Char} (hcs : ∀ c ∈ cs, isBlank c = false)
    (hblank : ∀ c ∈ left ++ right, isBlank c = true) : Trims (left ++ cs ++ right) cs where
  blanks := ⟨left, right, rfl, hblank⟩
  head c hc := hcs c (List.mem_of_mem_head? hc)
  last c hc := hcs c (List.mem_of_mem_getLast? hc)

/-- What is dropped are the blanks in front. -/
theorem dropBlanks_append {left rest : List Char} (hleft : ∀ c ∈ left, isBlank c = true)
    (hrest : ∀ c, rest.head? = some c → isBlank c = false) : dropBlanks (left ++ rest) = rest := by
  rw [dropBlanks, List.dropWhile_append_of_pos hleft]
  cases rest with
  | nil => rfl
  | cons c cs => exact List.dropWhile_cons_of_neg (by simp [hrest c rfl])

/-- What is left does not start with a blank. -/
theorem head?_dropBlanks (cs : List Char) {c : Char} (h : (dropBlanks cs).head? = some c) :
    isBlank c = false := by
  have hhead := List.head?_dropWhile_not isBlank cs
  rw [← dropBlanks, h] at hhead
  exact hhead

/-- What is dropped in front of a text are blanks. -/
theorem exists_dropBlanks (cs : List Char) :
    ∃ left, cs = left ++ dropBlanks cs ∧ ∀ c ∈ left, isBlank c = true :=
  ⟨cs.takeWhile isBlank, List.takeWhile_append_dropWhile.symm, fun _ hc => List.mem_takeWhile_imp hc⟩

/-- A trimmed text is the text without the blanks around it. -/
theorem trims_trimChars (cs : List Char) : Trims cs (trimChars cs) := by
  obtain ⟨left, hleft, hleftBlank⟩ := exists_dropBlanks cs
  obtain ⟨right, hright, hrightBlank⟩ := exists_dropBlanks (dropBlanks cs).reverse
  -- the back is the front of the reversed text
  have hrest : dropBlanks cs = trimChars cs ++ right.reverse := by
    rw [trimChars, ← List.reverse_append, ← hright, List.reverse_reverse]
  constructor
  case blanks =>
    refine ⟨left, right.reverse, by rw [List.append_assoc, ← hrest, ← hleft], ?_⟩
    intro c hc
    rcases List.mem_append.mp hc with hc | hc
    · exact hleftBlank c hc
    · exact hrightBlank c (List.mem_reverse.mp hc)
  case head =>
    intro c hc
    refine head?_dropBlanks cs ?_
    rw [hrest, List.head?_append, hc]
    rfl
  case last =>
    intro c hc
    refine head?_dropBlanks (dropBlanks cs).reverse ?_
    rw [trimChars, List.getLast?_reverse] at hc
    exact hc

/-- **Nothing but the blanks at both ends is taken off, and all of them are.** -/
theorem trimChars_eq_iff {cs trimmed : List Char} : trimChars cs = trimmed ↔ Trims cs trimmed := by
  constructor
  · rintro rfl
    exact trims_trimChars cs
  · rintro ⟨⟨left, right, rfl, hblank⟩, hhead, hlast⟩
    have hleft : ∀ c ∈ left, isBlank c = true := fun c hc => hblank c (List.mem_append_left _ hc)
    have hright : ∀ c ∈ right, isBlank c = true := fun c hc => hblank c (List.mem_append_right _ hc)
    cases trimmed with
    | nil =>
      -- without a text, all is dropped from the front
      have hnone : dropBlanks (left ++ [] ++ right) = [] := by
        rw [List.append_nil, ← List.append_nil (left ++ right)]
        exact dropBlanks_append hblank nofun
      rw [trimChars, hnone]
      rfl
    | cons c cs =>
      have hfront : dropBlanks (left ++ (c :: cs) ++ right) = (c :: cs) ++ right := by
        rw [List.append_assoc]
        exact dropBlanks_append hleft hhead
      have hback : dropBlanks ((c :: cs) ++ right).reverse = (c :: cs).reverse := by
        rw [List.reverse_append]
        refine dropBlanks_append (fun c hc => hright c (List.mem_reverse.mp hc)) fun c hc => hlast c ?_
        rwa [List.head?_reverse] at hc
      rw [trimChars, hfront, hback, List.reverse_reverse]

/-! ## Pieces between marks -/

/-- The pieces between marks are those of `List.splitOn`. -/
theorem pieces_eq_splitOn (mark : Char) (cs : List Char) : pieces mark cs = cs.splitOn mark := by
  induction cs with
  | nil => rfl
  | cons c cs ih =>
    have hne : pieces mark cs ≠ [] := pieces_ne_nil mark cs
    rw [List.splitOn_cons_eq_if_modifyHead, ← ih]
    simp only [pieces, beq_iff_eq]
    split
    · rfl
    · cases hpieces : pieces mark cs with
      | nil => exact absurd hpieces hne
      | cons piece others => rfl

/-- The pieces of two texts with a mark between them are those of both. -/
theorem pieces_append_mark (mark : Char) (cs ds : List Char) :
    pieces mark (cs ++ mark :: ds) = pieces mark cs ++ pieces mark ds := by
  simp only [pieces_eq_splitOn, List.splitOn_append_cons_self]

/-- A text without marks is one piece. -/
theorem pieces_of_not_mem {mark : Char} {cs : List Char} (h : mark ∉ cs) : pieces mark cs = [cs] := by
  rw [pieces_eq_splitOn, List.splitOn_eq_singleton h]

/-- A text without the mark is one of the pieces, whatever the texts beside it contain. -/
theorem mem_pieces_intercalate {mark : Char} {cs : List Char} (h : mark ∉ cs) {texts : List (List Char)}
    (hcs : cs ∈ texts) : cs ∈ pieces mark ([mark].intercalate texts) := by
  induction texts with
  | nil => cases hcs
  | cons first rest ih =>
    cases rest with
    | nil =>
      rw [List.mem_singleton] at hcs
      rw [List.intercalate_singleton, ← hcs, pieces_of_not_mem h]
      exact List.mem_singleton_self cs
    | cons second others =>
      rw [List.intercalate_cons_cons, List.append_assoc, List.singleton_append, pieces_append_mark, List.mem_append]
      rcases List.mem_cons.mp hcs with rfl | hcs
      · rw [pieces_of_not_mem h]
        exact Or.inl (List.mem_singleton_self cs)
      · exact Or.inr (ih hcs)

/-! ## Lists -/

/-- The text is written in a list of texts that the mark divides, with blanks around it at most. -/
def Listed (mark : Char) (list text : List Char) : Prop :=
  ∃ texts : List (List Char), list = [mark].intercalate texts ∧ ∃ spaced ∈ texts, Trims spaced text

/-- **What is read from a list is what is listed.** -/
theorem listed_iff {mark : Char} {list text : List Char} (hmark : isBlank mark = false)
    (htext : mark ∉ text) :
    Listed mark list text ↔ ∃ piece ∈ pieces mark list, trimChars piece = text := by
  simp only [trimChars_eq_iff]
  constructor
  · rintro ⟨texts, rfl, spaced, hspaced, htrims⟩
    refine ⟨spaced, mem_pieces_intercalate ?_ hspaced, htrims⟩
    -- the mark is neither in the text nor one of the blanks around it
    obtain ⟨left, right, rfl, hblank⟩ := htrims.blanks
    intro hmem
    rcases List.mem_append.mp hmem with hmem | hmem
    · rcases List.mem_append.mp hmem with hmem | hmem
      · rw [hblank mark (List.mem_append_left _ hmem)] at hmark
        cases hmark
      · exact htext hmem
    · rw [hblank mark (List.mem_append_right _ hmem)] at hmark
      cases hmark
  · rintro ⟨piece, hpiece, htrims⟩
    exact ⟨pieces mark list, (pieces_intercalate mark list).symm, piece, hpiece, htrims⟩

end BotSpec.Text
