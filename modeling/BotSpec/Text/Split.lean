/-!
# Cutting text

`cut` splits at the first mark, `pieces` at every mark. Joined by the mark, the pieces give the text
back (`pieces_intercalate`), and there is always at least one.
-/

namespace BotSpec.Text

/-- What stands before the first mark and what stands behind it, if the mark occurs. -/
def cut? (mark : Char) : List Char → Option (List Char × List Char)
  | [] => none
  | c :: cs =>
    if c = mark then some ([], cs) else (cut? mark cs).map fun p => (c :: p.1, p.2)

/-- The parts of a text between marks. -/
def pieces (mark : Char) : List Char → List (List Char)
  | [] => [[]]
  | c :: cs =>
    if c = mark then [] :: pieces mark cs
    else
      match pieces mark cs with
      | [] => [[c]]
      | p :: ps => (c :: p) :: ps

theorem pieces_ne_nil (mark : Char) (cs : List Char) : pieces mark cs ≠ [] := by
  cases cs with
  | nil => simp [pieces]
  | cons c cs =>
    unfold pieces
    split
    · simp
    · split <;> simp

theorem pieces_intercalate (mark : Char) (cs : List Char) :
    [mark].intercalate (pieces mark cs) = cs := by
  induction cs with
  | nil => rfl
  | cons c cs ih =>
    have hne := pieces_ne_nil mark cs
    unfold pieces
    split
    · rename_i h
      subst h
      cases hp : pieces c cs with
      | nil => exact absurd hp hne
      | cons p ps => simpa [List.intercalate, hp] using ih
    · cases hp : pieces mark cs with
      | nil => exact absurd hp hne
      | cons p ps =>
        rw [hp] at ih
        cases ps with
        | nil => simpa [List.intercalate] using ih
        | cons q qs => simpa [List.intercalate] using ih

end BotSpec.Text
