import Mathlib.Data.List.Basic
import BotSpec.Record.Scalar

/-!
# Reading what was written

`Decimal.toText` writes every place, so nothing is lost when the text is read again:

> `ofText?_toText`: a decimal is read back from its text, but a zero loses its minus sign.

A written decimal is at most 29 digits, a point and at most 28 more digits, and the number that they
make is the magnitude. So the reader never meets a digit that does not fit, which is the only case
where places would be rounded: it takes the digits in front of the point one by one
(`readUnsigned_whole`), and those behind it (`readUnsigned_places`).
-/

namespace BotSpec

/-! ## Digits -/

namespace Text

/-- The character of a digit is read as the digit. -/
theorem digit?_digitChar {d : Nat} (h : d < 10) : digit? (digitChar d) = some d := by
  have hall : ∀ d : Fin 10, digit? (digitChar d) = some d.val := by decide
  exact hall ⟨d, h⟩

/-- A digit is one of the characters from 48 to 57. -/
theorem toNat_of_digit? {c : Char} {d : Nat} (h : digit? c = some d) : 48 ≤ c.toNat ∧ c.toNat ≤ 57 := by
  unfold digit? at h
  split at h
  next hrange => exact hrange
  next => cases h

theorem isBlank_of_digit? {c : Char} {d : Nat} (h : digit? c = some d) : isBlank c = false := by
  obtain ⟨hlow, hhigh⟩ := toNat_of_digit? h
  simp only [isBlank, Bool.or_eq_false_iff, Bool.and_eq_false_iff, decide_eq_false_iff_not, beq_eq_false_iff_ne]
  omega

/-- Two runs of digits one after the other. -/
theorem appendDigits?_append (n : Nat) (front back : List Char) :
    appendDigits? n (front ++ back) = (appendDigits? n front).bind fun m => appendDigits? m back := by
  induction front generalizing n with
  | nil => rfl
  | cons c front ih =>
    simp only [List.cons_append, appendDigits?]
    cases digit? c with
    | none => rfl
    | some d => exact ih _

/-- More digits do not make a number smaller. -/
theorem le_of_appendDigits? {n m : Nat} {cs : List Char} (h : appendDigits? n cs = some m) : n ≤ m := by
  induction cs generalizing n with
  | nil => exact Nat.le_of_eq (Option.some.inj h)
  | cons c cs ih =>
    obtain ⟨d, -, hrest⟩ := Option.bind_eq_some_iff.mp h
    have := ih hrest
    omega

/-- A run of digits consists of digits. -/
theorem exists_digit_of_appendDigits? {n m : Nat} {cs : List Char} (h : appendDigits? n cs = some m) :
    ∀ c ∈ cs, ∃ d, digit? c = some d := by
  induction cs generalizing n with
  | nil => intro c hc; cases hc
  | cons c cs ih =>
    obtain ⟨d, hdigit, hrest⟩ := Option.bind_eq_some_iff.mp h
    intro x hx
    rcases List.mem_cons.mp hx with rfl | hx
    · exact ⟨d, hdigit⟩
    · exact ih hrest x hx

/-- The digits of a number are read as the number. -/
theorem appendDigits?_natDigits (n : Nat) : appendDigits? 0 (natDigits n) = some n := by
  induction n using natDigits.induct with
  | case1 n hsmall =>
    rw [natDigits, if_pos hsmall, appendDigits?, digit?_digitChar hsmall, Option.bind_some, Nat.zero_mul, Nat.zero_add,
      appendDigits?]
  | case2 n hlarge ih =>
    have hlast : n % 10 < 10 := Nat.mod_lt n (by decide)
    have hvalue : n / 10 * 10 + n % 10 = n := by omega
    rw [natDigits, if_neg hlarge, appendDigits?_append, ih, Option.bind_some, appendDigits?, digit?_digitChar hlast,
      Option.bind_some, appendDigits?, hvalue]

/-- Zeros in front of a number do not change it. -/
theorem appendDigits?_zeros (k : Nat) (cs : List Char) :
    appendDigits? 0 (List.replicate k '0' ++ cs) = appendDigits? 0 cs := by
  induction k with
  | zero => rfl
  | succ k ih =>
    rw [List.replicate_succ, List.cons_append, appendDigits?]
    exact ih

/-- Without blanks there is nothing to trim. -/
theorem trimChars_eq_self {cs : List Char} (h : ∀ c ∈ cs, isBlank c = false) : trimChars cs = cs := by
  have hkeep : ∀ {cs : List Char}, (∀ c ∈ cs, isBlank c = false) → dropBlanks cs = cs := by
    intro cs h
    cases cs with
    | nil => rfl
    | cons c rest => rw [dropBlanks, List.dropWhile_cons_of_neg (by simp [h c List.mem_cons_self])]
  rw [trimChars, hkeep h, hkeep (by simpa using h), List.reverse_reverse]

end Text

namespace Decimal

open Text (digit? natDigits appendDigits?)

/-! ## Reading digits -/

/-- A digit that fits goes to the end of the mantissa. -/
theorem readUnsigned_digit {r : Reading} {c : Char} {d : Nat} (hdigit : digit? c = some d)
    (hfits : r.mantissa * 10 + d < twoPow 96) (hplaces : r.point → r.places ≠ 28) (cs : List Char) :
    readUnsigned r (c :: cs) =
      readUnsigned ⟨r.mantissa * 10 + d, if r.point then r.places + 1 else 0, r.point, true⟩ cs := by
  rw [readUnsigned, if_neg fun h => hplaces h.1 h.2]
  simp only [hdigit]
  rw [if_pos hfits]

/-- The reader behind the digits in front of the point. -/
theorem readUnsigned_whole {ds : List Char} {n m : Nat} (hvalue : appendDigits? n ds = some m) (hfits : m < twoPow 96)
    (any : Bool) (rest : List Char) :
    readUnsigned ⟨n, 0, false, any⟩ (ds ++ rest) = readUnsigned ⟨m, 0, false, any || !ds.isEmpty⟩ rest := by
  induction ds generalizing n any with
  | nil =>
    cases hvalue
    rw [List.nil_append, List.isEmpty_nil, Bool.not_true, Bool.or_false]
  | cons c ds ih =>
    obtain ⟨d, hdigit, hrest⟩ := Option.bind_eq_some_iff.mp hvalue
    have hnext : n * 10 + d < twoPow 96 := Nat.lt_of_le_of_lt (Text.le_of_appendDigits? hrest) hfits
    rw [List.cons_append, readUnsigned_digit (r := ⟨n, 0, false, any⟩) hdigit hnext (by simp)]
    simpa using ih hrest true

/-- The digits behind the point are places. -/
theorem readUnsigned_places {ds : List Char} {n m k : Nat} (hvalue : appendDigits? n ds = some m)
    (hfits : m < twoPow 96) (hplaces : k + ds.length ≤ 28) :
    readUnsigned ⟨n, k, true, true⟩ ds = some (m, k + ds.length) := by
  induction ds generalizing n k with
  | nil =>
    cases hvalue
    rfl
  | cons c ds ih =>
    obtain ⟨d, hdigit, hrest⟩ := Option.bind_eq_some_iff.mp hvalue
    have hnext : n * 10 + d < twoPow 96 := Nat.lt_of_le_of_lt (Text.le_of_appendDigits? hrest) hfits
    rw [List.length_cons] at hplaces
    have hroom : k ≠ 28 := by omega
    rw [readUnsigned_digit (r := ⟨n, k, true, true⟩) hdigit hnext fun _ => hroom, List.length_cons]
    have htail := ih hrest (k := k + 1) (by omega)
    rw [if_pos rfl, htail]
    congr 2
    omega

/-! ## Reading decimals -/

/-- The digits of a decimal, with zeros in front so that at least one stands before the point. -/
def paddedDigits (d : Decimal) : List Char :=
  List.replicate (d.scale + 1 - (natDigits d.magnitude).length) '0' ++ natDigits d.magnitude

/-- The digits, with the zeros in front of them, are those of the magnitude. -/
theorem appendDigits?_paddedDigits (d : Decimal) : appendDigits? 0 d.paddedDigits = some d.magnitude := by
  rw [paddedDigits, Text.appendDigits?_zeros, Text.appendDigits?_natDigits]

theorem scale_lt_length_paddedDigits (d : Decimal) : d.scale < d.paddedDigits.length := by
  rw [paddedDigits, List.length_append, List.length_replicate]
  omega

/-- A written magnitude in parts: digits in front of the point, then the point and as many digits as
there are places. -/
theorem exists_withPoint_eq (d : Decimal) :
    ∃ front back m, withPoint d.scale (natDigits d.magnitude) = front ++ (if d.scale = 0 then [] else '.' :: back) ∧
      front ≠ [] ∧ back.length = d.scale ∧
      appendDigits? 0 front = some m ∧ appendDigits? m back = some d.magnitude := by
  have hlength := d.scale_lt_length_paddedDigits
  have hparts := d.appendDigits?_paddedDigits
  rw [← List.take_append_drop (d.paddedDigits.length - d.scale) d.paddedDigits, Text.appendDigits?_append] at hparts
  obtain ⟨m, hfront, hback⟩ := Option.bind_eq_some_iff.mp hparts
  refine ⟨_, _, m, ?_, ?_, ?_, hfront, hback⟩
  -- without places the front is everything, and the point is not written
  · show (if d.scale = 0 then d.paddedDigits else _) = _
    by_cases hscale : d.scale = 0
    · rw [if_pos hscale, if_pos hscale, List.append_nil, hscale, Nat.sub_zero, List.take_length]
    · rw [if_neg hscale, if_neg hscale]
      rfl
  · rw [← List.length_pos_iff_ne_nil, List.length_take]
    omega
  · rw [List.length_drop]
    omega

/-- A written magnitude is read back, with its places. -/
theorem readUnsigned_withPoint (d : Decimal) :
    readUnsigned ⟨0, 0, false, false⟩ (withPoint d.scale (natDigits d.magnitude)) = some (d.magnitude, d.scale) := by
  obtain ⟨front, back, m, htext, hne, hlength, hfront, hback⟩ := d.exists_withPoint_eq
  have hm : m < twoPow 96 := Nat.lt_of_le_of_lt (Text.le_of_appendDigits? hback) d.magnitude_lt
  rw [htext, readUnsigned_whole hfront hm, List.isEmpty_eq_false_iff.mpr hne]
  -- without places the text ends here, otherwise the point and the places follow
  by_cases hscale : d.scale = 0
  · have hnil : back = [] := List.eq_nil_of_length_eq_zero (hlength.trans hscale)
    rw [hnil] at hback
    cases hback
    rw [if_pos hscale, hscale]
    rfl
  · have hplaces : 0 + back.length ≤ 28 := by
      have := d.scale_le
      omega
    rw [if_neg hscale]
    show readUnsigned ⟨m, 0, true, true⟩ back = _
    rw [readUnsigned_places hback d.magnitude_lt hplaces, hlength, Nat.zero_add]

/-- A written magnitude starts with a digit. -/
theorem exists_withPoint_eq_cons (d : Decimal) :
    ∃ c cs n, withPoint d.scale (natDigits d.magnitude) = c :: cs ∧ digit? c = some n := by
  obtain ⟨front, back, m, htext, hne, -, hfront, -⟩ := d.exists_withPoint_eq
  cases front with
  | nil => exact absurd rfl hne
  | cons c cs =>
    obtain ⟨n, hdigit⟩ := Text.exists_digit_of_appendDigits? hfront c List.mem_cons_self
    exact ⟨c, _, n, htext, hdigit⟩

/-- A written magnitude has no blanks, so trimming leaves it as it is. -/
theorem isBlank_of_mem_withPoint (d : Decimal) :
    ∀ c ∈ withPoint d.scale (natDigits d.magnitude), Text.isBlank c = false := by
  obtain ⟨front, back, m, htext, -, -, hfront, hback⟩ := d.exists_withPoint_eq
  have hdigits {n m : Nat} {cs : List Char} (h : appendDigits? n cs = some m) : ∀ c ∈ cs, Text.isBlank c = false := by
    intro c hc
    obtain ⟨n, hdigit⟩ := Text.exists_digit_of_appendDigits? h c hc
    exact Text.isBlank_of_digit? hdigit
  intro c hc
  rw [htext] at hc
  rcases List.mem_append.mp hc with hc | hc
  · exact hdigits hfront c hc
  · split at hc
    · cases hc
    · rcases List.mem_cons.mp hc with rfl | hc
      · decide
      · exact hdigits hback c hc

/-- A number that starts with a digit has no sign. -/
theorem readPlain?_of_digit? {c : Char} {n : Nat} (h : digit? c = some n) (cs : List Char) :
    readPlain? (c :: cs) = readSigned? false (c :: cs) := by
  unfold readPlain?
  split
  next heq => cases heq; cases h
  next heq => cases heq; cases h
  next => rfl

/-- A decimal with the sign of a zero taken off. -/
def dropZeroSign (d : Decimal) : Decimal := { d with negative := d.negative && d.magnitude != 0 }

/-- Only a zero with a minus sign is changed. -/
theorem dropZeroSign_eq_self_iff {d : Decimal} :
    d.dropZeroSign = d ↔ ¬ (d.negative = true ∧ d.magnitude = 0) := by
  obtain ⟨negative, magnitude, scale, hmagnitude, hscale⟩ := d
  simp [dropZeroSign]

theorem dropZeroSign_dropZeroSign (d : Decimal) : d.dropZeroSign.dropZeroSign = d.dropZeroSign := by
  simp [dropZeroSign]

/-- The sign of a zero does not make it another number. -/
theorem dropZeroSign_beq (d : Decimal) : (d.dropZeroSign == d) = true := by
  have hcoefficient : d.dropZeroSign.coefficient = d.coefficient := by
    by_cases hzero : d.magnitude = 0
    · simp [dropZeroSign, coefficient, hzero]
    · simp [dropZeroSign, coefficient, hzero]
  show (d.dropZeroSign.coefficient * tenPow d.scale == d.coefficient * tenPow d.scale) = true
  rw [hcoefficient, beq_self_eq_true]

/-- **A decimal is read back from its text**, with all its places; only a zero loses its minus sign.
-/
theorem ofText?_toText (d : Decimal) : ofText? d.toText = some d.dropZeroSign := by
  obtain ⟨c, cs, n, htext, hdigit⟩ := d.exists_withPoint_eq_cons
  have hsigned (negative : Bool) : readSigned? negative (withPoint d.scale (natDigits d.magnitude)) =
      some { d with negative := negative && d.magnitude != 0 } := by
    rw [readSigned?, readUnsigned_withPoint, Option.bind_some]
    exact dif_pos ⟨d.magnitude_lt, d.scale_le⟩
  have hplain : readPlain? d.toText.toList = some d.dropZeroSign := by
    rw [toText, String.toList_ofList]
    cases hnegative : d.negative with
    | true =>
      rw [if_pos rfl, readPlain?, hsigned, dropZeroSign, hnegative]
    | false =>
      rw [if_neg Bool.false_ne_true, htext, readPlain?_of_digit? hdigit, ← htext, hsigned, dropZeroSign, hnegative]
  -- what is written has no blanks
  have htrim : Text.trim d.toText = d.toText := by
    have hblank : ∀ c ∈ d.toText.toList, Text.isBlank c = false := by
      intro c hc
      rw [toText, String.toList_ofList] at hc
      split at hc
      · rcases List.mem_cons.mp hc with rfl | hc
        · decide
        · exact d.isBlank_of_mem_withPoint c hc
      · exact d.isBlank_of_mem_withPoint c hc
    rw [Text.trim, Text.trimChars_eq_self hblank, String.ofList_toList]
  rw [ofText?, htrim, read?, hplain, Option.some_or]

end Decimal

end BotSpec
