import Mathlib.Data.String.Basic
import BotSpec.Proofs.Json.Text

/-!
# The bytes of a string and of its text

A string in a JSON text is written with at least as many bytes as it has, and between quotes. No
escape is shorter than its character: two bytes for one, six for up to three, and twelve for the
four bytes of a surrogate pair (`stringChar_bytes`).

> `bytes_of_parse`: what is read from a text as a string is two bytes shorter, or more.

So a string that is a JSON text itself can be read again, and this comes to an end
(`wellFounded_holds`).
-/

namespace BotSpec.Json

open String (utf8Len utf8Len_cons utf8Len_le_of_suffix)

variable {cs rest : List Char}

/-! ## Escapes -/

theorem digit?_le {c : Char} {d : Nat} (h : Text.digit? c = some d) : d ≤ 9 := by
  unfold Text.digit? at h
  split at h
  next hc =>
    cases h
    have hhigh : c.toNat ≤ '9'.toNat := hc.2
    have hnine : '9'.toNat = 57 := rfl
    have hzero : '0'.toNat = 48 := rfl
    omega
  next => cases h

theorem hexDigit?_le {c : Char} {d : Nat} (h : hexDigit? c = some d) : d ≤ 15 := by
  unfold hexDigit? at h
  split at h
  next hc =>
    cases h
    have hhigh : c.toNat ≤ 'f'.toNat := hc.2
    have hf : 'f'.toNat = 102 := rfl
    have ha : 'a'.toNat = 97 := rfl
    omega
  next =>
    split at h
    next hc =>
      cases h
      have hhigh : c.toNat ≤ 'F'.toNat := hc.2
      have hf : 'F'.toNat = 70 := rfl
      have ha : 'A'.toNat = 65 := rfl
      omega
    next => exact (digit?_le h).trans (by decide)

/-- Four hexadecimal digits make 16 bits. -/
theorem unit?_le {a b c d : Char} {u : Nat} (h : unit? a b c d = some u) : u ≤ 0xFFFF := by
  simp only [unit?, Option.bind_eq_bind, Option.bind_eq_some_iff, Option.pure_def, Option.some.injEq] at h
  obtain ⟨w, hw, x, hx, y, hy, z, hz, rfl⟩ := h
  have hw := hexDigit?_le hw
  have hx := hexDigit?_le hx
  have hy := hexDigit?_le hy
  have hz := hexDigit?_le hz
  omega

/-- A character of 16 bits has at most three bytes. -/
theorem utf8Size_ofNat_le {u : Nat} (h : u ≤ 0xFFFF) : (Char.ofNat u).utf8Size ≤ 3 := by
  have hsmall : (Char.ofNat u).toNat ≤ 0xFFFF := by
    by_cases hvalid : u.isValidChar
    · rw [Char.ofNat, dif_pos hvalid]
      exact h
    · rw [Char.ofNat, dif_neg hvalid]
      exact Nat.zero_le _
  have hnot : (Char.ofNat u).utf8Size ≠ 4 := by
    rw [ne_eq, Char.utf8Size_eq_four_iff, UInt32.lt_iff_toNat_lt]
    exact Nat.not_lt.mpr hsmall
  have hfour := (Char.ofNat u).utf8Size_le_four
  omega

/-- An escaped character is one byte, and takes two to write. -/
theorem escape?_bytes {c e : Char} (h : escape? c = some e) : e.utf8Size = 1 := by
  unfold escape? at h
  split at h <;> cases h <;> rfl

/-- A unit, and the partner of a surrogate: what the six bytes of the first one leave has room for
the character. -/
theorem unitChar_bytes {u : Nat} {c : Char} (hu : u ≤ 0xFFFF) (h : unitChar u cs = some (c, rest)) :
    c.utf8Size + utf8Len rest ≤ 3 + utf8Len cs := by
  unfold unitChar at h
  split at h
  next => cases h
  next =>
    split at h
    next =>
      split at h
      next a b c' d rest' =>
        split at h
        next v hv =>
          split at h
          next =>
            -- a pair: twelve bytes are read and four are left, of which three are counted here
            obtain ⟨rfl, rfl⟩ : _ = c ∧ rest' = rest := by simpa using h
            have hfour := Char.utf8Size_le_four
              (Char.ofNat (0x10000 + (u - 0xD800) * 0x400 + (v - 0xDC00)))
            have hslash := Char.utf8Size_pos '\\'
            simp only [utf8Len_cons]
            omega
          next => cases h
        next => cases h
      next => cases h
    next =>
      cases h
      have hthree := utf8Size_ofNat_le hu
      omega

/-! ## Strings -/

/-- A character has no more bytes than what it is written with. -/
theorem stringChar_bytes {c : Char} (h : stringChar cs = some (c, rest)) :
    c.utf8Size + utf8Len rest ≤ utf8Len cs := by
  unfold stringChar at h
  split at h
  next => cases h
  next => cases h
  next a b c' d rest' =>
    -- the four digits of a unit have at least four bytes
    obtain ⟨u, hu, hunit⟩ := Option.bind_eq_some_iff.mp h
    have hbytes := unitChar_bytes (unit?_le hu) hunit
    have ha := Char.utf8Size_pos a
    have hb := Char.utf8Size_pos b
    have hc := Char.utf8Size_pos c'
    have hd := Char.utf8Size_pos d
    simp only [utf8Len_cons]
    omega
  next e rest' _ =>
    obtain ⟨e', he, hpair⟩ := Option.map_eq_some_iff.mp h
    cases hpair
    have hone := escape?_bytes he
    have hpos := Char.utf8Size_pos e
    simp only [utf8Len_cons]
    omega
  next =>
    split at h
    next => cases h
    next =>
      cases h
      rw [utf8Len_cons]
      omega

/-- A string and its closing quote, beside what has been read before. -/
theorem stringBody_bytes {read : List Char} {s : String} (h : stringBody read cs = some (s, rest)) :
    s.utf8ByteSize + utf8Len rest + 1 ≤ utf8Len read + utf8Len cs := by
  fun_induction stringBody read cs with
  | case1 read cs c rest' hc _ ih =>
    have hread := ih h
    have hchar := stringChar_bytes hc
    rw [utf8Len_cons] at hread
    omega
  | case2 read cs hc =>
    obtain ⟨rest', hquote, hpair⟩ := Option.map_eq_some_iff.mp h
    cases hpair
    unfold afterQuote? at hquote
    split at hquote
    next =>
      cases hquote
      rw [String.utf8ByteSize_ofList, String.utf8Len_reverse, utf8Len_cons]
      have hone : '"'.utf8Size = 1 := rfl
      omega
    next => cases hquote

theorem skipSpaces_bytes (cs : List Char) : utf8Len (skipSpaces cs) ≤ utf8Len cs :=
  utf8Len_le_of_suffix (List.dropWhile_suffix _)

/-- A string among scalars stands between quotes. -/
theorem scalar_string_bytes {deny : Refusal} {p : Parsed cs Json} {s : String} (h : scalar deny cs = .ok p)
    (hs : p.value = .string s) : s.utf8ByteSize + 2 ≤ utf8Len cs := by
  unfold scalar at h
  split at h
  next body =>
    split at h
    next t rest' hbody =>
      cases h
      cases hs
      have hbytes := stringBody_bytes hbody
      have hone : '"'.utf8Size = 1 := rfl
      rw [String.utf8Len_nil] at hbytes
      rw [utf8Len_cons]
      omega
    next => cases h
  next => cases (scalar_word h).symm.trans hs
  next => cases (scalar_word h).symm.trans hs
  next => cases (scalar_word h).symm.trans hs
  next =>
    split at h
    next q hq =>
      cases h
      have hvalue : q.value = .string s := hs
      exact absurd hvalue (readUnsigned_ne_string hq)
    next => cases h
  next => cases h
  next => cases h
  next => exact absurd hs (readUnsigned_ne_string h)

/-- **A string is at least two bytes shorter than its text.** -/
theorem bytes_of_parse {text s : String} (h : parse text = .ok (.string s)) :
    s.utf8ByteSize + 2 ≤ text.utf8ByteSize := by
  obtain ⟨rest, -, hfound⟩ := parse_eq_ok_iff.mp h
  have hreads : ReadsValue (depthLimit - 1) text.toList rest (.string s) := readsValue hfound
  cases hreads with
  | scalar hstart hscalar =>
    obtain ⟨_, hscalar⟩ := found_eq_ok_iff.mp hscalar
    have hbytes := scalar_string_bytes hscalar rfl
    have hspaces := skipSpaces_bytes text.toList
    rw [← String.utf8Len_toList text]
    omega

/-- A text that holds a text, that holds a text: there is a last one. -/
theorem wellFounded_holds : WellFounded fun inner text : String => parse text = .ok (.string inner) := by
  refine Subrelation.wf ?_ (measure String.utf8ByteSize).wf
  intro inner text h
  have hbytes := bytes_of_parse h
  show inner.utf8ByteSize < text.utf8ByteSize
  omega

end BotSpec.Json
