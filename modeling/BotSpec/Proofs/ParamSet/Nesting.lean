import BotSpec.Proofs.Json.Bytes
import BotSpec.Proofs.ParamSet.Shapes

/-!
# Texts in texts

A payload may be the text of a text of an object, and so on. `Decodes` reads a value so many times,
and a value is `Final` if it cannot be read further: it is no text, or a text that is not JSON.

> `exists_final`: every payload is read to a final value, and to one only (`final_unique`). >
> `normalize?_of_decodes`: what a payload is normalized to is decided by that value.

Every time the text becomes two bytes shorter (`bytes_of_decodes`), and this is what the first
statement is an induction on.
-/

namespace BotSpec.ParamSet

open Json (parse)

/-! ## Decoding -/

/-- The value that a payload has when the text of it, and the text in that, is read `n` times. -/
inductive Decodes : Json → Nat → Json → Prop where
  | done {j : Json} : Decodes j 0 j
  | text {text : String} {v j : Json} {n : Nat} (hparse : parse text = .ok v) (h : Decodes v n j) :
      Decodes (.string text) (n + 1) j

/-- A value that is not the text of another. -/
def Final (j : Json) : Prop := ∀ text, j = .string text → ∃ e, parse text = .error e

variable {payload j v w : Json} {n m : Nat} {text : String}

/-- Only a text can be read once more. -/
theorem final_of_ne_string (h : ∀ text, j ≠ .string text) : Final j := fun text heq => absurd heq (h text)

theorem final_of_parse {e : Json.Refusal} (h : parse text = .error e) : Final (.string text) := by
  rintro _ ⟨⟩
  exact ⟨e, h⟩

/-- Nothing is read from a final value. -/
theorem Final.eq_of_decodes (hfinal : Final j) (h : Decodes j n v) : n = 0 ∧ v = j := by
  cases h with
  | done => exact ⟨rfl, rfl⟩
  | text hparse h =>
    obtain ⟨e, he⟩ := hfinal _ rfl
    rw [he] at hparse
    cases hparse

/-- Values that are read from one payload stand in one row, and only its last is final. -/
theorem final_unique (h : Decodes payload n v) (hv : Final v) (h' : Decodes payload m w) (hw : Final w) : n = m ∧ v = w := by
  induction h generalizing m with
  | done =>
    obtain ⟨rfl, rfl⟩ := hv.eq_of_decodes h'
    exact ⟨rfl, rfl⟩
  | text hparse h ih =>
    cases h' with
    | done =>
      obtain ⟨e, he⟩ := hw _ rfl
      rw [he] at hparse
      cases hparse
    | text hparse' h' =>
      rw [hparse] at hparse'
      cases hparse'
      obtain ⟨rfl, rfl⟩ := ih hv h'
      exact ⟨rfl, rfl⟩

/-- Every payload can be read to its end. -/
theorem exists_final (payload : Json) : ∃ n v, Decodes payload n v ∧ Final v := by
  have htext (text : String) : ∃ n v, Decodes (.string text) n v ∧ Final v := by
    induction text using Json.wellFounded_holds.induction with
    | h text ih =>
      cases hparse : parse text with
      | error e => exact ⟨0, _, .done, final_of_parse hparse⟩
      | ok w =>
        cases w with
        | string inner =>
          obtain ⟨n, v, h, hfinal⟩ := ih inner hparse
          exact ⟨n + 1, v, .text hparse h, hfinal⟩
        | _ => exact ⟨1, _, .text hparse .done, final_of_ne_string nofun⟩
  cases payload with
  | string text => exact htext text
  | _ => exact ⟨0, _, .done, final_of_ne_string nofun⟩

/-! ## Bytes -/

/-- What can still be taken from a value: the bytes of a text and one more for its end, and nothing
from other values. -/
def remaining : Json → Nat
  | .string text => text.utf8ByteSize + 1
  | _ => 0

/-- Reading takes two bytes, also if what is read is no text. -/
theorem remaining_of_parse (h : parse text = .ok v) : remaining v + 2 ≤ text.utf8ByteSize + 1 := by
  cases v with
  | string inner =>
    have hbytes := Json.bytes_of_parse h
    show inner.utf8ByteSize + 1 + 2 ≤ text.utf8ByteSize + 1
    omega
  | _ =>
    have hsome : text.utf8ByteSize ≠ 0 := by
      intro hzero
      obtain rfl : text = "" := String.utf8ByteSize_eq_zero_iff.mp hzero
      have hrefused : (parse "").isOk = false := by decide +kernel
      rw [h] at hrefused
      cases hrefused
    show 0 + 2 ≤ text.utf8ByteSize + 1
    omega

/-- A text in a text in a text: each of them takes two bytes. -/
theorem bytes_of_decodes (h : Decodes payload n v) : 2 * n + remaining v ≤ remaining payload := by
  induction h with
  | done => omega
  | @text text v j n hparse h ih =>
    have hread := remaining_of_parse hparse
    show 2 * (n + 1) + remaining j ≤ text.utf8ByteSize + 1
    omega

/-! ## Parameters -/

/-- What a final value is as parameters. -/
def ofFinal : Json → Except Malformed ParamSet
  | .object members => .ok (flatten members)
  | .string _ => .error .notJson
  | other => .error (.notAnObject other.kindName)

/-- A payload that is such a text is refused as no JSON. -/
theorem normalize?_of_parse_error {e : Json.Refusal} (h : parse text = .error e) :
    normalize? (.string text) = .error .notJson := by
  rw [normalize?, normalize?.ofText]
  split <;> simp_all

/-- The text of a value that is neither an object nor a text. -/
theorem normalize?_of_parse_other (h : parse text = .ok v) (hobject : ∀ members, v ≠ .object members)
    (hstring : ∀ inner, v ≠ .string inner) : normalize? (.string text) = .error (.notAnObject v.kindName) := by
  rw [normalize?, normalize?.ofText]
  split
  next heq => cases h.symm.trans heq
  next members heq => exact absurd (Except.ok.inj (h.symm.trans heq)) (hobject members)
  next inner heq => exact absurd (Except.ok.inj (h.symm.trans heq)) (hstring inner)
  next heq => cases h.symm.trans heq; rfl

/-- **A payload that is there is normalized like the value that it is read to.** -/
theorem normalize?_of_decodes (h : Decodes payload n v) (hfinal : Final v) (hthere : payload ≠ .null) :
    normalize? payload = ofFinal v := by
  induction h with
  | @done j =>
    cases j with
    | null => exact absurd rfl hthere
    | string text =>
      obtain ⟨e, he⟩ := hfinal text rfl
      exact normalize?_of_parse_error he
    | _ => rfl
  | @text text w v n hparse h ih =>
    cases w with
    | string inner =>
      rw [normalize?_of_parse_string hparse]
      exact ih hfinal nofun
    | object members =>
      cases h
      exact normalize?_of_parse_object hparse
    | _ =>
      cases h
      exact normalize?_of_parse_other hparse nofun nofun

end BotSpec.ParamSet
