import BotSpec.Power
import BotSpec.Json.Basic
import BotSpec.Binary64.Nearest
import BotSpec.Text.Number

/-!
# Reading JSON

`Json.parse` reads a whole text. The reader works on a list of characters; every step hands back
what is left together with a proof that it is shorter, so no step needs fuel. At most 127 arrays and
objects may be open at once. A refusal says why a text is refused, and not where.

The object reader takes the reader of a member as an argument, so that a caller can look at a member
before and after its value is read, and refuse it (`Refusal.wrongShape`).
-/

namespace BotSpec.Json

open BotSpec.Text (digit?)

/-- Why a text is refused: it is not JSON, or it is JSON of another shape than asked for. -/
inductive Refusal where
  | notJson
  | wrongShape
  deriving DecidableEq

/-- A value read from the front of `source`, with the shorter rest. -/
structure Parsed (source : List Char) (α : Type) where
  value : α
  rest : List Char
  shorter : rest.length < source.length

/-- The four characters that may stand between tokens. -/
def isSpace (c : Char) : Bool := c = ' ' || c = '\n' || c = '\t' || c = '\r'

def skipSpaces (cs : List Char) : List Char := cs.dropWhile isSpace

theorem skipSpaces_length_le (cs : List Char) : (skipSpaces cs).length ≤ cs.length := by
  induction cs with
  | nil => exact Nat.le_refl _
  | cons c cs ih =>
    unfold skipSpaces at ih ⊢
    rw [List.dropWhile_cons]
    split
    · exact Nat.le_succ_of_le ih
    · exact Nat.le_refl _

/-- What was read from the front of the text behind its leading spaces. -/
def Parsed.widen {a b : List Char} {α : Type} (h : a.length ≤ b.length) (p : Parsed a α) : Parsed b α :=
  ⟨p.value, p.rest, Nat.lt_of_lt_of_le p.shorter h⟩

/-! ## Words and strings -/

/-- The rest behind a word. -/
def dropWord : List Char → List Char → Option (List Char)
  | [], cs => some cs
  | w :: ws, c :: cs => if w = c then dropWord ws cs else none
  | _ :: _, [] => none

theorem dropWord_length {w cs rest : List Char} (h : dropWord w cs = some rest) :
    rest.length + w.length = cs.length := by
  induction w generalizing cs with
  | nil => simp_all [dropWord]
  | cons a w ih =>
    cases cs with
    | nil => simp [dropWord] at h
    | cons c cs =>
      simp only [dropWord] at h
      split at h
      · have := ih h
        simp only [List.length_cons]
        omega
      · simp at h

/-- The value of a hexadecimal digit. -/
def hexDigit? (c : Char) : Option Nat :=
  if 'a' ≤ c ∧ c ≤ 'f' then some (c.toNat - 'a'.toNat + 10)
  else if 'A' ≤ c ∧ c ≤ 'F' then some (c.toNat - 'A'.toNat + 10)
  else digit? c

/-- The 16-bit unit of four hexadecimal digits. -/
def unit? (a b c d : Char) : Option Nat := do
  let a ← hexDigit? a
  let b ← hexDigit? b
  let c ← hexDigit? c
  let d ← hexDigit? d
  return ((a * 16 + b) * 16 + c) * 16 + d

/-- The character behind a backslash, for the escapes of one letter. -/
def escape? : Char → Option Char
  | '"' => some '"'
  | '\\' => some '\\'
  | '/' => some '/'
  | 'b' => some '\x08'
  | 'f' => some '\x0c'
  | 'n' => some '\n'
  | 'r' => some '\r'
  | 't' => some '\t'
  | _ => none

/-- The character that starts with the unit `u`, and the rest: a high surrogate takes the escaped
low surrogate behind it along, and a surrogate without its partner is refused. -/
def unitChar (u : Nat) (rest : List Char) : Option (Char × List Char) :=
  if 0xDC00 ≤ u ∧ u ≤ 0xDFFF then none
  else if 0xD800 ≤ u ∧ u ≤ 0xDBFF then
    match rest with
    | '\\' :: 'u' :: a :: b :: c :: d :: rest =>
      match unit? a b c d with
      | some v =>
        if 0xDC00 ≤ v ∧ v ≤ 0xDFFF then
          some (Char.ofNat (0x10000 + (u - 0xD800) * 0x400 + (v - 0xDC00)), rest)
        else none
      | none => none
    | _ => none
  else some (Char.ofNat u, rest)

theorem unitChar_length {u : Nat} {cs rest : List Char} {c : Char}
    (h : unitChar u cs = some (c, rest)) : rest.length ≤ cs.length := by
  unfold unitChar at h
  split at h
  · simp at h
  · split at h
    · split at h
      · split at h
        · split at h
          · simp only [Option.some.injEq, Prod.mk.injEq] at h
            rw [← h.2]
            simp only [List.length_cons]
            omega
          · simp at h
        · simp at h
      · simp at h
    · simp only [Option.some.injEq, Prod.mk.injEq] at h
      exact Nat.le_of_eq (congrArg List.length h.2.symm)

/-- The next character of a string and what follows it, `none` at the closing quote or at anything a
string cannot hold. -/
def stringChar : List Char → Option (Char × List Char)
  | [] => none
  | '"' :: _ => none
  | '\\' :: 'u' :: a :: b :: c :: d :: rest => (unit? a b c d).bind fun u => unitChar u rest
  | '\\' :: c :: rest => (escape? c).map fun e => (e, rest)
  | c :: rest => if c = '\\' ∨ c.toNat < 32 then none else some (c, rest)

theorem stringChar_length {cs rest : List Char} {c : Char} (h : stringChar cs = some (c, rest)) :
    rest.length < cs.length := by
  unfold stringChar at h
  split at h
  · simp at h
  · simp at h
  · simp only [Option.bind] at h
    split at h
    · simp at h
    · have := unitChar_length h
      simp only [List.length_cons]
      omega
  · simp only [Option.map_eq_some_iff, Prod.mk.injEq] at h
    obtain ⟨_, _, _, h⟩ := h
    rw [h]
    simp only [List.length_cons]
    omega
  · split at h
    · simp at h
    · simp only [Option.some.injEq, Prod.mk.injEq] at h
      rw [h.2]
      exact Nat.lt_succ_self _

/-- What stands behind a closing quote. -/
def afterQuote? : List Char → Option (List Char)
  | '"' :: rest => some rest
  | _ => none

theorem afterQuote?_length {cs rest : List Char} (h : afterQuote? cs = some rest) :
    rest.length < cs.length := by
  unfold afterQuote? at h
  split at h
  · rw [Option.some.inj h]
    exact Nat.lt_succ_self _
  · simp at h

/-- Reads up to the closing quote; `read` holds the characters so far, last one first. -/
def stringBody (read : List Char) (cs : List Char) : Option (String × List Char) :=
  match h : stringChar cs with
  | some (c, rest) =>
    have := stringChar_length h
    stringBody (c :: read) rest
  | none => (afterQuote? cs).map fun rest => (String.ofList read.reverse, rest)
termination_by cs.length

/-- A string is shorter than its text: each of its characters takes up one or more. -/
theorem stringBody_length {read cs rest : List Char} {s : String}
    (h : stringBody read cs = some (s, rest)) :
    s.length + rest.length + 1 ≤ read.length + cs.length := by
  fun_induction stringBody read cs with
  | case1 read cs c rest' hc hlt ih =>
    have := ih h
    simp only [List.length_cons] at this
    omega
  | case2 read cs hc =>
    obtain ⟨rest', hq, h⟩ := Option.map_eq_some_iff.1 h
    have hlt := afterQuote?_length hq
    have hs : String.ofList read.reverse = s := congrArg Prod.fst h
    have hr : rest' = rest := congrArg Prod.snd h
    rw [← hs, ← hr, String.length_ofList, List.length_reverse]
    omega

/-! ## Numbers -/

/-- The digits at the front. -/
def spanDigits : List Char → List Nat × List Char
  | [] => ([], [])
  | c :: cs =>
    match digit? c with
    | some d => (d :: (spanDigits cs).1, (spanDigits cs).2)
    | none => ([], c :: cs)

theorem spanDigits_length (cs : List Char) :
    (spanDigits cs).1.length + (spanDigits cs).2.length = cs.length := by
  induction cs with
  | nil => rfl
  | cons c cs ih =>
    unfold spanDigits
    split
    · simp only [List.length_cons]
      omega
    · simp only [List.length_nil, Nat.zero_add]

/-- A number as written. -/
structure Numeral where
  negative : Bool
  whole : List Nat
  fraction : Option (List Nat)
  exponent : Option Int

/-- Digits of a significand, as many as fit 64 bits in front of the first that does not, and the
number of digits that are left. -/
def significand : Nat → List Nat → Nat × Nat
  | n, [] => (n, 0)
  | n, d :: ds => if n * 10 + d < twoPow 64 then significand (n * 10 + d) ds else (n, ds.length + 1)

/-- A power of ten up to `1e308`. -/
def tenFloat (n : Nat) : Float := nearestFloat (tenPow n) 1

/-- `x` times a power of ten, in one multiplication or division where the power is a double itself.
A result above the largest double is refused. -/
def scaleReal (x : Float) (exponent : Int) : Option Float :=
  if exponent.natAbs ≤ 308 then
    if 0 ≤ exponent then
      let y := x * tenFloat exponent.natAbs
      if y.isInf then none else some y
    else some (x / tenFloat exponent.natAbs)
  else if x == 0 then some x
  else if 0 < exponent then none
  else scaleReal (x / tenFloat 308) (exponent + 308)
termination_by exponent.natAbs
decreasing_by omega

/-- The value of a numeral, unless it is too large. A numeral without fraction and exponent that
fits 64 bits is whole, save for a negative zero. -/
def Numeral.value (n : Numeral) : Option Json :=
  let (whole, left) := significand 0 n.whole
  match n.fraction, n.exponent with
  | none, none =>
    if left = 0 ∧ ¬ n.negative then some (.whole whole)
    else if left = 0 ∧ whole ≠ 0 ∧ whole ≤ twoPow 63 then some (.whole (-(whole : Int)))
    else real n.negative whole left
  | fraction, exponent =>
    let digits := fraction.getD []
    let (all, unread) := significand whole digits
    real n.negative all (left - (digits.length - unread : Nat) + exponent.getD 0)
where
  /-- The double of a significand and a power of ten. -/
  real (negative : Bool) (digits : Nat) (exponent : Int) : Option Json :=
    (scaleReal (nearestFloat digits 1) exponent).map fun x => .real (if negative then -x else x)

/-- The digits as one number. -/
def digitsValue (ds : List Nat) : Nat := ds.foldl (fun n d => n * 10 + d) 0

/-- Whether a minus sign stands at the front, and the rest behind a sign of either kind. -/
def readSign : List Char → Bool × List Char
  | '-' :: rest => (true, rest)
  | '+' :: rest => (false, rest)
  | rest => (false, rest)

theorem readSign_length_le (cs : List Char) : (readSign cs).2.length ≤ cs.length := by
  unfold readSign
  split <;> simp

/-- An exponent part, if one stands at the front: the mark, a sign or none, and digits. -/
def readExponent (cs : List Char) : Option (Option Int × List Char) :=
  match cs with
  | [] => some (none, cs)
  | c :: more =>
    if c = 'e' ∨ c = 'E' then
      let body := readSign more
      let digits := spanDigits body.2
      if digits.1 = [] then none
      else
        let n : Int := digitsValue digits.1
        some (some (if body.1 then -n else n), digits.2)
    else some (none, cs)

theorem readExponent_length {cs rest : List Char} {e : Option Int}
    (h : readExponent cs = some (e, rest)) : rest.length ≤ cs.length := by
  unfold readExponent at h
  split at h
  · simp_all
  · rename_i c more
    split at h
    · simp only at h
      split at h
      · simp at h
      · simp only [Option.some.injEq, Prod.mk.injEq] at h
        have h1 := spanDigits_length (readSign more).2
        have h2 := readSign_length_le more
        rw [← h.2]
        simp only [List.length_cons]
        omega
    · simp only [Option.some.injEq, Prod.mk.injEq] at h
      exact Nat.le_of_eq (congrArg List.length h.2.symm)

/-- A fraction part, if a point stands at the front: the point and one or more digits. -/
def readFraction (cs : List Char) : Option (Option (List Nat) × List Char) :=
  match cs with
  | '.' :: more => if (spanDigits more).1 = [] then none else some (some (spanDigits more).1, (spanDigits more).2)
  | _ => some (none, cs)

theorem readFraction_length {cs rest : List Char} {f : Option (List Nat)}
    (h : readFraction cs = some (f, rest)) : rest.length ≤ cs.length := by
  unfold readFraction at h
  split at h
  · rename_i more
    split at h
    · simp at h
    · simp only [Option.some.injEq, Prod.mk.injEq] at h
      have := spanDigits_length more
      rw [← h.2]
      simp only [List.length_cons]
      omega
  · simp only [Option.some.injEq, Prod.mk.injEq] at h
    exact Nat.le_of_eq (congrArg List.length h.2.symm)

/-- An unsigned number: whole digits without a needless leading zero, a fraction, an exponent. -/
def readUnsigned (negative : Bool) (cs : List Char) : Except Refusal (Parsed cs Json) :=
  match hw : spanDigits cs with
  | ([], _) => .error .notJson
  | (0 :: _ :: _, _) => .error .notJson
  | (d :: ds, afterWhole) =>
    match hf : readFraction afterWhole with
    | none => .error .notJson
    | some (fraction, afterFraction) =>
      match he : readExponent afterFraction with
      | none => .error .notJson
      | some (exponent, rest) =>
        match (Numeral.mk negative (d :: ds) fraction exponent).value with
        | none => .error .notJson
        | some v =>
          .ok ⟨v, rest, by
            have h1 := spanDigits_length cs
            rw [hw] at h1
            have h2 := readFraction_length hf
            have h3 := readExponent_length he
            simp only [List.length_cons] at h1
            omega⟩

/-! ## Values -/

/-- A string, number, `true`, `false` or `null` at the front; an array or object is refused by
`deny`. -/
def scalar (deny : Refusal) : (cs : List Char) → Except Refusal (Parsed cs Json)
  | '"' :: cs =>
    match h : stringBody [] cs with
    | some (s, rest) =>
      .ok ⟨.string s, rest, by
        have := stringBody_length h
        simp only [List.length_nil, List.length_cons] at this ⊢
        omega⟩
    | none => .error .notJson
  | 'n' :: cs => word .null ['u', 'l', 'l'] 'n' cs
  | 't' :: cs => word (.bool true) ['r', 'u', 'e'] 't' cs
  | 'f' :: cs => word (.bool false) ['a', 'l', 's', 'e'] 'f' cs
  | '-' :: cs =>
    match readUnsigned true cs with
    | .ok p => .ok (p.widen (Nat.le_succ _))
    | .error e => .error e
  | '[' :: _ => .error deny
  | '\x7b' :: _ => .error deny
  | cs => readUnsigned false cs
where
  /-- The rest of a word whose first letter has been seen. -/
  word (v : Json) (w : List Char) (first : Char) (cs : List Char) :
      Except Refusal (Parsed (first :: cs) Json) :=
    match h : dropWord w cs with
    | some rest =>
      .ok ⟨v, rest, by
        have := dropWord_length h
        simp only [List.length_cons]
        omega⟩
    | none => .error .notJson

/-- Items up to the closing bracket, separated by commas. -/
def items (item : (cs : List Char) → Except Refusal (Parsed cs Json)) (cs : List Char) :
    Except Refusal (Parsed cs (List Json)) :=
  match item cs with
  | .error e => .error e
  | .ok ⟨v, r, hr⟩ =>
    match hs : skipSpaces r with
    | ']' :: rest =>
      .ok ⟨[v], rest, by
        have := skipSpaces_length_le r
        rw [hs] at this
        simp only [List.length_cons] at this
        omega⟩
    | ',' :: more =>
      have hm : more.length < cs.length := by
        have := skipSpaces_length_le r
        rw [hs] at this
        simp only [List.length_cons] at this
        omega
      match items item more with
      | .error e => .error e
      | .ok ⟨vs, rest, h⟩ => .ok ⟨v :: vs, rest, by omega⟩
    | _ => .error .notJson
termination_by cs.length

/-- The reader of one member, given the members so far and the key; it starts behind the key. -/
abbrev MemberReader :=
  List (String × Json) → String → (cs : List Char) → Except Refusal (Parsed cs Json)

/-- Members up to the closing brace, separated by commas, added to those seen before. -/
def members (member : MemberReader) (seen : List (String × Json)) (cs : List Char) :
    Except Refusal (Parsed cs (List (String × Json))) :=
  match hk : skipSpaces cs with
  | '"' :: body =>
    match hb : stringBody [] body with
    | none => .error .notJson
    | some (key, afterKey) =>
      have h1 : afterKey.length < cs.length := by
        have a := skipSpaces_length_le cs
        have b := stringBody_length hb
        rw [hk] at a
        simp only [List.length_cons, List.length_nil] at a b
        omega
      match member seen key afterKey with
      | .error e => .error e
      | .ok ⟨v, r, hr⟩ =>
        match hs : skipSpaces r with
        | '\x7d' :: rest =>
          .ok ⟨seen ++ [(key, v)], rest, by
            have := skipSpaces_length_le r
            rw [hs] at this
            simp only [List.length_cons] at this
            omega⟩
        | ',' :: more =>
          have hm : more.length < cs.length := by
            have := skipSpaces_length_le r
            rw [hs] at this
            simp only [List.length_cons] at this
            omega
          match members member (seen ++ [(key, v)]) more with
          | .error e => .error e
          | .ok ⟨vs, rest, h⟩ => .ok ⟨vs, rest, by omega⟩
        | _ => .error .notJson
  | _ => .error .notJson
termination_by cs.length

/-- An object behind its opening brace. -/
def objectBody (member : MemberReader) (cs : List Char) :
    Except Refusal (Parsed cs (List (String × Json))) :=
  match hs : skipSpaces cs with
  | '\x7d' :: rest =>
    .ok ⟨[], rest, by
      have := skipSpaces_length_le cs
      rw [hs] at this
      simp only [List.length_cons] at this
      omega⟩
  | _ => members member [] cs

/-- An array behind its opening bracket. -/
def arrayBody (item : (cs : List Char) → Except Refusal (Parsed cs Json)) (cs : List Char) :
    Except Refusal (Parsed cs (List Json)) :=
  match hs : skipSpaces cs with
  | ']' :: rest =>
    .ok ⟨[], rest, by
      have := skipSpaces_length_le cs
      rw [hs] at this
      simp only [List.length_cons] at this
      omega⟩
  | _ => items item cs

/-- The colon behind a key and what `item` reads behind it. -/
def afterColon (item : (cs : List Char) → Except Refusal (Parsed cs Json)) (cs : List Char) :
    Except Refusal (Parsed cs Json) :=
  match hs : skipSpaces cs with
  | ':' :: body =>
    match item body with
    | .error e => .error e
    | .ok p =>
      .ok (p.widen (by
        have := skipSpaces_length_le cs
        rw [hs] at this
        simp only [List.length_cons] at this
        omega))
  | _ => .error .notJson

/-- What `read` finds behind the spaces in front. -/
def afterSpaces {α : Type} (read : (cs : List Char) → Except Refusal (Parsed cs α)) (cs : List Char) :
    Except Refusal (Parsed cs α) :=
  match read (skipSpaces cs) with
  | .error e => .error e
  | .ok p => .ok (p.widen (skipSpaces_length_le cs))

/-- A value behind spaces, with at most `depth` arrays and objects open inside one another. -/
def value : Nat → (cs : List Char) → Except Refusal (Parsed cs Json)
  | 0 => afterSpaces (scalar .notJson)
  | depth + 1 =>
    afterSpaces fun cs =>
      match cs with
      | '[' :: body =>
        match arrayBody (value depth) body with
        | .error e => .error e
        | .ok p => .ok (⟨.array p.value, p.rest, Nat.lt_succ_of_lt p.shorter⟩)
      | '\x7b' :: body =>
        match objectBody (fun _ _ => afterColon (value depth)) body with
        | .error e => .error e
        | .ok p => .ok (⟨.object (ofMembers p.value), p.rest, Nat.lt_succ_of_lt p.shorter⟩)
      | cs => scalar .notJson cs

/-- How many arrays and objects may be open at once. -/
def depthLimit : Nat := 127

/-- The value of a text that holds one JSON value and nothing else. -/
def parse (text : String) : Except Refusal Json :=
  match value depthLimit text.toList with
  | .error e => .error e
  | .ok p => if skipSpaces p.rest = [] then .ok p.value else .error .notJson

/-! ## Strings are shorter than their text -/

theorem Numeral.value_ne_string {n : Numeral} {s : String} : n.value ≠ some (.string s) := by
  have hreal : ∀ b d e, Numeral.value.real b d e ≠ some (.string s) := by
    intro b d e h
    unfold Numeral.value.real at h
    rw [Option.map_eq_some_iff] at h
    obtain ⟨_, _, h⟩ := h
    exact Json.noConfusion h
  unfold Numeral.value
  simp only
  split
  · split
    · simp
    · split
      · simp
      · exact hreal _ _ _
  · exact hreal _ _ _

theorem readUnsigned_ne_string {b : Bool} {cs : List Char} {p : Parsed cs Json} {s : String}
    (h : readUnsigned b cs = .ok p) : p.value ≠ .string s := by
  unfold readUnsigned at h
  split at h
  · simp at h
  · simp at h
  · split at h
    · simp at h
    · split at h
      · simp at h
      · split at h
        · simp at h
        · rename_i v hv
          simp only [Except.ok.injEq] at h
          subst h
          intro (h : v = .string s)
          exact Numeral.value_ne_string (h ▸ hv)

theorem scalar_string_length {deny : Refusal} {cs : List Char} {p : Parsed cs Json} {s : String}
    (h : scalar deny cs = .ok p) (hs : p.value = .string s) : s.length < cs.length := by
  have word : ∀ (v : Json) (w : List Char) (c : Char) (cs : List Char) (p : Parsed (c :: cs) Json),
      scalar.word v w c cs = .ok p → p.value = v := by
    intro v w c cs p h
    unfold scalar.word at h
    split at h
    · simp only [Except.ok.injEq] at h
      exact h ▸ rfl
    · simp at h
  unfold scalar at h
  split at h
  · split at h
    · rename_i t rest ht
      simp only [Except.ok.injEq] at h
      subst h
      simp only [Json.string.injEq] at hs
      have := stringBody_length ht
      simp only [List.length_nil, List.length_cons] at this ⊢
      rw [← hs]
      omega
    · simp at h
  · rw [word _ _ _ _ _ h] at hs
    simp at hs
  · rw [word _ _ _ _ _ h] at hs
    simp at hs
  · rw [word _ _ _ _ _ h] at hs
    simp at hs
  · split at h
    · rename_i q hq
      simp only [Except.ok.injEq] at h
      subst h
      exact absurd (show q.value = .string s from hs) (readUnsigned_ne_string hq)
    · simp at h
  · simp at h
  · simp at h
  · exact absurd hs (readUnsigned_ne_string h)

theorem value_string_length {depth : Nat} {cs : List Char} {p : Parsed cs Json} {s : String}
    (h : value depth cs = .ok p) (hs : p.value = .string s) : s.length < cs.length := by
  have spaces : ∀ (read : (cs : List Char) → Except Refusal (Parsed cs Json)),
      (∀ cs p, read cs = .ok p → p.value = .string s → s.length < cs.length) →
      afterSpaces read cs = .ok p → s.length < cs.length := by
    intro read hread h
    unfold afterSpaces at h
    split at h
    · simp at h
    · rename_i q hq
      simp only [Except.ok.injEq] at h
      subst h
      exact Nat.lt_of_lt_of_le (hread _ q hq hs) (skipSpaces_length_le cs)
  unfold value at h
  split at h
  · exact spaces _ (fun _ _ h hs => scalar_string_length h hs) h
  · refine spaces _ (fun cs p h hs => ?_) h
    split at h
    · split at h
      · simp at h
      · simp only [Except.ok.injEq] at h
        subst h
        simp at hs
    · split at h
      · simp at h
      · simp only [Except.ok.injEq] at h
        subst h
        simp at hs
    · exact scalar_string_length h hs

/-- A text that parses to a string has more characters than that string. -/
theorem parse_string_length {text s : String} (h : parse text = .ok (.string s)) :
    s.length < text.length := by
  unfold parse at h
  split at h
  · simp at h
  · rename_i p hp
    split at h
    · simp only [Except.ok.injEq] at h
      rw [← String.length_toList (s := text)]
      exact value_string_length hp h
    · simp at h

end BotSpec.Json
