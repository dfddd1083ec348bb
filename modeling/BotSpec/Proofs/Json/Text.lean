import BotSpec.Proofs.Json.Reading

/-!
# What a JSON text holds

A value that is read from a text is an array, an object or a scalar, and its first character tells
which (`ReadsValue`).

> `parse_object_iff`: the object in a text is made of the members that are read one after the other
> (`topMembers`).

> `sized_of_parse`: the whole numbers in a text fit 64 bits.
-/

namespace BotSpec.Json

variable {cs rest : List Char} {member : MemberReader} {new : List (String × Json)}

/-! ## Scalars -/

/-- A value that is neither array nor object; a whole number fits 64 bits, with a sign or without. -/
inductive Scalar : Json → Prop where
  | null : Scalar .null
  | bool (b : Bool) : Scalar (.bool b)
  | whole {n : Int} (hlow : -twoPow 63 ≤ n) (hhigh : n < twoPow 64) : Scalar (.whole n)
  | real (x : Float) : Scalar (.real x)
  | string (s : String) : Scalar (.string s)

theorem significand_lt {n : Nat} (h : n < twoPow 64) (ds : List Nat) : (significand n ds).1 < twoPow 64 := by
  induction ds generalizing n with
  | nil => exact h
  | cons d ds ih =>
    rw [significand]
    split
    next hfits => exact ih hfits
    next => exact h

theorem Numeral.scalar_real {negative : Bool} {digits : Nat} {exponent : Int} {v : Json}
    (h : Numeral.value.real negative digits exponent = some v) : Scalar v := by
  obtain ⟨x, -, rfl⟩ := Option.map_eq_some_iff.mp h
  exact .real _

/-- A numeral is a number, so a scalar. -/
theorem Numeral.scalar_value {n : Numeral} {v : Json} (h : n.value = some v) : Scalar v := by
  have hfits : (significand 0 n.whole).1 < twoPow 64 := significand_lt (by decide) n.whole
  have hwide : (twoPow 64 : Int) = 2 * twoPow 63 := by decide
  unfold Numeral.value at h
  dsimp only at h
  split at h
  next =>
    split at h
    next =>
      cases h
      exact .whole (by omega) (by exact_mod_cast hfits)
    next =>
      split at h
      next hlow =>
        cases h
        exact .whole (by omega) (by omega)
      next => exact scalar_real h
  next => exact scalar_real h

theorem scalar_readUnsigned {negative : Bool} {p : Parsed cs Json} (h : readUnsigned negative cs = .ok p) :
    Scalar p.value := by
  unfold readUnsigned at h
  split at h
  next => cases h
  next => cases h
  next =>
    split at h
    next => cases h
    next =>
      split at h
      next => cases h
      next =>
        split at h
        next => cases h
        next hvalue =>
          cases h
          exact Numeral.scalar_value hvalue

theorem scalar_word {v : Json} {word : List Char} {first : Char} {p : Parsed (first :: cs) Json}
    (h : scalar.word v word first cs = .ok p) : p.value = v := by
  unfold scalar.word at h
  split at h
  next =>
    cases h
    rfl
  next => cases h

theorem scalar_of_scalar {deny : Refusal} {p : Parsed cs Json} (h : scalar deny cs = .ok p) :
    Scalar p.value := by
  unfold scalar at h
  split at h
  next =>
    split at h
    next =>
      cases h
      exact .string _
    next => cases h
  next => rw [scalar_word h]; exact .null
  next => rw [scalar_word h]; exact .bool true
  next => rw [scalar_word h]; exact .bool false
  next =>
    split at h
    next hnumber =>
      have hscalar := scalar_readUnsigned hnumber
      cases h
      exact hscalar
    next => cases h
  next => cases h
  next => cases h
  next => exact scalar_readUnsigned h

theorem scalar_of_found {deny : Refusal} {v : Json} {rest : List Char}
    (h : found (scalar deny cs) = .ok (v, rest)) :
    Scalar v := by
  obtain ⟨_, h⟩ := found_eq_ok_iff.mp h
  exact scalar_of_scalar h

/-! ## Values -/

/-- What is read is an array, an object or a scalar, and the first character tells which. -/
inductive ReadsValue (depth : Nat) (cs rest : List Char) : Json → Prop where
  | array {body : List Char} {items : List Json} (hstart : skipSpaces cs = '[' :: body) :
      ReadsValue depth cs rest (.array items)
  | object {body : List Char} {ms : List (String × Json)} (hstart : skipSpaces cs = '\x7b' :: body)
      (h : ReadsBody (fun _ _ => afterColon (value depth)) body ms rest) :
      ReadsValue depth cs rest (.object (ofMembers ms))
  | scalar {v : Json} (hstart : StartsScalar (skipSpaces cs)) (h : found (scalar .notJson (skipSpaces cs)) = .ok (v, rest)) :
      ReadsValue depth cs rest v

/-- **A value that is found is read by its own rules**: a scalar, or the values between its marks.
-/
theorem readsValue {depth : Nat} {v : Json} (h : found (value (depth + 1) cs) = .ok (v, rest)) :
    ReadsValue depth cs rest v := by
  generalize hfront : skipSpaces cs = front
  cases start front with
  | array body =>
    rw [found_value_array hfront] at h
    obtain ⟨q, -, hq⟩ := exists_of_map_eq_ok h
    cases hq
    exact .array hfront
  | object body =>
    rw [found_value_object hfront] at h
    obtain ⟨q, hbody, hq⟩ := exists_of_map_eq_ok h
    cases hq
    exact .object hfront (found_objectBody_eq_ok_iff.mp hbody)
  | scalar hstart =>
    subst hfront
    rw [found_value_scalar hstart] at h
    exact .scalar hstart h

/-- The whole numbers among the members of a value fit 64 bits, with a sign or without. -/
def Sized (v : Json) : Prop := ∀ key n, v.get? key = some (.whole n) → -twoPow 63 ≤ n ∧ n < twoPow 64

theorem Scalar.get?_eq_none {v : Json} (h : Scalar v) (key : String) : v.get? key = none := by
  cases h <;> rfl

/-- A whole number in a text is one of 64 bits, with or without a sign. -/
theorem whole_of_reads {depth : Nat} {n : Int} (h : found (value (depth + 1) cs) = .ok (.whole n, rest)) :
    -twoPow 63 ≤ n ∧ n < twoPow 64 := by
  cases readsValue h with
  | scalar _ h =>
    cases scalar_of_found h with
    | whole hlow hhigh => exact ⟨hlow, hhigh⟩

theorem ReadsValue.sized {depth : Nat} {v : Json} (h : ReadsValue (depth + 1) cs rest v) : v.Sized := by
  intro key n hn
  cases h with
  | array => cases hn
  | scalar _ h => cases ((scalar_of_found h).get?_eq_none key).symm.trans hn
  | @object body ms _ h =>
    have hmem : (key, .whole n) ∈ ms := by
      rw [get?, lookup_ofMembers] at hn
      exact List.mem_reverse.mp (mem_of_lookup_eq_some hn)
    have hwhole := h.forall (P := fun v => ∀ n, v = .whole n → -twoPow 63 ≤ n ∧ n < twoPow 64) ?_ _ hmem
    · exact hwhole n rfl
    · rintro seen key cs v r hmember n rfl
      obtain ⟨body, -, hvalue⟩ := exists_of_found_afterColon hmember
      exact whole_of_reads hvalue

/-! ## Texts -/

/-- The reader of a member in an object at the top level. -/
def topMember : MemberReader := fun _ _ => afterColon (value (depthLimit - 1))

/-- The members of the object in a text, as they are written: in order, and with every repetition. A
text that holds no object has none. -/
def topMembers (text : String) : List (String × Json) :=
  match skipSpaces text.toList with
  | '\x7b' :: body =>
    match objectBody topMember body with
    | .ok p => p.value
    | .error _ => []
  | _ => []

/-- The members on top are those of the body that the text opens with. -/
theorem topMembers_eq {text : String} {body : List Char} (hstart : skipSpaces text.toList = '\x7b' :: body)
    (h : ReadsBody topMember body new rest) : topMembers text = new := by
  obtain ⟨_, hbody⟩ := found_eq_ok_iff.mp (found_objectBody_eq_ok_iff.mpr h)
  simp only [topMembers, hstart, hbody]

/-- A value that is read from a text, with nothing but spaces behind it. -/
theorem parse_eq_ok_iff {text : String} {v : Json} :
    parse text = .ok v ↔ ∃ rest, skipSpaces rest = [] ∧ found (value depthLimit text.toList) = .ok (v, rest) := by
  rw [parse_eq]
  constructor
  · intro h
    split at h
    next => cases h
    next v' rest hfound =>
      split at h
      next hrest =>
        cases h
        exact ⟨rest, hrest, hfound⟩
      next => cases h
  · rintro ⟨rest, hrest, hfound⟩
    simp only [hfound, hrest, if_true]

theorem sized_of_parse {text : String} {v : Json} (h : parse text = .ok v) : v.Sized := by
  obtain ⟨rest, -, hfound⟩ := parse_eq_ok_iff.mp h
  have hreads : ReadsValue (depthLimit - 1) text.toList rest v := readsValue hfound
  exact hreads.sized

/-- The text of an object: a value is read from it if its members are, up to the end. -/
theorem parse_object_iff {text : String} {body : List Char}
    (hstart : skipSpaces text.toList = '\x7b' :: body) {v : Json} :
    parse text = .ok v ↔
      ∃ ms rest, ReadsBody topMember body ms rest ∧ skipSpaces rest = [] ∧ v = .object (ofMembers ms) := by
  have hvalue : found (value depthLimit text.toList) =
      (found (objectBody topMember body)).map fun q => (.object (ofMembers q.1), q.2) :=
    found_value_object hstart
  rw [parse_eq_ok_iff, hvalue]
  constructor
  · rintro ⟨rest, hrest, h⟩
    obtain ⟨⟨ms, _⟩, hbody, hq⟩ := exists_of_map_eq_ok h
    cases hq
    exact ⟨ms, _, found_objectBody_eq_ok_iff.mp hbody, hrest, rfl⟩
  · rintro ⟨ms, rest, hbody, hrest, rfl⟩
    refine ⟨rest, hrest, ?_⟩
    rw [found_objectBody_eq_ok_iff.mpr hbody]
    rfl

/-- Where no object starts, none is read. -/
theorem ne_object_of_parse {text : String} (hstart : ∀ body, skipSpaces text.toList ≠ '\x7b' :: body) {v : Json}
    (h : parse text = .ok v) (ms : List (String × Json)) : v ≠ .object ms := by
  obtain ⟨rest, -, hfound⟩ := parse_eq_ok_iff.mp h
  have hreads : ReadsValue (depthLimit - 1) text.toList rest v := readsValue hfound
  rintro rfl
  cases hreads with
  | object hs => exact hstart _ hs
  | scalar _ h => cases scalar_of_found h

/-- A text that opens no object has no members on top. -/
theorem topMembers_eq_nil {text : String} (hstart : ∀ body, skipSpaces text.toList ≠ '\x7b' :: body) :
    topMembers text = [] := by
  unfold topMembers
  split
  next body hs => exact absurd hs (hstart body)
  next => rfl

/-- An object is made of the members of its text. -/
theorem eq_object_of_parse {text : String} {body : List Char} (hstart : skipSpaces text.toList = '\x7b' :: body) {v : Json}
    (h : parse text = .ok v) : v = .object (ofMembers (topMembers text)) := by
  obtain ⟨ms, rest, hbody, -, rfl⟩ := (parse_object_iff hstart).mp h
  rw [topMembers_eq hstart hbody]

/-- The value of a text has the last member of each key. -/
theorem get?_of_parse {text : String} {v : Json} (h : parse text = .ok v) (key : String) :
    v.get? key = lookup key (topMembers text).reverse := by
  by_cases hobject : ∃ body, skipSpaces text.toList = '\x7b' :: body
  · obtain ⟨body, hstart⟩ := hobject
    rw [eq_object_of_parse hstart h, get?, lookup_ofMembers]
  · have hstart := not_exists.mp hobject
    rw [topMembers_eq_nil hstart]
    cases v with
    | object ms => exact absurd rfl (ne_object_of_parse hstart h ms)
    | _ => rfl

end BotSpec.Json
