import BotSpec.Json.Reader
import BotSpec.Proofs.Json.Members
import BotSpec.Proofs.Outcome

/-!
# What the JSON reader finds

The reader proves on its way that every rest is shorter. `found` is what is left of a result without
these proofs: the value and the rest. One equation for each stage says what it finds, so that no
later proof opens the reader itself.

The members of an object are read one after the other, each by a reader that is told what stands
before it. `Reads` is the relation of such a run of readings, and every fact about the members of a
text is an induction on it:

> `found_objectBody_eq_ok_iff`: an object is read if its members are, one after the other.

> `ReadsBody.found_objectBody_of_checks`: a reader that checks on the way reads the same or refuses
> the first fault.
-/

namespace BotSpec.Json

variable {α : Type} {cs : List Char}

/-- What is read, and the rest. -/
def found (x : Except Refusal (Parsed cs α)) : Except Refusal (α × List Char) := x.map fun p => (p.value, p.rest)

@[simp]
theorem found_ok (p : Parsed cs α) : found (.ok p) = .ok (p.value, p.rest) := rfl

@[simp]
theorem found_error (e : Refusal) : found (.error e : Except Refusal (Parsed cs α)) = .error e := rfl

/-- What is found without its proof was parsed with one. -/
theorem found_eq_ok_iff {x : Except Refusal (Parsed cs α)} {v : α} {rest : List Char} :
    found x = .ok (v, rest) ↔ ∃ h, x = .ok ⟨v, rest, h⟩ := by
  cases x with
  | error e =>
    constructor
    · intro h
      cases h
    · rintro ⟨_, h⟩
      cases h
  | ok p =>
    obtain ⟨v', rest', h'⟩ := p
    constructor
    · intro h
      cases h
      exact ⟨h', rfl⟩
    · rintro ⟨_, h⟩
      cases h
      rfl

/-! ## The stages of the reader -/

theorem found_afterSpaces (read : (cs : List Char) → Except Refusal (Parsed cs α)) (cs : List Char) :
    found (afterSpaces read cs) = found (read (skipSpaces cs)) := by
  unfold afterSpaces
  split
  next e h => rw [h]; rfl
  next p h => rw [h]; rfl

/-- Behind a key there is a colon, and then the value. -/
theorem found_afterColon (item : (cs : List Char) → Except Refusal (Parsed cs Json)) (cs : List Char) :
    found (afterColon item cs) =
      match skipSpaces cs with
      | ':' :: body => found (item body)
      | _ => .error .notJson := by
  unfold afterColon
  split
  next body hs =>
    simp only [hs]
    cases item body <;> rfl
  next hs =>
    split
    next body h => exact absurd h (hs body)
    next => rfl

theorem exists_of_found_afterColon {item : (cs : List Char) → Except Refusal (Parsed cs Json)} {q : Json × List Char}
    (h : found (afterColon item cs) = .ok q) : ∃ body, skipSpaces cs = ':' :: body ∧ found (item body) = .ok q := by
  rw [found_afterColon] at h
  split at h
  next body hs => exact ⟨body, hs, h⟩
  next => cases h

/-- The key at the front, and what stands behind it. -/
def key? (cs : List Char) : Option (String × List Char) :=
  match skipSpaces cs with
  | '"' :: body => stringBody [] body
  | _ => none

theorem found_members (member : MemberReader) (seen : List (String × Json)) (cs : List Char) :
    found (members member seen cs) =
      match key? cs with
      | none => .error .notJson
      | some (key, afterKey) =>
        match found (member seen key afterKey) with
        | .error e => .error e
        | .ok (v, r) =>
          match skipSpaces r with
          | '\x7d' :: rest => .ok (seen ++ [(key, v)], rest)
          | ',' :: more => found (members member (seen ++ [(key, v)]) more)
          | _ => .error .notJson := by
  rw [members, key?]
  -- both sides branch alike; the left one carries along why every rest is shorter
  split
  next body hk =>
    simp only [hk]
    split
    next hb =>
      simp only [hb]
      rfl
    next key afterKey hb =>
      simp only [hb]
      split
      next e hm => simp only [hm, found_error]
      next v r hr hm =>
        simp only [hm, found_ok]
        split
        next rest hs => simp only [hs, found_ok]
        next more hs =>
          simp only [hs]
          split
          next e hrest => simp only [hrest, found_error]
          next ms rest _ hrest => simp only [hrest, found_ok]
        next hclose hcomma =>
          split
          next rest hs => exact absurd hs (hclose rest)
          next more hs => exact absurd hs (hcomma more)
          next => rfl
  next hk =>
    split
    next => rfl
    next key afterKey h =>
      split at h
      next body hs => exact absurd hs (hk body)
      next => cases h

/-- An object is closed at once, or has members. -/
theorem found_objectBody (member : MemberReader) (cs : List Char) :
    found (objectBody member cs) =
      match skipSpaces cs with
      | '\x7d' :: rest => .ok ([], rest)
      | _ => found (members member [] cs) := by
  unfold objectBody
  split
  next rest hs => simp only [hs, found_ok]
  next hs =>
    split
    next rest h => exact absurd h (hs rest)
    next => rfl

/-- Neither an array nor an object starts here. -/
structure StartsScalar (cs : List Char) : Prop where
  array : ∀ body, cs ≠ '[' :: body
  object : ∀ body, cs ≠ '\x7b' :: body

/-- How a value may start. -/
inductive Start : List Char → Prop where
  | array (body : List Char) : Start ('[' :: body)
  | object (body : List Char) : Start ('\x7b' :: body)
  | scalar {cs : List Char} (h : StartsScalar cs) : Start cs

/-- Every text starts in one of these ways. -/
theorem start (cs : List Char) : Start cs := by
  by_cases harray : ∃ body, cs = '[' :: body
  · obtain ⟨body, rfl⟩ := harray
    exact .array body
  by_cases hobject : ∃ body, cs = '\x7b' :: body
  · obtain ⟨body, rfl⟩ := hobject
    exact .object body
  exact .scalar ⟨not_exists.mp harray, not_exists.mp hobject⟩

section Value

variable {depth : Nat} {body : List Char}

/-- Behind a bracket there is the body of an array, whose values are one level down. -/
theorem found_value_array (h : skipSpaces cs = '[' :: body) :
    found (value (depth + 1) cs) =
      (found (arrayBody (value depth) body)).map fun q => (.array q.1, q.2) := by
  rw [value, found_afterSpaces, h]
  cases hbody : arrayBody (value depth) body with
  | error e => simp only [hbody, found_error]; rfl
  | ok p => simp only [hbody, found_ok]; rfl

/-- Behind a brace there is the body of an object, of whose members the last of each key counts. -/
theorem found_value_object (h : skipSpaces cs = '\x7b' :: body) :
    found (value (depth + 1) cs) =
      (found (objectBody (fun _ _ => afterColon (value depth)) body)).map fun q => (.object (ofMembers q.1), q.2) := by
  rw [value, found_afterSpaces, h]
  cases hbody : objectBody (fun _ _ => afterColon (value depth)) body with
  | error e => simp only [hbody, found_error]; rfl
  | ok p => simp only [hbody, found_ok]; rfl

/-- Anything else is a scalar, at whatever depth. -/
theorem found_value_scalar (h : StartsScalar (skipSpaces cs)) :
    found (value depth cs) = found (scalar .notJson (skipSpaces cs)) := by
  cases depth with
  | zero => rw [value, found_afterSpaces]
  | succ depth =>
    rw [value, found_afterSpaces]
    generalize skipSpaces cs = cs at h
    split
    next body => exact absurd rfl (h.array body)
    next body => exact absurd rfl (h.object body)
    next => rfl

end Value

/-- Only at arrays and objects it matters how they are refused. -/
theorem scalar_deny (h : StartsScalar cs) (deny deny' : Refusal) : scalar deny cs = scalar deny' cs := by
  unfold scalar
  split
  case h_6 => exact absurd rfl (h.array _)
  case h_7 => exact absurd rfl (h.object _)
  all_goals rfl

/-- A text holds the value that is read from it if nothing but spaces is left. -/
theorem parse_eq (text : String) :
    parse text =
      match found (value depthLimit text.toList) with
      | .error e => .error e
      | .ok (v, rest) => if skipSpaces rest = [] then .ok v else .error .notJson := by
  unfold parse
  split
  next e h => simp only [h, found_error]
  next p h => simp only [h, found_ok]

/-! ## Runs of members -/

/-- A run of readings: from `cs` on `member` reads the members `new`, up to the closing brace and
`rest`, when those of `seen` stand before them. -/
inductive Reads (member : MemberReader) :
    List (String × Json) → List Char → List (String × Json) → List Char → Prop where
  | last {seen : List (String × Json)} {cs afterKey r rest : List Char} {key : String} {v : Json}
      (hkey : key? cs = some (key, afterKey)) (hmember : found (member seen key afterKey) = .ok (v, r))
      (hclose : skipSpaces r = '\x7d' :: rest) : Reads member seen cs [(key, v)] rest
  | more {seen new : List (String × Json)} {cs afterKey r more rest : List Char} {key : String} {v : Json}
      (hkey : key? cs = some (key, afterKey)) (hmember : found (member seen key afterKey) = .ok (v, r))
      (hcomma : skipSpaces r = ',' :: more) (h : Reads member (seen ++ [(key, v)]) more new rest) :
      Reads member seen cs ((key, v) :: new) rest

variable {member : MemberReader} {seen new : List (String × Json)} {rest : List Char}

/-- Members that are read one by one are found, behind those already seen. -/
theorem Reads.found_members (h : Reads member seen cs new rest) :
    found (members member seen cs) = .ok (seen ++ new, rest) := by
  induction h with
  | last hkey hmember hclose => simp only [Json.found_members, hkey, hmember, hclose]
  | more hkey hmember hcomma _ ih =>
    simp only [Json.found_members, hkey, hmember, hcomma, ih, List.append_assoc, List.singleton_append]

theorem key?_eq {cs body : List Char} (h : skipSpaces cs = '"' :: body) : key? cs = stringBody [] body := by
  simp only [key?, h]

/-- Members that are found were read one by one. -/
theorem exists_reads {ms : List (String × Json)} (h : found (members member seen cs) = .ok (ms, rest)) :
    ∃ new, ms = seen ++ new ∧ Reads member seen cs new rest := by
  -- a member is found in front of the brace or a comma, and every other case is a refusal
  fun_induction members member seen cs with
  | case1 => cases h
  | case2 => cases h
  | case3 seen cs body hk key afterKey hb _ v r hr hmember rest' hclose =>
    cases h
    exact ⟨_, rfl, .last ((key?_eq hk).trans hb) (found_eq_ok_iff.mpr ⟨hr, hmember⟩) hclose⟩
  | case4 => cases h
  | case5 seen cs body hk key afterKey hb _ v r hr hmember more hcomma _ vs rest' hrest heq ih =>
    cases h
    obtain ⟨new, hnew, hreads⟩ := ih (found_eq_ok_iff.mpr ⟨hrest, heq⟩)
    refine ⟨(key, v) :: new, ?_, .more ((key?_eq hk).trans hb) (found_eq_ok_iff.mpr ⟨hr, hmember⟩) hcomma hreads⟩
    rw [hnew, List.append_assoc, List.singleton_append]
  | case6 => cases h
  | case7 => cases h

/-- A reader that accepts no less reads the same members. -/
theorem Reads.of_imp {member' : MemberReader}
    (himp : ∀ seen key cs q, found (member seen key cs) = .ok q → found (member' seen key cs) = .ok q)
    (h : Reads member seen cs new rest) : Reads member' seen cs new rest := by
  induction h with
  | last hkey hmember hclose => exact .last hkey (himp _ _ _ _ hmember) hclose
  | more hkey hmember hcomma _ ih => exact .more hkey (himp _ _ _ _ hmember) hcomma ih

/-- What each value satisfies, all values of the members satisfy. -/
theorem Reads.forall {P : Json → Prop} (hP : ∀ seen key cs v r, found (member seen key cs) = .ok (v, r) → P v)
    (h : Reads member seen cs new rest) : ∀ m ∈ new, P m.2 := by
  induction h with
  | last _ hmember _ => exact List.forall_mem_singleton.mpr (hP _ _ _ _ _ hmember)
  | more _ hmember _ _ ih => exact List.forall_mem_cons.mpr ⟨hP _ _ _ _ _ hmember, ih⟩

/-- A key does not start with a brace. -/
theorem Reads.not_close (h : Reads member seen cs new rest) (rest' : List Char) :
    skipSpaces cs ≠ '\x7d' :: rest' := by
  intro hs
  have hkey : key? cs = none := by
    rw [key?, hs]
    rfl
  cases h with
  | last h => cases hkey.symm.trans h
  | more h => cases hkey.symm.trans h

/-- What stands behind an opening brace: a closing one, or a run of members. -/
inductive ReadsBody (member : MemberReader) (cs : List Char) : List (String × Json) → List Char → Prop where
  | empty {rest : List Char} (h : skipSpaces cs = '\x7d' :: rest) : ReadsBody member cs [] rest
  | run {new : List (String × Json)} {rest : List Char} (h : Reads member [] cs new rest) :
      ReadsBody member cs new rest

/-- **The body of an object is found exactly if its members are read.** -/
theorem found_objectBody_eq_ok_iff :
    found (objectBody member cs) = .ok (new, rest) ↔ ReadsBody member cs new rest := by
  rw [found_objectBody]
  constructor
  · intro h
    split at h
    next rest' hs =>
      cases h
      exact .empty hs
    next =>
      obtain ⟨new', hnew, hreads⟩ := exists_reads h
      rw [List.nil_append] at hnew
      subst hnew
      exact .run hreads
  · intro h
    cases h with
    | empty hs => simp only [hs]
    | run hreads =>
      split
      next rest' hs => exact absurd hs (hreads.not_close rest')
      next => exact hreads.found_members

/-- What each value satisfies, all values in the body satisfy. -/
theorem ReadsBody.forall {P : Json → Prop} (hP : ∀ seen key cs v r, found (member seen key cs) = .ok (v, r) → P v)
    (h : ReadsBody member cs new rest) : ∀ m ∈ new, P m.2 := by
  cases h with
  | empty => exact List.forall_mem_nil _
  | run h => exact h.forall hP

/-- A reader that accepts no less reads the same body. -/
theorem ReadsBody.of_imp {member' : MemberReader}
    (himp : ∀ seen key cs q, found (member seen key cs) = .ok q → found (member' seen key cs) = .ok q)
    (h : ReadsBody member cs new rest) : ReadsBody member' cs new rest := by
  cases h with
  | empty hclose => exact .empty hclose
  | run h => exact .run (h.of_imp himp)

/-! ## Checks on the way -/

/-- Whether each of some members passes a check against those before it. -/
def passes (ok : List (String × Json) → String → Json → Bool) :
    List (String × Json) → List (String × Json) → Bool
  | _, [] => true
  | seen, (key, v) :: rest => ok seen key v && passes ok (seen ++ [(key, v)]) rest

/-- `checked` reads what `member` reads, and refuses it if it does not pass a check. -/
def Checks (ok : List (String × Json) → String → Json → Bool) (deny : Refusal) (member checked : MemberReader) : Prop :=
  ∀ seen key cs v r, found (member seen key cs) = .ok (v, r) →
    found (checked seen key cs) = if ok seen key v then .ok (v, r) else .error deny

section Checks

variable {ok : List (String × Json) → String → Json → Bool} {deny : Refusal} {checked : MemberReader}

/-- Members that are all read are refused by a reader with checks at the first one that does not
pass. -/
theorem Reads.found_members_of_checks (hchecks : Checks ok deny member checked)
    (h : Reads member seen cs new rest) :
    found (members checked seen cs) = if passes ok seen new then .ok (seen ++ new, rest) else .error deny := by
  induction h with
  | @last seen cs afterKey r rest key v hkey hmember hclose =>
    rw [Json.found_members]
    simp only [hkey, hchecks _ _ _ _ _ hmember, passes, Bool.and_true]
    by_cases hok : ok seen key v = true
    · simp only [hok, if_true, hclose]
    · simp only [if_neg hok]
  | @more seen new cs afterKey r more rest key v hkey hmember hcomma _ ih =>
    rw [Json.found_members]
    simp only [hkey, hchecks _ _ _ _ _ hmember, passes]
    by_cases hok : ok seen key v = true
    · simp only [hok, if_true, hcomma, ih, Bool.true_and, List.append_assoc, List.singleton_append]
    · rw [Bool.not_eq_true] at hok
      simp only [hok, Bool.false_and, Bool.false_eq_true, if_false]

/-- A reader that checks each member finds the body if all pass, and denies it otherwise. -/
theorem ReadsBody.found_objectBody_of_checks (hchecks : Checks ok deny member checked)
    (h : ReadsBody member cs new rest) :
    found (objectBody checked cs) = if passes ok [] new then .ok (new, rest) else .error deny := by
  cases h with
  | empty hclose => exact found_objectBody_eq_ok_iff.mpr (.empty hclose)
  | run h =>
    rw [found_objectBody]
    split
    next rest' hs => exact absurd hs (h.not_close rest')
    next => exact h.found_members_of_checks hchecks

end Checks

end BotSpec.Json
