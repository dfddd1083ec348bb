import Mathlib.Data.List.Nodup
import BotSpec.Proofs.Record.Fields

/-!
# The text of a record and its value

A record is read in two ways: `ofText` follows a text from front to back and checks each fixed field
as it comes, `ofJson` is given the value of the whole text. A repeated key makes the difference. The
value has forgotten all but the last member of a key, and the reader of the text refuses a second
one of a fixed field:

> `ofText_eq_ofJson`: a text that repeats no fixed field is read like its value.

> `ofText_of_repeatsFixed`: a text that repeats one is refused.

> `exists_parse_of_ofText`: what is not JSON is refused.
-/

namespace BotSpec.StrategyRecord

open Json (Refusal found lookup topMember topMembers)

variable {cs : List Char} {key : String} {seen members : List (String × Json)}

/-! ## One member -/

/-- Whether a member may stand behind others: a fixed field is not repeated, and has its shape. -/
def mayFollow (seen : List (String × Json)) (key : String) (v : Json) : Bool :=
  if key ∈ fixedKeys then (lookup key seen).isNone && (key = "strategy_params" || admits key v) else true

/-- A fixed field is read as a scalar and refused if its key does not admit it. -/
theorem found_fixedScalar (key : String) (cs : List Char) :
    found (fixedScalar key cs) =
      match found (Json.scalar .wrongShape cs) with
      | .error e => .error e
      | .ok q => if admits key q.1 then .ok q else .error .wrongShape := by
  unfold fixedScalar
  split
  next e h => rw [h]; rfl
  next p h =>
    simp only [h, Json.found_ok]
    split <;> rfl

/-- Neither arrays nor objects are fixed fields. -/
theorem admits_array (key : String) (items : List Json) : admits key (.array items) = false := by
  unfold admits
  split <;> rfl

theorem admits_object (key : String) (members : List (String × Json)) :
    admits key (.object members) = false := by
  unfold admits
  split <;> rfl

section FixedScalar

variable {depth : Nat} {v : Json} {r : List Char}

/-- A fixed field is read like any value, and checked. -/
theorem found_fixedScalar_of_value (h : found (Json.value (depth + 1) cs) = .ok (v, r)) :
    found (Json.afterSpaces (fixedScalar key) cs) = if admits key v then .ok (v, r) else .error .wrongShape := by
  rw [Json.found_afterSpaces, found_fixedScalar]
  cases Json.readsValue h with
  | array hstart =>
    rw [hstart, admits_array]
    rfl
  | object hstart =>
    rw [hstart, admits_object]
    rfl
  | scalar hstart h =>
    rw [Json.scalar_deny hstart .wrongShape .notJson, h]

/-- What is read for a fixed field is the value there. -/
theorem found_value_of_fixedScalar (h : found (Json.afterSpaces (fixedScalar key) cs) = .ok (v, r)) :
    found (Json.value (depth + 1) cs) = .ok (v, r) := by
  rw [Json.found_afterSpaces, found_fixedScalar] at h
  -- arrays and objects are refused, so that a scalar starts here
  generalize hfront : Json.skipSpaces cs = front at h
  cases Json.start front with
  | array body => cases h
  | object body => cases h
  | scalar hstart =>
    subst hfront
    rw [Json.found_value_scalar hstart, Json.scalar_deny hstart .notJson .wrongShape]
    split at h
    next => cases h
    next q hq =>
      split at h
      next =>
        cases h
        exact hq
      next => cases h

end FixedScalar

/-- The reader of a record reads what any reader of JSON does, and checks it. -/
theorem checks_member : Json.Checks mayFollow .wrongShape topMember member := by
  intro seen key cs v r h
  unfold member mayFollow
  by_cases hfixed : key ∈ fixedKeys
  · rw [if_pos hfixed, if_pos hfixed]
    cases hseen : lookup key seen with
    | some first => rfl
    | none =>
      by_cases hparams : key = "strategy_params"
      · subst hparams
        exact h
      · obtain ⟨body, hcolon, hvalue⟩ := Json.exists_of_found_afterColon h
        simp only [hparams]
        show found (Json.afterColon (Json.afterSpaces (fixedScalar key)) cs) =
          if admits key v then .ok (v, r) else .error .wrongShape
        rw [Json.found_afterColon]
        simp only [hcolon, found_fixedScalar_of_value hvalue]
  · rw [if_neg hfixed, if_neg hfixed]
    exact h

/-- What the reader of a record reads, any reader of JSON does. -/
theorem found_topMember_of_member {q : Json × List Char} (h : found (member seen key cs) = .ok q) :
    found (topMember seen key cs) = .ok q := by
  unfold member at h
  split at h
  next =>
    split at h
    next => cases h
    next =>
      split at h
      next => exact h
      next =>
        obtain ⟨body, hcolon, hvalue⟩ := Json.exists_of_found_afterColon h
        rw [topMember, Json.found_afterColon]
        simp only [hcolon]
        exact found_value_of_fixedScalar hvalue
  next => exact h

/-! ## All members -/

/-- The keys of the object in a text, as they are written. -/
def topKeys (text : String) : List String := (topMembers text).map Prod.fst

/-- Whether a fixed field stands twice in the object of a text. -/
def RepeatsFixed (text : String) : Prop := ∃ key ∈ fixedKeys, 2 ≤ (topKeys text).count key

instance (text : String) : Decidable (RepeatsFixed text) :=
  inferInstanceAs (Decidable (∃ key ∈ fixedKeys, 2 ≤ (topKeys text).count key))

/-- The fixed fields among some members, with every repetition. -/
def fixedOf (members : List (String × Json)) : List String := (members.map Prod.fst).filter (· ∈ fixedKeys)

/-- Every scalar field of fixed shape has it. -/
def Admitted (members : List (String × Json)) : Prop :=
  ∀ m ∈ members, m.1 ∈ fixedKeys → m.1 ≠ "strategy_params" → admits m.1 m.2 = true

/-- The fixed keys of members in a row are those of both parts. -/
theorem fixedOf_append (members others : List (String × Json)) :
    fixedOf (members ++ others) = fixedOf members ++ fixedOf others := by
  simp only [fixedOf, List.map_append, List.filter_append]

/-- No fixed key occurs twice exactly if each occurs at most once. -/
theorem nodup_fixedOf_iff :
    (fixedOf members).Nodup ↔ ∀ key ∈ fixedKeys, (members.map Prod.fst).count key ≤ 1 := by
  rw [List.nodup_iff_count]
  constructor
  · intro h key hkey
    have hcount := h key
    rwa [fixedOf, List.count_filter (by simpa using hkey)] at hcount
  · intro h key
    by_cases hkey : key ∈ fixedKeys
    · rw [fixedOf, List.count_filter (by simpa using hkey)]
      exact h key hkey
    · have hno : key ∉ fixedOf members := by simp [fixedOf, hkey]
      rw [List.count_eq_zero_of_not_mem hno]
      exact Nat.zero_le 1

theorem fixedOf_cons_of_fixed {v : Json} (h : key ∈ fixedKeys) :
    fixedOf ((key, v) :: members) = key :: fixedOf members := by
  rw [fixedOf, List.map_cons, List.filter_cons_of_pos (by simpa using h), fixedOf]

theorem fixedOf_cons_of_loose {v : Json} (h : key ∉ fixedKeys) :
    fixedOf ((key, v) :: members) = fixedOf members := by
  rw [fixedOf, List.map_cons, List.filter_cons_of_neg (by simpa using h), fixedOf]

/-- A fixed key was seen exactly if something is found for it. -/
theorem mem_fixedOf_iff (h : key ∈ fixedKeys) : key ∈ fixedOf seen ↔ (lookup key seen).isNone = false := by
  rw [fixedOf, List.mem_filter, ← not_iff_not, Bool.not_eq_false, Option.isNone_iff_eq_none, Json.lookup_eq_none_iff]
  simp [h]

/-- Members pass if no fixed field is repeated, and all of them are admitted. -/
theorem passes_mayFollow_iff (hseen : (fixedOf seen).Nodup) :
    Json.passes mayFollow seen members = true ↔ (fixedOf (seen ++ members)).Nodup ∧ Admitted members := by
  induction members generalizing seen with
  | nil =>
    rw [List.append_nil]
    exact ⟨fun _ => ⟨hseen, List.forall_mem_nil _⟩, fun _ => rfl⟩
  | cons m rest ih =>
    obtain ⟨key, v⟩ := m
    -- what has been read moves behind, so the seen part grows with the induction
    have hshift : fixedOf (seen ++ (key, v) :: rest) = fixedOf (seen ++ [(key, v)] ++ rest) := by
      rw [List.append_assoc, List.singleton_append]
    rw [Json.passes, Bool.and_eq_true, Admitted, List.forall_mem_cons, ← Admitted, mayFollow, hshift]
    by_cases hkey : key ∈ fixedKeys
    · rw [if_pos hkey]
      cases hno : (lookup key seen).isNone with
      | false =>
        -- a second one: it is refused, and the keys repeat
        have hmem : key ∈ fixedOf seen := (mem_fixedOf_iff hkey).mpr hno
        rw [← hshift, fixedOf_append, fixedOf_cons_of_fixed hkey]
        constructor
        · intro h
          cases h.1
        · intro h
          exact absurd List.mem_cons_self (List.disjoint_of_nodup_append h.1 hmem)
      | true =>
        have hnew : key ∉ fixedOf seen := by
          rw [mem_fixedOf_iff hkey, hno]
          exact Bool.noConfusion
        have hnodup : (fixedOf (seen ++ [(key, v)])).Nodup := by
          rw [fixedOf_append, fixedOf_cons_of_fixed hkey]
          exact List.nodup_append_comm.mp (List.nodup_cons.mpr ⟨hnew, hseen⟩)
        have hadmits : (decide (key = "strategy_params") || admits key v) = true ↔
            (key ≠ "strategy_params" → admits key v = true) := by
          rw [Bool.or_eq_true, decide_eq_true_eq, or_iff_not_imp_left]
        rw [ih hnodup, Bool.true_and, hadmits]
        exact ⟨fun h => ⟨h.2.1, fun _ => h.1, h.2.2⟩, fun h => ⟨h.2.1 hkey, h.1, h.2.2⟩⟩
    · rw [if_neg hkey]
      have hsame : fixedOf (seen ++ [(key, v)]) = fixedOf seen := by
        rw [fixedOf_append, fixedOf_cons_of_loose hkey]
        exact List.append_nil _
      rw [ih (hsame ▸ hseen)]
      exact ⟨fun h => ⟨h.2.1, fun hfixed => absurd hfixed hkey, h.2.2⟩, fun h => ⟨rfl, h.1, h.2.2⟩⟩

/-- A text repeats no fixed field exactly if no fixed key occurs twice on top. -/
theorem not_repeatsFixed_iff {text : String} :
    ¬ RepeatsFixed text ↔ ∀ key ∈ fixedKeys, (topKeys text).count key ≤ 1 := by
  constructor
  · intro h key hkey
    by_contra htwice
    exact h ⟨key, hkey, by omega⟩
  · rintro h ⟨key, hkey, htwice⟩
    have honce := h key hkey
    omega

/-- The members on top pass the checks of the reader exactly if none is repeated and all are
admitted. -/
theorem passes_topMembers_iff {text : String} :
    Json.passes mayFollow [] (topMembers text) = true ↔ ¬ RepeatsFixed text ∧ Admitted (topMembers text) := by
  have hnil : (fixedOf []).Nodup := List.nodup_nil
  rw [passes_mayFollow_iff hnil, List.nil_append, nodup_fixedOf_iff, not_repeatsFixed_iff, topKeys]

/-! ## Refusals of a value -/

theorem eq_wrongShape_of_readId {j : Option Json} {e : Refusal} (h : readId j = .error e) :
    e = .wrongShape := by
  unfold readId at h
  split at h
  next => cases h
  next => cases h
  next =>
    split at h
    next => cases h
    next => exact (Except.error.inj h).symm
  next => exact (Except.error.inj h).symm

theorem eq_wrongShape_of_readText {j : Option Json} {e : Refusal} (h : readText j = .error e) :
    e = .wrongShape := by
  unfold readText at h
  split at h
  next => cases h
  next => cases h
  next => cases h
  next => exact (Except.error.inj h).symm

theorem eq_wrongShape_of_ofMembers {e : Refusal} (h : ofMembers members = .error e) : e = .wrongShape := by
  unfold ofMembers at h
  rcases eq_error_or_of_bind_eq_error h with h | ⟨_, -, h⟩
  · exact eq_wrongShape_of_readId h
  -- four texts follow the id, and then nothing can go wrong
  iterate 4
    rcases eq_error_or_of_bind_eq_error h with h | ⟨_, -, h⟩
    · exact eq_wrongShape_of_readText h
  cases h

theorem ofJson_eq_wrongShape {v : Json} {e : Refusal} (h : ofJson v = .error e) : e = .wrongShape := by
  cases v with
  | object members => exact eq_wrongShape_of_ofMembers h
  | _ => exact (Except.error.inj h).symm

/-- Members are refused for one that is not admitted. -/
theorem ofMembers_of_not_admits {v : Json} (hfixed : key ∈ fixedKeys) (hparams : key ≠ "strategy_params")
    (hlookup : lookup key members = some v) (hno : admits key v = false) : ofMembers members = .error .wrongShape := by
  cases h : ofMembers members with
  | error e => rw [eq_wrongShape_of_ofMembers h]
  | ok r =>
    obtain ⟨⟨id, hid⟩, htexts⟩ := exists_ofMembers_iff.mp ⟨r, h⟩
    have hscalar : ∀ key ∈ fixedKeys, key ≠ "strategy_params" → key = "id" ∨ key ∈ textKeys := by decide
    rcases hscalar key hfixed hparams with rfl | htext
    · rw [admits, if_pos rfl, ← hlookup, hid] at hno
      cases hno
    · have hne : key ≠ "id" := by
        rintro rfl
        exact absurd htext (by decide)
      obtain ⟨s, hs⟩ := htexts key htext
      rw [admits, if_neg hne, ← hlookup, hs] at hno
      cases hno

/-- Only what the members answer counts. -/
theorem ofMembers_congr {others : List (String × Json)} (h : ∀ key, lookup key others = lookup key members) :
    ofMembers others = ofMembers members := by
  simp only [ofMembers, BacktestStats.ofMembers, h]

/-! ## Texts -/

section Texts

variable {text : String} {body : List Char} {v : Json} {r : StrategyRecord}

/-- A text that opens an object is read member by member, and must end behind it. -/
theorem ofText_of_object (hstart : Json.skipSpaces text.toList = '\x7b' :: body) :
    ofText text =
      match found (Json.objectBody member body) with
      | .error e => .error e
      | .ok (ms, rest) => if Json.skipSpaces rest = [] then ofMembers (Json.ofMembers ms) else .error .notJson := by
  simp only [ofText, hstart]
  cases Json.objectBody member body <;> rfl

/-- Any other text is refused, for its form or for its shape. -/
theorem ofText_of_no_object (hstart : ∀ body, Json.skipSpaces text.toList ≠ '\x7b' :: body) :
    ofText text =
      match found (Json.scalar .wrongShape (Json.skipSpaces text.toList)) with
      | .error e => .error e
      | .ok _ => .error .wrongShape := by
  unfold ofText
  split
  next body h => exact absurd h (hstart body)
  next => cases Json.scalar .wrongShape (Json.skipSpaces text.toList) <;> rfl

/-- A record is read from no other text than that of an object. -/
theorem exists_parse_of_ofText (h : ofText text = .ok r) : ∃ v, Json.parse text = .ok v := by
  by_cases hobject : ∃ body, Json.skipSpaces text.toList = '\x7b' :: body
  · obtain ⟨body, hstart⟩ := hobject
    rw [ofText_of_object hstart] at h
    split at h
    next => cases h
    next ms rest hbody =>
      split at h
      next hrest =>
        have hreads := (Json.found_objectBody_eq_ok_iff.mp hbody).of_imp fun _ _ _ _ => found_topMember_of_member
        exact ⟨_, (Json.parse_object_iff hstart).mpr ⟨ms, rest, hreads, hrest, rfl⟩⟩
      next => cases h
  · rw [ofText_of_no_object (not_exists.mp hobject)] at h
    split at h <;> cases h

/-- Where no object starts, no record is read. -/
theorem ofText_of_parse_no_object (hstart : ∀ body, Json.skipSpaces text.toList ≠ '\x7b' :: body)
    (hparse : Json.parse text = .ok v) : ofText text = .error .wrongShape := by
  obtain ⟨rest, -, hfound⟩ := Json.parse_eq_ok_iff.mp hparse
  have hreads : Json.ReadsValue (Json.depthLimit - 1) text.toList rest v := Json.readsValue hfound
  rw [ofText_of_no_object hstart]
  cases hreads with
  | array hs =>
    rw [hs]
    rfl
  | object hs => exact absurd hs (hstart _)
  | scalar hs h => rw [Json.scalar_deny hs .wrongShape .notJson, h]

/-- The text of a value is read like the value, or refused for one of its members. -/
theorem ofText_eq_of_parse (hparse : Json.parse text = .ok v) :
    ofText text = if Json.passes mayFollow [] (topMembers text) then ofJson v else .error .wrongShape := by
  by_cases hobject : ∃ body, Json.skipSpaces text.toList = '\x7b' :: body
  · obtain ⟨body, hstart⟩ := hobject
    obtain ⟨ms, rest, hbody, hrest, rfl⟩ := (Json.parse_object_iff hstart).mp hparse
    rw [Json.topMembers_eq hstart hbody, ofText_of_object hstart,
      hbody.found_objectBody_of_checks checks_member]
    by_cases hpasses : Json.passes mayFollow [] ms = true
    · rw [if_pos hpasses, if_pos hpasses]
      exact if_pos hrest
    · rw [if_neg hpasses, if_neg hpasses]
  · have hstart := not_exists.mp hobject
    rw [ofText_of_parse_no_object hstart hparse, Json.topMembers_eq_nil hstart]
    cases v with
    | object ms => exact absurd rfl (Json.ne_object_of_parse hstart hparse ms)
    | _ => rfl

/-- A text that repeats no fixed field is read like its value. -/
theorem ofText_eq_ofJson (hparse : Json.parse text = .ok v) (honce : ¬ RepeatsFixed text) :
    ofText text = ofJson v := by
  rw [ofText_eq_of_parse hparse]
  by_cases hpasses : Json.passes mayFollow [] (topMembers text) = true
  · exact if_pos hpasses
  rw [if_neg hpasses]
  -- a member is refused, and in the value it is still there, since its key is not repeated
  obtain ⟨⟨key, w⟩, hmem, hfixed, hparams, hno⟩ : ∃ m ∈ topMembers text, m.1 ∈ fixedKeys ∧ m.1 ≠ "strategy_params" ∧
      admits m.1 m.2 = false := by
    by_contra hall
    refine hpasses (passes_topMembers_iff.mpr ⟨honce, ?_⟩)
    intro m hmem hfixed hparams
    by_contra hno
    exact hall ⟨m, hmem, hfixed, hparams, Bool.eq_false_iff.mpr hno⟩
  have hlookup : v.get? key = some w := by
    rw [Json.get?_of_parse hparse]
    refine Json.lookup_eq_of_count_le_one (List.mem_reverse.mpr hmem) ?_
    rw [List.map_reverse, List.count_reverse]
    exact not_repeatsFixed_iff.mp honce key hfixed
  cases v with
  | object ms => exact (ofMembers_of_not_admits hfixed hparams hlookup hno).symm
  | _ => rfl

/-- A text that repeats a fixed field is refused. -/
theorem ofText_of_repeatsFixed (hparse : Json.parse text = .ok v) (hrepeats : RepeatsFixed text) :
    ofText text = .error .wrongShape := by
  rw [ofText_eq_of_parse hparse, if_neg]
  rw [passes_topMembers_iff]
  exact fun h => h.1 hrepeats

/-- A value is read like the members of its text from the last one on. -/
theorem ofJson_of_repeatsFixed (hparse : Json.parse text = .ok v) (hrepeats : RepeatsFixed text) :
    ofJson v = ofMembers (topMembers text).reverse := by
  by_cases hobject : ∃ body, Json.skipSpaces text.toList = '\x7b' :: body
  · obtain ⟨body, hstart⟩ := hobject
    rw [Json.eq_object_of_parse hstart hparse]
    exact ofMembers_congr fun key => Json.lookup_ofMembers
  · obtain ⟨key, -, htwice⟩ := hrepeats
    rw [topKeys, Json.topMembers_eq_nil (not_exists.mp hobject)] at htwice
    cases htwice

end Texts

end BotSpec.StrategyRecord
