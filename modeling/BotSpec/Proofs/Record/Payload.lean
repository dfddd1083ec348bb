import BotSpec.Proofs.ParamSet.Nesting
import BotSpec.Proofs.Record.Text

/-!
# The parameters of a record

The parameters of a record, whether they are malformed, and the type that may stand among them all
come from one payload. When it is a text, it is decoded as long as there is a text in it, and each
of these is decided by what is there in the end:

> `encoded_payloads_are_decided`: decoding ends; an object has parameters and may have a type, a
> text that is not JSON and a value of another kind are errors, and a record is malformed in just
> these two cases.

The parameters and the type are read by two recursions. Both follow the same chain of texts
(`normalize?_of_decodes`, `embeddedType?_of_decodes`).
-/

namespace BotSpec

open Json (lookup parse)
open ParamSet (Decodes Final Malformed bytes_of_decodes exists_final final_of_ne_string final_of_parse final_unique flatten
  normalize? normalize?_of_decodes ofFinal)

variable {payload v : Json} {n : Nat} {text type kind : String} {members : List (String × Json)}

/-! ## The type among the parameters -/

/-- The type that a final value names. -/
def finalType? : Json → Option String
  | .object members => embeddedType?.typeOf members
  | _ => none

/-- The type among some members is that of the member, if it is a text. -/
theorem typeOf_eq_some_iff :
    embeddedType?.typeOf members = some type ↔ lookup "type" members = some (.string type) := by
  unfold embeddedType?.typeOf
  constructor
  · intro h
    split at h
    next hlookup => cases h; exact hlookup
    next => cases h
  · intro h
    rw [h]

/-- The type of a final value is that of its member, if the value is an object. -/
theorem finalType?_eq_some_iff :
    finalType? v = some type ↔ ∃ members, v = .object members ∧ lookup "type" members = some (.string type) := by
  cases v with
  | object members => simp [finalType?, typeOf_eq_some_iff]
  | _ => simp [finalType?]

/-- The text of a value names the type that the value names. -/
theorem embeddedType?_of_parse (h : parse text = .ok v) : embeddedType? (.string text) = embeddedType? v := by
  rw [embeddedType?, embeddedType?.ofText]
  split
  next members heq => cases h.symm.trans heq; rfl
  next inner heq => cases h.symm.trans heq; rfl
  next hobject hstring =>
    cases v with
    | object members => exact absurd h (hobject members)
    | string inner => exact absurd h (hstring inner)
    | _ => rfl

/-- **The type that a payload names is that of the value that it is read to.** -/
theorem embeddedType?_of_decodes (h : Decodes payload n v) (hfinal : Final v) :
    embeddedType? payload = finalType? v := by
  induction h with
  | @done j =>
    cases j with
    | string text =>
      obtain ⟨e, he⟩ := hfinal text rfl
      rw [embeddedType?, embeddedType?.ofText]
      split
      next heq => cases he.symm.trans heq
      next heq => cases he.symm.trans heq
      next => rfl
    | _ => rfl
  | text hparse h ih => rw [embeddedType?_of_parse hparse, ih hfinal]

/-! ## What a payload is decided by -/

/-- **A payload has parameters** exactly if it is null, or an object after some readings. -/
theorem normalize?_eq_ok_iff {p : ParamSet} :
    normalize? payload = .ok p ↔
      (payload = .null ∧ p = .empty) ∨ ∃ n members, Decodes payload n (.object members) ∧ p = flatten members := by
  constructor
  · intro h
    by_cases hnull : payload = .null
    · subst hnull
      exact .inl ⟨rfl, (Except.ok.inj h).symm⟩
    obtain ⟨n, v, hv, hfinal⟩ := exists_final payload
    rw [normalize?_of_decodes hv hfinal hnull] at h
    cases v with
    | object members => exact .inr ⟨n, members, hv, (Except.ok.inj h).symm⟩
    | _ => cases h
  · rintro (⟨rfl, rfl⟩ | ⟨n, members, hv, rfl⟩)
    · rfl
    · refine normalize?_of_decodes hv (final_of_ne_string nofun) ?_
      rintro rfl
      cases hv

/-- It is no JSON exactly if a text on the way is none. -/
theorem normalize?_eq_notJson_iff :
    normalize? payload = .error .notJson ↔ ∃ n text e, Decodes payload n (.string text) ∧ parse text = .error e := by
  constructor
  · intro h
    by_cases hnull : payload = .null
    · subst hnull
      cases h
    obtain ⟨n, v, hv, hfinal⟩ := exists_final payload
    rw [normalize?_of_decodes hv hfinal hnull] at h
    cases v with
    | string text =>
      obtain ⟨e, he⟩ := hfinal text rfl
      exact ⟨n, text, e, hv, he⟩
    | _ => cases h
  · rintro ⟨n, text, e, hv, he⟩
    refine normalize?_of_decodes hv (final_of_parse he) ?_
    rintro rfl
    cases hv

/-- It is no object exactly if the last value is neither an object nor a text. -/
theorem normalize?_eq_notAnObject_iff :
    normalize? payload = .error (.notAnObject kind) ↔ payload ≠ .null ∧
      ∃ n v, Decodes payload n v ∧ (∀ members, v ≠ .object members) ∧ (∀ text, v ≠ .string text) ∧ kind = v.kindName := by
  constructor
  · intro h
    have hnull : payload ≠ .null := by
      rintro rfl
      cases h
    obtain ⟨n, v, hv, hfinal⟩ := exists_final payload
    rw [normalize?_of_decodes hv hfinal hnull] at h
    refine ⟨hnull, n, v, hv, ?_⟩
    cases v with
    | object members => cases h
    | string text => cases h
    | _ => cases h; exact ⟨nofun, nofun, rfl⟩
  · rintro ⟨hnull, n, v, hv, hobject, hstring, rfl⟩
    rw [normalize?_of_decodes hv (final_of_ne_string hstring) hnull]
    cases v with
    | object members => exact absurd rfl (hobject members)
    | string text => exact absurd rfl (hstring text)
    | _ => rfl

/-- A type is embedded exactly if the object at the end has it. -/
theorem embeddedType?_eq_some_iff :
    embeddedType? payload = some type ↔
      ∃ n members, Decodes payload n (.object members) ∧ lookup "type" members = some (.string type) := by
  obtain ⟨n, v, hv, hfinal⟩ := exists_final payload
  rw [embeddedType?_of_decodes hv hfinal, finalType?_eq_some_iff]
  constructor
  · rintro ⟨members, rfl, htype⟩
    exact ⟨n, members, hv, htype⟩
  · rintro ⟨m, members, hm, htype⟩
    obtain ⟨-, rfl⟩ := final_unique hv hfinal hm (final_of_ne_string nofun)
    exact ⟨members, rfl, htype⟩

/-! ## Records -/

namespace StrategyRecord

variable {r : StrategyRecord}

/-- A record has the parameters of its payload. -/
theorem readParams_of_ofMembers (h : ofMembers members = .ok r) :
    readParams ((lookup "strategy_params" members).getD .null) = (r.params, r.malformedParams) := by
  obtain ⟨id, hid, h⟩ := exists_of_bind_eq_ok h
  obtain ⟨name, hname, h⟩ := exists_of_bind_eq_ok h
  obtain ⟨type, htype, h⟩ := exists_of_bind_eq_ok h
  obtain ⟨symbol, hsymbol, h⟩ := exists_of_bind_eq_ok h
  obtain ⟨sizing, hsizing, h⟩ := exists_of_bind_eq_ok h
  cases h
  rfl

/-- What can be read stays readable with any payload. -/
theorem exists_ofMembers_putMember (h : ofMembers members = .ok r) (payload : Json) :
    ∃ r', ofMembers (Json.putMember members "strategy_params" payload) = .ok r' := by
  have hsame : Json.SameBut "strategy_params" members (Json.putMember members "strategy_params" payload) :=
    Json.sameBut_putMember
  obtain ⟨hid, htext⟩ := exists_ofMembers_iff.mp ⟨r, h⟩
  refine exists_ofMembers_iff.mpr ⟨?_, fun key hkey => ?_⟩
  · rw [hsame "id" (by decide)]
    exact hid
  · rw [hsame key (ne_of_mem_of_not_mem hkey (by decide))]
    exact htext key hkey

/-- The text of a record is that of an object, which is the same record. -/
theorem exists_object_of_ofText (h : ofText text = .ok r) :
    ∃ members, parse text = .ok (.object members) ∧ ofMembers members = .ok r := by
  obtain ⟨v, hv⟩ := exists_parse_of_ofText h
  rw [ofText_eq_of_parse hv] at h
  split at h
  next =>
    cases v with
    | object members => exact ⟨members, hv, h⟩
    | _ => cases h
  next => cases h

/-- A record of a payload is malformed if the payload is, and then has no parameters. -/
theorem params_of_ofMembers (h : ofMembers members = .ok r)
    (hpayload : (lookup "strategy_params" members).getD .null = payload) :
    (r.malformedParams = true ↔ ∃ e, normalize? payload = .error e) ∧ (r.malformedParams = true → r.params = .empty) ∧
      ∀ p, normalize? payload = .ok p → r.params = p := by
  have hread := readParams_of_ofMembers h
  rw [hpayload, readParams] at hread
  cases hnormalize : normalize? payload with
  | ok p =>
    rw [hnormalize] at hread
    obtain ⟨hparams, hmalformed⟩ := Prod.mk.inj hread
    rw [← hparams, ← hmalformed]
    exact ⟨⟨nofun, nofun⟩, nofun, fun q hq => Except.ok.inj hq⟩
  | error e =>
    rw [hnormalize] at hread
    obtain ⟨hparams, hmalformed⟩ := Prod.mk.inj hread
    rw [← hparams, ← hmalformed]
    exact ⟨⟨fun _ => ⟨e, rfl⟩, fun _ => rfl⟩, fun _ => rfl, nofun⟩

/-- **Texts in texts come to an end, and it decides.** A text that is read from a text is two bytes
shorter, so there are at most half as many of them as the first has bytes, and every payload is read
to exactly one final value. The payload has parameters if it is null or that value an object; the
error says that a text on the way is not JSON, or the kind of the value. The type that is named
among the parameters comes from the same object.

A record with this payload is malformed exactly in the two cases of an error, and has no parameters
then. No payload makes a record unreadable, and a record in a text is the record of the object
there. -/
theorem encoded_payloads_are_decided :
    (∀ text inner, parse text = .ok (.string inner) → inner.utf8ByteSize + 2 ≤ text.utf8ByteSize) ∧
    (WellFounded fun inner text : String => parse text = .ok (.string inner)) ∧
    (∀ text n,
      (∀ inner, Decodes (.string text) n (.string inner) → 2 * n + inner.utf8ByteSize ≤ text.utf8ByteSize) ∧
      ∀ v, Decodes (.string text) n v → 2 * n ≤ text.utf8ByteSize + 1) ∧
    (∀ payload : Json,
      (∃! reading : Nat × Json, Decodes payload reading.1 reading.2 ∧ Final reading.2) ∧
      (∀ p, normalize? payload = .ok p ↔
        (payload = .null ∧ p = .empty) ∨ ∃ n members, Decodes payload n (.object members) ∧ p = flatten members) ∧
      (normalize? payload = .error .notJson ↔ ∃ n text e, Decodes payload n (.string text) ∧ parse text = .error e) ∧
      (∀ kind, normalize? payload = .error (.notAnObject kind) ↔ payload ≠ .null ∧
        ∃ n v, Decodes payload n v ∧ (∀ members, v ≠ .object members) ∧ (∀ text, v ≠ .string text) ∧ kind = v.kindName) ∧
      (∀ type, embeddedType? payload = some type ↔
        ∃ n members, Decodes payload n (.object members) ∧ lookup "type" members = some (.string type)) ∧
      ∀ members r, ofJson (.object members) = .ok r →
        ((lookup "strategy_params" members).getD .null = payload →
          (r.malformedParams = true ↔ ∃ e, normalize? payload = .error e) ∧
          (r.malformedParams = true → r.params = .empty) ∧ ∀ p, normalize? payload = .ok p → r.params = p) ∧
        ∃ r', ofJson (.object (Json.putMember members "strategy_params" payload)) = .ok r') ∧
    ∀ text r, ofText text = .ok r →
      ∃ members, parse text = .ok (.object members) ∧ ofJson (.object members) = .ok r := by
  refine ⟨fun text inner h => Json.bytes_of_parse h, Json.wellFounded_holds, fun text n => ⟨?_, ?_⟩, fun payload => ?_,
    fun text r h => exists_object_of_ofText h⟩
  · intro inner h
    have hbytes : 2 * n + (inner.utf8ByteSize + 1) ≤ text.utf8ByteSize + 1 := bytes_of_decodes h
    omega
  · intro v h
    have hbytes : 2 * n + _ ≤ text.utf8ByteSize + 1 := bytes_of_decodes h
    omega
  · refine ⟨?_, fun p => normalize?_eq_ok_iff, normalize?_eq_notJson_iff, fun kind => normalize?_eq_notAnObject_iff,
      fun type => embeddedType?_eq_some_iff, fun members r h => ⟨params_of_ofMembers h, exists_ofMembers_putMember h payload⟩⟩
    obtain ⟨n, v, h, hfinal⟩ := exists_final payload
    refine ⟨(n, v), ⟨h, hfinal⟩, ?_⟩
    rintro ⟨m, w⟩ ⟨h', hfinal'⟩
    obtain ⟨rfl, rfl⟩ := final_unique h' hfinal' h hfinal
    rfl

/-- The text of an open brace: it is decoded once, and the record with it is malformed and has no
parameters. -/
theorem encoded_payloads_are_decided_brace :
    let members := [("id", Json.null), ("strategy_params", .string "\"\x7boops\"")]
    ∃ r, ofJson (.object members) = .ok r ∧ r.malformedParams = true ∧ r.params = .empty ∧
      2 + "\x7boops".utf8ByteSize ≤ "\"\x7boops\"".utf8ByteSize := by
  intro members
  obtain ⟨-, -, hbytes, hpayload, -⟩ := encoded_payloads_are_decided
  have hdecoded : parse "\"\x7boops\"" = .ok (.string "\x7boops") := by with_unfolding_all rfl
  have hrefused : ∃ e, parse "\x7boops" = .error e := by
    have hfails : (parse "\x7boops").isOk = false := by decide +kernel
    cases h : parse "\x7boops" with
    | ok v => rw [h] at hfails; cases hfails
    | error e => exact ⟨e, rfl⟩
  obtain ⟨e, he⟩ := hrefused
  have hdecodes : Decodes (.string "\"\x7boops\"") 1 (.string "\x7boops") := .text hdecoded .done
  obtain ⟨-, -, hnotJson, -, -, hrecord⟩ := hpayload (.string "\"\x7boops\"")
  obtain ⟨r, hr⟩ : ∃ r, ofJson (.object members) = .ok r := (hrecord [("id", .null)] _ rfl).2
  obtain ⟨hmalformed, hempty, -⟩ := (hrecord members r hr).1 rfl
  have hbad : r.malformedParams = true := hmalformed.mpr ⟨_, hnotJson.mpr ⟨1, _, e, hdecodes, he⟩⟩
  exact ⟨r, hr, hbad, hempty hbad, (hbytes _ 1).1 _ hdecodes⟩

end StrategyRecord

end BotSpec
