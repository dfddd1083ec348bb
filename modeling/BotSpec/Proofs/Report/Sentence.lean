import BotSpec.Proofs.Decimal.Text
import BotSpec.Proofs.Strategy.Factory

/-!
# Parameters in words

A parameter is shown by its canonical name and a text for its value. The text is that of the first
spelling with a value, and `undefined` stands for a value that is not there and for nothing else
(`optionalText_eq_undefinedText_iff`): the text of a number has no letters but those of `NaN` and
`inf`.

The sentence that opens the description of an indicator names each of its parameters once, in the
order of the schema:

> `setup_bind`: it is a fixed text with the settings of the component between its parts.
-/

namespace BotSpec

/-! ## Values -/

namespace Binary64

/-- Without an exponent a number is digits, zeros and a point. -/
theorem mem_positional {c : Char} {digits : List Char} {power : Int} (h : c ∈ positional digits power) :
    c ∈ digits ∨ c = '0' ∨ c = '.' := by
  unfold positional at h
  split at h
  next =>
    rcases List.mem_append.mp h with hdigit | hzero
    · exact .inl hdigit
    · exact .inr (.inl (List.eq_of_mem_replicate hzero))
  next =>
    dsimp only at h
    split at h
    next =>
      rcases List.mem_append.mp h with hwhole | hrest
      · exact .inl (List.mem_of_mem_take hwhole)
      · rcases List.mem_cons.mp hrest with rfl | hplaces
        · exact .inr (.inr rfl)
        · exact .inl (List.mem_of_mem_drop hplaces)
    next =>
      simp only [List.cons_append, List.mem_cons, List.mem_append] at h
      rcases h with rfl | rfl | hzero | hdigit
      · exact .inr (.inl rfl)
      · exact .inr (.inr rfl)
      · exact .inr (.inl (List.eq_of_mem_replicate hzero))
      · exact .inl hdigit

/-- A sign brings no other character than a minus. -/
theorem mem_signed {c : Char} {negative : Bool} {body : List Char} (h : c ∈ (signed negative body).toList) :
    c = '-' ∨ c ∈ body := by
  rw [signed, String.toList_ofList] at h
  split at h
  next => exact List.mem_cons.mp h
  next => exact .inr h

/-- The places of a number are digits. -/
theorem exists_digit_of_form {tie : Tie} {x : Float} {negative : Bool} {digits : List Char} {power : Int}
    (h : form tie x = .finite negative digits power) : ∀ c ∈ digits, ∃ d, Text.digit? c = some d := by
  unfold form at h
  dsimp only at h
  -- what is not a number, infinite or zero has no digits
  split at h
  next => cases h
  next =>
    split at h
    next => cases h
    next =>
      split at h
      next => cases h
      next =>
        cases h
        exact Text.exists_digit_of_appendDigits? (Text.appendDigits?_natDigits _)

/-- The letter `u` is in the text of no number. -/
theorem not_mem_plainText (x : Float) : 'u' ∉ (plainText x).toList := by
  intro h
  unfold plainText at h
  split at h
  next => revert h; decide
  next => exact absurd (mem_signed h) (by decide)
  next => exact absurd (mem_signed h) (by decide)
  next hform =>
    rcases mem_signed h with hsign | hbody
    · exact absurd hsign (by decide)
    · rcases mem_positional hbody with hdigit | hzero | hpoint
      · obtain ⟨d, hd⟩ := exists_digit_of_form hform _ hdigit
        cases hd
      · exact absurd hzero (by decide)
      · exact absurd hpoint (by decide)

end Binary64

/-- The text of a value has a digit, so it is not the word for a missing one. -/
theorem valueText_ne_undefinedText (x : Float) : valueText x ≠ undefinedText := by
  unfold valueText
  split
  next => decide
  next =>
    intro h
    have hletter : 'u' ∈ (Binary64.plainText x).toList := by rw [h]; decide
    exact Binary64.not_mem_plainText x hletter

/-- `undefined` stands for a missing value only. -/
theorem optionalText_eq_undefinedText_iff {x : Option Float} : optionalText x = undefinedText ↔ x = none := by
  cases x with
  | none => exact ⟨fun _ => rfl, fun _ => rfl⟩
  | some x => exact ⟨fun h => absurd h (valueText_ne_undefinedText x), nofun⟩

namespace ParamSpec

variable (spec : ParamSpec) (p : ParamSet)

/-- The text of a parameter's value in a set. -/
def textIn : String := optionalText (spec.bind p).value

/-- The name of a parameter and its value. -/
def settingIn : String := s!"{spec.name} = {spec.textIn p}"

end ParamSpec

/-- The keys of a set. -/
def ParamSet.keys (p : ParamSet) : List String := p.entries.map Prod.fst

theorem ParamSet.get?_eq_none_iff {p : ParamSet} {key : String} : p.get? key = none ↔ key ∉ p.keys := by
  simp only [Option.eq_none_iff_forall_ne_some, ne_eq, get?_eq_some_iff, keys, List.mem_map, Prod.exists,
    exists_and_right, exists_eq_right, not_exists]

/-- A parameter that has none of its spellings in a set. -/
def ParamSpec.AbsentFrom (spec : ParamSpec) (p : ParamSet) : Prop := ∀ key ∈ spec.keys, key ∉ p.keys

instance (spec : ParamSpec) (p : ParamSet) : Decidable (spec.AbsentFrom p) :=
  inferInstanceAs (Decidable (∀ key ∈ spec.keys, key ∉ p.keys))

namespace ParamSpec

variable {spec : ParamSpec} {p : ParamSet}

/-- A parameter has no value exactly if no spelling of it is stored. -/
theorem value_bind_eq_none_iff : (spec.bind p).value = none ↔ spec.AbsentFrom p := by
  simp only [bind, AbsentFrom, List.findSome?_eq_none_iff, ParamSet.get?_eq_none_iff]

theorem textIn_eq_undefinedText_iff : spec.textIn p = undefinedText ↔ spec.AbsentFrom p :=
  optionalText_eq_undefinedText_iff.trans value_bind_eq_none_iff

end ParamSpec

/-! ## Sentences -/

/-- Two lists of texts in turn, and what is left of the longer one. -/
def interleave : List String → List String → String
  | text :: texts, setting :: settings => text ++ (setting ++ interleave texts settings)
  | texts, [] => String.join texts
  | [], settings => String.join settings

/-- The sentence of an indicator without its parameters. -/
def IndicatorKind.sentence : IndicatorKind → List String
  | rsi => ["Compute RSI over ", " closes and compare it to the ", " / ", " levels."]
  | bollingerBands => ["Compute Bollinger Bands with ", " and ", "."]
  | macd => ["Compute MACD with ", ", ", " and ", "."]
  | emaCrossover => ["Track two EMAs of close: ", " and ", "."]
  | stochastic => ["Compute the stochastic oscillator over ", " with ", " / ", " zones."]
  | atrMeanReversion => ["Build ATR bands around a moving average with ", ", ", " and ", "."]
  | vwap => ["Compute a rolling VWAP over ", " candles."]
  | obv => ["Accumulate on-balance volume and smooth it with ", "."]
  | williamsR => ["Compute Williams %R over ", " with ", " / ", " levels."]
  | adx => ["Measure trend strength with ADX over ", ", traded only above ", "."]
  | gabagool =>
    ["Synthesize a YES/NO binary market from each candle and buy both sides when ", ", using ", " and ", "."]

/-- The sentence names the roles of the indicator one by one. -/
theorem ComponentParams.setup_eq (c : ComponentParams) (kind : IndicatorKind) :
    c.setup kind = interleave kind.sentence (kind.roles.map c.setting) := by
  have htext (text : String) : toString text = text := rfl
  -- unfolded before the cases, as the equations of so many long texts are slow to make
  unfold setup
  cases kind <;>
    simp only [IndicatorKind.sentence, IndicatorKind.roles, List.map_cons, List.map_nil, interleave, String.append_assoc,
      htext, String.join_cons, String.join_nil, String.append_empty]

/-- The setting of a role is that of the parameter with the role. -/
theorem Component.setting_bind {c : Component} (hnodup : (c.params.map ParamSpec.role).Nodup) (p : ParamSet)
    {spec : ParamSpec} (hspec : spec ∈ c.params) : (c.bind p).setting spec.role = spec.settingIn p := by
  have hentry := Variant.entry?_bind hnodup p hspec
  simp only [ComponentParams.setting, ComponentParams.name, ComponentParams.valueOf, ComponentParams.get?, hentry]
  rfl

/-- **A sentence has the settings of all parameters**, in the order of the schema. -/
theorem Variant.setup_bind {v : Variant} (hv : v ∈ all) (p : ParamSet) {c : Component}
    (hc : c ∈ v.components) :
    (c.bind p).setup c.indicator =
      interleave c.indicator.sentence (c.params.map fun spec => spec.settingIn p) := by
  have hroles := roles_eq hv hc
  have hnodup : (c.params.map ParamSpec.role).Nodup := hroles ▸ nodup_roles c.indicator
  rw [ComponentParams.setup_eq, ← hroles, List.map_map]
  exact congrArg _ (List.map_congr_left fun spec hspec => c.setting_bind hnodup p hspec)

end BotSpec
