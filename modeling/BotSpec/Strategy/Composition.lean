import BotSpec.Catalogue.Variant
import BotSpec.Market.Signal

/-!
# Composition of votes

How the votes of the components of a composite become one action, with a line that says why. The
number of votes must suit the mode; which votes they are never matters for that.
-/

namespace BotSpec

/-- An action and the reason for it. -/
structure Composition where
  action : Signal
  rationale : String
  deriving DecidableEq

/-- Why votes cannot be composed. -/
inductive CompositionError where
  | noVotes
  | majorityArity (count : Nat)
  | missingConfirmer (count : Nat)
  deriving DecidableEq

def CompositionError.message : CompositionError → String
  | .noVotes => "no votes to compose"
  | .majorityArity n => s!"majority composition needs exactly 3 votes, got {n}"
  | .missingConfirmer n => s!"primary/confirmer composition needs at least 2 votes, got {n}"

namespace Composition

/-- The votes between slashes. -/
def voteList (votes : List Signal) : String := "/".intercalate (votes.map Signal.text)

/-- Every component votes the same, and not to hold. -/
def unanimous (votes : List Signal) (first : Signal) : Composition :=
  if first ≠ .hold ∧ votes.all (fun v => v = first) then
    ⟨first, s!"all {votes.length} components vote {first.text}"⟩
  else ⟨.hold, s!"components disagree ({voteList votes}), no unanimous action"⟩

/-- The primary's vote stands unless a confirmer votes the opposite. Confirmers are counted from
one. -/
def confirmed (primary : Signal) (confirmers : List Signal) : Composition :=
  if primary = .hold then ⟨.hold, "primary holds"⟩
  else
    match confirmers.findIdx? fun v => v = primary.opposite with
    | some i =>
      ⟨.hold, s!"primary votes {primary.text}, vetoed by confirmer {i + 1} voting {primary.opposite.text}"⟩
    | none => ⟨primary, s!"primary votes {primary.text}, no confirmer vetoes"⟩

/-- At least two of three votes are the same. -/
def majority (votes : List Signal) : Composition :=
  let buys := votes.count .buy
  let sells := votes.count .sell
  if 2 ≤ buys then ⟨.buy, s!"{buys} of 3 vote BUY"⟩
  else if 2 ≤ sells then ⟨.sell, s!"{sells} of 3 vote SELL"⟩
  else ⟨.hold, s!"no 2-of-3 majority ({voteList votes})"⟩

/-- One action from one vote per component, the primary first. -/
def compose (mode : CompositionMode) (votes : List Signal) : Except CompositionError Composition :=
  match votes with
  | [] => .error .noVotes
  | first :: rest =>
    match mode with
    | .unanimous => .ok (unanimous votes first)
    | .primaryConfirmer =>
      if rest = [] then .error (.missingConfirmer votes.length) else .ok (confirmed first rest)
    | .majority =>
      if votes.length = 3 then .ok (majority votes) else .error (.majorityArity votes.length)

end Composition

/-- The rule of a mode in words, for the components that it joins. -/
def CompositionMode.describe (mode : CompositionMode) (components : List IndicatorKind) :
    List String :=
  let names := components.map IndicatorKind.shortName
  let joined := " and ".intercalate names
  match mode with
  | .unanimous =>
    [s!"Mode: unanimous over {joined}.",
      "BUY only when every component votes BUY on the same closed candle.",
      "SELL only when every component votes SELL on the same closed candle.",
      "Any disagreement or any HOLD vote gives HOLD.",
      "Confidence: the mean confidence of all components."]
  | .primaryConfirmer =>
    let primary := names.headD "?"
    let confirmers := ", ".intercalate (names.drop 1)
    [s!"Mode: primary {primary}, confirmed by {confirmers}.",
      s!"When {primary} votes HOLD the result is HOLD, whatever the confirmers say.",
      s!"When {primary} votes BUY the result is BUY unless a confirmer votes SELL (veto -> HOLD).",
      s!"When {primary} votes SELL the result is SELL unless a confirmer votes BUY (veto -> HOLD).",
      "A confirmer voting HOLD never vetoes.",
      s!"Confidence: the confidence of {primary}."]
  | .majority =>
    [s!"Mode: majority over {joined}.",
      "BUY when at least 2 of the 3 components vote BUY.",
      "SELL when at least 2 of the 3 components vote SELL.",
      "Otherwise HOLD.",
      "Confidence: the mean confidence of the components voting with the majority."]

end BotSpec
