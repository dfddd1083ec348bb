import BotSpec.Indicator.Arith

/-!
# The extreme of the last numbers

A ring of slots holds the last numbers; an empty slot counts beyond every number. The place of the
extreme is remembered and searched for again only when its own slot is overwritten by a number that
is not more extreme. `reset` empties the slots and keeps both places.
-/

namespace BotSpec.Indicator

variable {α : Type} [Arith α]

/-- Which extreme is kept. -/
inductive Side where
  | highest
  | lowest
  deriving DecidableEq

/-- Whether `a` is strictly more extreme than `b`. -/
def Side.beats (side : Side) (a b : α) : Bool :=
  match side with
  | .highest => b < a
  | .lowest => a < b

/-- Whether one slot is strictly more extreme than another; a number beats an empty slot. -/
def Side.slotBeats (side : Side) : Option α → Option α → Bool
  | some a, some b => side.beats a b
  | some _, none => true
  | none, _ => false

structure Extremum (α : Type) where
  side : Side
  slots : List (Option α)
  /-- Where the next number goes. -/
  cursor : Nat
  /-- Where the extreme is. -/
  best : Nat

namespace Extremum

def start (side : Side) (period : Nat) : Extremum α := ⟨side, List.replicate period none, 0, 0⟩

def start? (side : Side) (period : Nat) : Option (Extremum α) :=
  if period = 0 then none else some (start side period)

/-- The slot at a place. -/
def slot (slots : List (Option α)) (place : Nat) : Option α := slots.getD place none

/-- The first place with the most extreme slot among the slots from `place` on, where `bestPlace`
and `best` are the best so far. -/
def search (side : Side) (place bestPlace : Nat) (best : Option α) : List (Option α) → Nat
  | [] => bestPlace
  | s :: rest =>
    if side.slotBeats s best then search side (place + 1) place s rest
    else search side (place + 1) bestPlace best rest

/-- Takes a number and gives the extreme after it. -/
def next (e : Extremum α) (x : α) : α × Extremum α :=
  let slots := e.slots.set e.cursor (some x)
  let best :=
    if e.side.slotBeats (some x) (slot slots e.best) then e.cursor
    else if e.best = e.cursor then search e.side 0 0 none slots
    else e.best
  let cursor := if e.cursor + 1 < slots.length then e.cursor + 1 else 0
  ((slot slots best).getD x, { e with slots, cursor, best })

/-- Empties the slots; the two places stay where they are. -/
def reset (e : Extremum α) : Extremum α := { e with slots := List.replicate e.slots.length none }

end Extremum

end BotSpec.Indicator
