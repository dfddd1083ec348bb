/-!
# Documents

A document has a heading, warnings below it, and numbered sections. A section is a list of blocks,
and each block is a run of lines. `Document.text` writes all lines, each with a line break behind
it.
-/

namespace BotSpec

/-- A part of a section. -/
inductive Block where
  | line (text : String)
  | subheading (text : String)
  | bullets (items : List String)
  /-- Items counted from one. -/
  | steps (items : List String)
  /-- An empty line. -/
  | gap
  deriving DecidableEq

/-- The lines of a block. -/
def Block.lines : Block → List String
  | line text => [text]
  | subheading text => ["### " ++ text]
  | bullets items => items.map fun item => "- " ++ item
  | steps items => items.mapIdx fun i item => s!"{i + 1}. {item}"
  | gap => [""]

structure Section where
  title : String
  blocks : List Block
  deriving DecidableEq

/-- The heading of a section with its number. -/
def Section.heading (s : Section) (number : Nat) : String := s!"## {number}. {s.title}"

/-- The lines of a section with its number. -/
def Section.lines (s : Section) (number : Nat) : List String :=
  "" :: s.heading number :: "" :: s.blocks.flatMap Block.lines

structure Document where
  heading : String
  warnings : List String
  sections : List Section
  deriving DecidableEq

namespace Document

/-- The warnings below an empty line; without warnings there is no such line. -/
def warningLines (d : Document) : List String :=
  if d.warnings = [] then [] else "" :: d.warnings.map fun w => "> warning: " ++ w

/-- All lines; sections are counted from one. -/
def lines (d : Document) : List String :=
  ("# " ++ d.heading) :: d.warningLines ++
    (d.sections.mapIdx fun i s => s.lines (i + 1)).flatten

def text (d : Document) : String := String.join (d.lines.map fun l => l ++ "\n")

end Document

end BotSpec
