import BotSpec.Storage.Record

/-!
# Trees of pages

A database file is cut into pages of one size, counted from one. A table is a tree of pages: an
inner page lists pages, and a leaf lists records under their row numbers. A record that is too long
for its leaf goes on in a chain of pages.

This is the file format of SQLite, as far as reading a table needs it: indexes are passed over, and
nothing here writes. What an insert does is said of the table (`KnowledgeBase.insert`).
-/

namespace BotSpec.Storage

/-- A database file. -/
structure Pages where
  bytes : ByteArray
  size : Nat
  /-- How many bytes of each page hold data. -/
  usable : Nat

namespace Pages

/-- The bytes that every database file starts with. -/
def magic : List Nat := "SQLite format 3\x00".toList.map Char.toNat

/-- The file in some bytes, if they have its form. -/
def ofBytes? (bytes : ByteArray) : Option Pages :=
  if (List.range 16).map (byteAt bytes) = magic then
    let stored := natAt bytes 16 2
    let size := if stored = 1 then 65536 else stored
    if 512 ≤ size then some ⟨bytes, size, size - byteAt bytes 20⟩ else none
  else none

/-- How many pages there are. -/
def count (p : Pages) : Nat := p.bytes.size / p.size

/-- Where a page starts. -/
def start (p : Pages) (page : Nat) : Nat := (page - 1) * p.size

/-- Where the head of a page starts: the first page has the head of the file before it. -/
def head (p : Pages) (page : Nat) : Nat := p.start page + if page = 1 then 100 else 0

/-- The bytes of a chain of pages, at most so many of each. -/
def chain (p : Pages) : Nat → Nat → Nat → ByteArray
  | 0, _, _ => .empty
  | left + 1, page, length =>
    if page = 0 ∨ length = 0 then .empty
    else
      let at_ := p.start page
      let here := min length (p.usable - 4)
      p.bytes.extract (at_ + 4) (at_ + 4 + here) ++
        p.chain left (natAt p.bytes at_ 4) (length - here)

/-- How many bytes of a record of a length stand in its leaf. -/
def localLength (p : Pages) (length : Nat) : Nat :=
  if length + 35 ≤ p.usable then length
  else
    let least := (p.usable - 12) * 32 / 255 - 23
    let more := least + (length - least) % (p.usable - 4)
    if more + 35 ≤ p.usable then more else least

/-- The row number and the record of a cell of a leaf. -/
def leafCell (p : Pages) (at_ : Nat) : Int × List Value :=
  let (length, next) := varNatAt p.bytes at_
  let (row, body) := varNatAt p.bytes next
  let here := p.localLength length
  let payload := p.bytes.extract body (body + here)
  let whole :=
    if here = length then payload
    else payload ++ p.chain p.count (natAt p.bytes (body + here) 4) (length - here)
  (signed 64 row, recordValues whole)

/-- Where the cells of a page are, behind a head of some length. -/
def cells (p : Pages) (page headLength : Nat) : List Nat :=
  let head := p.head page
  (List.range (natAt p.bytes (head + 3) 2)).map fun i =>
    p.start page + natAt p.bytes (head + headLength + 2 * i) 2

/-- The kinds of a page. -/
def innerKind : Nat := 5
def leafKind : Nat := 13

/-- The records below a page of a tree of at most some depth, in the order of their row numbers. -/
def rowsBelow (p : Pages) : Nat → Nat → List (Int × List Value)
  | 0, _ => []
  | depth + 1, page =>
    let head := p.head page
    let kind := byteAt p.bytes head
    if kind = leafKind then (p.cells page 8).map p.leafCell
    else if kind = innerKind then
      let children := (p.cells page 12).map fun c => natAt p.bytes c 4
      (children ++ [natAt p.bytes (head + 8) 4]).flatMap fun child => p.rowsBelow depth child
    else []

/-- The greatest depth of a tree. -/
def greatestDepth : Nat := 20

/-- The records of the table whose tree starts at a page. -/
def rows (p : Pages) (root : Nat) : List (Int × List Value) := p.rowsBelow greatestDepth root

end Pages

end BotSpec.Storage
