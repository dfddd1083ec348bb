import BotSpec.Knowledge.Numeral
import BotSpec.Text.Number
import BotSpec.Text.Utf8

/-!
# Cells of the table

A column keeps the value given for it in its own way. A text column writes numbers out. A column of
counts reads the numerals among texts, however they are written (`12`, `12.0` and `1.2e1` are the
same count), and keeps any other text as it is. Bytes that are no text are kept as they are by both.

So a column does not always hold what its kind says: in SQLite a kind is a preference for one form
and no type. The table does not refuse such a value, but a reader who asks for the text or the count
of a column finds a `Misfit`. A number that is no count (`fraction`) has lost its digits here, since
no answer shows them.
-/

namespace BotSpec

/-- A value of a column. -/
inductive Cell where
  | null
  | whole (value : Int)
  /-- A number that is no whole number of 64 bits. -/
  | fraction
  | text (value : String)
  /-- A text whose bytes are not UTF-8. -/
  | illFormed (bytes : List UInt8)
  /-- Bytes that are no text. -/
  | blob (bytes : List UInt8)
  deriving DecidableEq

/-- A text in a column of counts: a number if it is a numeral. -/
def Cell.ofNumeral (text : String) : Cell :=
  match Numeral.ofText? text with
  | none => .text text
  | some n =>
    match n.whole? with
    | some value => .whole value
    | none => .fraction

/-- A kind of value in the table. -/
inductive ValueKind where
  | whole
  | fraction
  | text
  | blob
  deriving DecidableEq

/-- The name of a kind of value. -/
def ValueKind.name : ValueKind → String
  | .whole => "INTEGER"
  | .fraction => "REAL"
  | .text => "TEXT"
  | .blob => "BLOB"

/-! ## Values that are held -/

/-- What a column of texts holds. -/
inductive StoredText where
  | text (value : String)
  | illFormed (bytes : List UInt8)
  | blob (bytes : List UInt8)
  deriving DecidableEq

/-- What a column of counts holds. -/
inductive StoredCount where
  | count (value : Int)
  /-- A value of another kind, which is neither a whole number nor null. -/
  | other (held : ValueKind)
  deriving DecidableEq

/-- A value of a column of texts. Null is none, and numbers are written out before. -/
def Cell.storedText? : Cell → Option StoredText
  | .text value => some (.text value)
  | .illFormed bytes => some (.illFormed bytes)
  | .blob bytes => some (.blob bytes)
  | _ => none

/-- A value of a column of counts, unless it is null. -/
def Cell.storedCount? : Cell → Option StoredCount
  | .null => none
  | .whole value => some (.count value)
  | .fraction => some (.other .fraction)
  | .text _ => some (.other .text)
  | .illFormed _ => some (.other .text)
  | .blob _ => some (.other .blob)

/-- The characters of a value in a column of texts. Bytes that are not UTF-8 are taken one by one. -/
def StoredText.chars : StoredText → List Char
  | text value => value.toList
  | illFormed bytes => bytes.map fun b => Char.ofNat b.toNat
  | blob bytes => bytes.map fun b => Char.ofNat b.toNat

/-! ## Reading -/

/-- A column holds something else than what is asked for. -/
inductive Misfit where
  /-- A value of another kind than that of the column. -/
  | kind (column : String) (counts optional : Bool) (held : ValueKind)
  /-- A text that is not UTF-8. -/
  | encoding (column : String) (fault : Text.Utf8Fault)
  deriving DecidableEq

/-- What is said of a column that cannot be read. -/
def Misfit.message : Misfit → String
  | kind column counts optional held =>
    let type := if counts then "i64" else "alloc::string::String"
    let wanted := if optional then s!"core::option::Option<{type}>" else type
    let kind := if counts then ValueKind.whole else .text
    s!"error occurred while decoding column \"{column}\": mismatched types; Rust type `{wanted}` (as SQL type `{kind.name}`) is not compatible with SQL type `{held.name}`"
  | encoding column fault => s!"error occurred while decoding column \"{column}\": {fault.message}"

/-- The text in a column. -/
def StoredText.read (column : String) (optional : Bool) : StoredText → Except Misfit String
  | text value => .ok value
  | illFormed bytes => .error (.encoding column (Text.utf8Fault bytes))
  | blob _ => .error (.kind column false optional .blob)

/-- The count in a column. -/
def StoredCount.read (column : String) (optional : Bool) : StoredCount → Except Misfit Int
  | count value => .ok value
  | other held => .error (.kind column true optional held)

end BotSpec
