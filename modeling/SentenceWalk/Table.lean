import SentenceWalk.Text.Blank

/-!
Tables of text: rows of fields with semicolons between them. A field that begins with a quote may
hold semicolons and line ends. Lines without a character are no rows, and the blanks around a field
do not belong to it.
-/

namespace SentenceWalk

/-- The rows of a table that could be read, and whether it is broken behind them. -/
structure Table where
  rows : List (List String)
  broken : Bool := false
  deriving DecidableEq, Repr

namespace Table

inductive Place where
  | lineStart
  | fieldStart
  | plain
  | quoted
  /-- Behind a quote in a quoted field, which may end it. -/
  | quote
  deriving DecidableEq

/-- The symbols that give a table its form, in whatever its text is written. -/
structure Marks (α : Type) where
  quote : α
  separator : α
  lineFeed : α
  carriageReturn : α

def Marks.ofChar : Marks Char :=
  ⟨'"', ';', '\n', '\r'⟩

def Marks.ofByte : Marks UInt8 :=
  ⟨0x22, 0x3b, 0x0a, 0x0d⟩

/-- The fields of a row whose last one is `field`. Both are read in reverse. -/
def closeRow {α : Type} (fields : List (List α)) (field : List α) : List (List α) :=
  (field.reverse :: fields).reverse

def rowsFrom {α : Type} [DecidableEq α] (marks : Marks α) (place : Place) (fields : List (List α))
    (field : List α) : List α → List (List (List α))
  | [] => if place = .lineStart then [] else [closeRow fields field]
  | c :: rest =>
    if place = .quoted then
      if c = marks.quote then rowsFrom marks .quote fields field rest
      else rowsFrom marks .quoted fields (c :: field) rest
    else if c = marks.lineFeed ∨ c = marks.carriageReturn then
      if place = .lineStart then rowsFrom marks .lineStart [] [] rest
      else closeRow fields field :: rowsFrom marks .lineStart [] [] rest
    else if c = marks.separator then rowsFrom marks .fieldStart (field.reverse :: fields) [] rest
    else if c = marks.quote ∧ place ≠ .plain then
      rowsFrom marks .quoted fields (if place = .quote then c :: field else field) rest
    else rowsFrom marks .plain fields (c :: field) rest

def rawRows {α : Type} [DecidableEq α] (marks : Marks α) (text : List α) : List (List (List α)) :=
  rowsFrom marks .lineStart [] [] text

/-- The text without the mark that it may begin with to show its encoding. -/
def dropByteOrderMark : List Char → List Char
  | '\ufeff' :: rest => rest
  | text => text

def ofText (text : List Char) : Table where
  rows := (rawRows .ofChar (dropByteOrderMark text)).map
    (·.map fun field => String.ofList (Text.trim field))

def dropEncodedMark : List UInt8 → List UInt8
  | 0xef :: 0xbb :: 0xbf :: rest => rest
  | bytes => bytes

def decodeField? (bytes : List UInt8) : Option String :=
  (String.fromUTF8? ⟨bytes.toArray⟩).map fun field => String.ofList (Text.trim field.toList)

/-- The table of encoded rows, which is broken at the first one with a field that is no text. -/
def decodeRows : List (List (List UInt8)) → Table
  | [] => { rows := [] }
  | row :: rows =>
    match row.mapM decodeField? with
    | some fields =>
      let table := decodeRows rows
      { table with rows := fields :: table.rows }
    | none => { rows := [], broken := true }

/-- The table in a file, whose form is found before its fields are decoded. -/
def ofBytes (bytes : ByteArray) : Table :=
  decodeRows (rawRows .ofByte (dropEncodedMark bytes.toList))

def unreadable : Table :=
  { rows := [], broken := true }

end Table

end SentenceWalk
