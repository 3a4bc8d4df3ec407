import SentenceWalk.Lexicon
import SentenceWalk.Table

namespace SentenceWalk.Lexicon

def columns : List String :=
  ["name", "pos", "spec", "plural", "nextwords", "nextcats", "special"]

/-- Whether words can be read under a header: it names what is required, and no column twice. -/
def isHeader (header : List String) : Bool :=
  header.contains "name" && header.contains "pos" &&
    columns.all fun column => header.count column ≤ 1

/-- The field of a row in a column. It is empty where the row or the header has none. -/
def field (header row : List String) (column : String) : String :=
  ((header.zip row).lookup column).getD ""

def itemsOf (field : String) : List String :=
  (Text.words field.toList).map String.ofList

def wordOfRow (header row : List String) : Word :=
  let field := field header row
  let plural := field "plural"
  { name := field "name"
    tag := field "pos"
    categories := itemsOf (field "spec")
    plural := if plural.isEmpty then none else some plural
    nextWords := itemsOf (field "nextwords")
    nextCategories := itemsOf (field "nextcats")
    flags := itemsOf (field "special") }

def wordsOfRows (header : List String) (number : Nat) :
    List (List String) → Except LexiconError (List Word)
  | [] => .ok []
  | row :: rows =>
    let word := wordOfRow header row
    if !isHeader header then .error .brokenTable
    else if word.name.isEmpty || word.tag.isEmpty then .error (.emptyField number)
    else (wordsOfRows header (number + 1) rows).map (word :: ·)

def ofTable (table : Table) : Except LexiconError Lexicon := do
  let words ← wordsOfRows (table.rows.headD []) 1 table.rows.tail
  if table.broken then .error .brokenTable else ofWords words

def ofText (text : List Char) : Except LexiconError Lexicon :=
  ofTable (Table.ofText text)

end SentenceWalk.Lexicon
