import SentenceWalk.Decimal.Reading

/-!
The words of RON: blanks and comments, identifiers, strings and numbers. A reader takes what it
reads off the front of the text and fails with `none`.
-/

namespace SentenceWalk.Ron

abbrev Reader (α : Type) := List Char → Option (α × List Char)

/-! ### Blanks and comments -/

inductive Gap where
  | blank
  | line
  /-- In a block comment, inside this many more. -/
  | block (outer : Nat)

/-- The text behind the blanks and comments that it begins with. A comment in a block may hold
others, and has to be closed. -/
def skipGap : Gap → List Char → Option (List Char)
  | .block 0, '*' :: '/' :: rest => skipGap .blank rest
  | .block (outer + 1), '*' :: '/' :: rest => skipGap (.block outer) rest
  | .block outer, '/' :: '*' :: rest => skipGap (.block (outer + 1)) rest
  | .block outer, _ :: rest => skipGap (.block outer) rest
  | .block _, [] => none
  | .line, '\n' :: rest => skipGap .blank rest
  | .line, _ :: rest => skipGap .line rest
  | .line, [] => some []
  | .blank, '/' :: '/' :: rest => skipGap .line rest
  | .blank, '/' :: '*' :: rest => skipGap (.block 0) rest
  | .blank, '/' :: _ => none
  | .blank, c :: rest =>
    if c == ' ' || c == '\t' || c == '\n' || c == '\r' then skipGap .blank rest
    else some (c :: rest)
  | .blank, [] => some []

def skipBlank (text : List Char) : Option (List Char) :=
  skipGap .blank text

/-! ### Marks and identifiers -/

def behind (start text : List Char) : Option (List Char) :=
  if start.isPrefixOf text then some (text.drop start.length) else none

def takeMark (mark : String) (text : List Char) : Option (List Char) :=
  behind mark.toList text

def takeComma : Reader Bool := fun text => do
  let text ← skipBlank text
  match text with
  | ',' :: rest => return (true, ← skipBlank rest)
  | _ => return (false, text)

def isLetter (c : Char) : Bool :=
  c.isAlpha || c == '_'

def isIdentifierChar (c : Char) : Bool :=
  c.isAlphanum || c == '_'

/-- Raw identifiers may also hold points and signs. -/
def isRawIdentifierChar (c : Char) : Bool :=
  isIdentifierChar c || c == '.' || c == '+' || c == '-'

/-- The text behind the word `word`, which must not go on as a longer identifier. -/
def takeWord (word : String) (text : List Char) : Option (List Char) := do
  let rest ← takeMark word text
  if rest.head?.any isIdentifierChar then none else return rest

def identifier : Reader String := fun text =>
  let raw := text.takeWhile isRawIdentifierChar
  let plain := text.takeWhile isIdentifierChar
  let take (name rest : List Char) := some (String.ofList name, rest)
  match text with
  | 'r' :: [] => none
  | 'r' :: '"' :: _ => none
  | 'r' :: '#' :: rest =>
    let name := rest.takeWhile isRawIdentifierChar
    if name.isEmpty then none else take name (rest.drop name.length)
  | c :: _ =>
    if isLetter c && raw.length == plain.length then take plain (text.drop plain.length) else none
  | [] => none

/-! ### Strings and characters -/

def hexValue? (c : Char) : Option Nat :=
  if c.isDigit then some (c.toNat - '0'.toNat)
  else if 'a' ≤ c && c ≤ 'f' then some (c.toNat - 'a'.toNat + 10)
  else if 'A' ≤ c && c ≤ 'F' then some (c.toNat - 'A'.toNat + 10)
  else none

def hexNumber? (digits : List Char) : Option Nat :=
  digits.foldlM (fun n c => (hexValue? c).map (16 * n + ·)) 0

def escaped : Reader Char
  | '\'' :: rest => some ('\'', rest)
  | '"' :: rest => some ('"', rest)
  | '\\' :: rest => some ('\\', rest)
  | 'n' :: rest => some ('\n', rest)
  | 'r' :: rest => some ('\r', rest)
  | 't' :: rest => some ('\t', rest)
  | '0' :: rest => some ('\x00', rest)
  | 'x' :: high :: low :: rest => do
    let code ← hexNumber? [high, low]
    return (Char.ofNat code, rest)
  | 'u' :: '\x7b' :: rest => do
    let digits := (rest.take 6).takeWhile (· != '\x7d')
    let code ← hexNumber? digits
    if digits.isEmpty then none
    else if code.isValidChar then
      return (Char.ofNat code, ← takeMark "\x7d" (rest.drop digits.length))
    else none
  | _ => none

/-- The rest of a string behind its opening quote, in front of which `start` has been read. -/
def quotedFrom (start : List Char) (text : List Char) : Option (List Char × List Char) :=
  match text with
  | [] => none
  | '"' :: rest => some (start.reverse, rest)
  | '\\' :: rest =>
    match escaped rest with
    | some (c, more) =>
      if more.length < rest.length then quotedFrom (c :: start) more else none
    | none => none
  | c :: rest => quotedFrom (c :: start) rest
termination_by text.length

/-- The rest of a raw string, which a quote and the given marks end. -/
def rawFrom (marks : List Char) (start : List Char) : List Char → Option (List Char × List Char)
  | [] => none
  | c :: rest =>
    match (if c == '"' then behind marks rest else none) with
    | some more => some (start.reverse, more)
    | none => rawFrom marks (c :: start) rest

def string : Reader String
  | '"' :: rest => (quotedFrom [] rest).map fun (name, rest) => (String.ofList name, rest)
  | 'r' :: rest =>
    let marks := rest.takeWhile (· == '#')
    match rest.drop marks.length with
    | '"' :: more => (rawFrom marks [] more).map fun (name, rest) => (String.ofList name, rest)
    | _ => none
  | _ => none

def character : Reader Char
  | '\'' :: '\\' :: rest => do
    let (c, rest) ← escaped rest
    return (c, ← takeMark "'" rest)
  | '\'' :: c :: '\'' :: rest => if c == '\'' then none else some (c, rest)
  | _ => none

/-! ### Numbers -/

def isFloatChar (c : Char) : Bool :=
  c.isDigit || c == 'e' || c == 'E' || c == '.' || c == '+' || c == '-' || c == '_'

def isIntegerChar (c : Char) : Bool :=
  (hexValue? c).isSome || c == '_'

def specialFloats : List (String × Float) :=
  let infinity : Float := Float.ofBits 0x7ff0000000000000
  let undefined : Float := Float.ofBits 0x7ff8000000000000
  [("inf", infinity), ("+inf", infinity), ("-inf", -infinity),
    ("NaN", undefined), ("+NaN", undefined), ("-NaN", undefined)]

/-- A float, whose digits must not be grouped. -/
def float : Reader Float := fun text =>
  match specialFloats.findSome? fun (word, value) =>
      (takeWord word text).map fun rest => (value, rest) with
  | some read => some read
  | none =>
    let digits := text.takeWhile isFloatChar
    (Decimal.read? digits).map fun value => (value, text.drop digits.length)

def takeBase : List Char → Nat × List Char
  | '0' :: 'x' :: rest => (16, rest)
  | '0' :: 'b' :: rest => (2, rest)
  | '0' :: 'o' :: rest => (8, rest)
  | text => (10, text)

/-- A number without a sign, whose digits may be grouped by `_`. -/
def unsigned : Reader Nat := fun text => do
  let (base, text) := takeBase text
  let digits := text.takeWhile isIntegerChar
  if digits.isEmpty || digits.head? == some '_' then none
  else
    let value ← (digits.filter (· != '_')).foldlM
      (fun n c => do
        let digit ← hexValue? c
        if digit < base then return base * n + digit else none)
      0
    return (value, text.drop digits.length)

def unsignedBelow (limit : Nat) : Reader Nat := fun text => do
  let (value, rest) ← unsigned text
  if value < limit then return (value, rest) else none

def skipInteger : List Char → Option (List Char)
  | '-' :: digits => (unsignedBelow (UInt64.size / 2 + 1) digits).map Prod.snd
  | '+' :: digits => (unsignedBelow (UInt64.size / 2) digits).map Prod.snd
  | digits => (unsignedBelow UInt64.size digits).map Prod.snd

/-- The text behind a number of any kind: a float if that reaches further than an integer, else an
integer, and a float once more if it is none. -/
def skipNumber (text : List Char) : Option (List Char) :=
  let (_, digits) := Decimal.takeSign text
  let floatLength := (digits.takeWhile isFloatChar).length
  let integerLength := (digits.takeWhile isIntegerChar).length
  let asFloat := (float text).map Prod.snd
  if integerLength < floatLength then asFloat else skipInteger text <|> asFloat

end SentenceWalk.Ron
