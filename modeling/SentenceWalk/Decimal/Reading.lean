namespace SentenceWalk.Decimal

def digitValue (c : Char) : Nat :=
  c.toNat - '0'.toNat

/-- The number that a run of decimal digits continues `start` to. -/
def natFrom (start : Nat) (digits : List Char) : Nat :=
  digits.foldl (fun n c => 10 * n + digitValue c) start

/-- The float nearest to `digits * 10 ^ power`. Powers beyond every finite float are not worked
out. -/
def nearest (digits : Nat) (power : Int) : Float :=
  let size := power + (toString digits).length
  if digits = 0 ∨ size < -400 then 0
  else if 400 < size then Float.ofBits 0x7ff0000000000000
  else Float.ofScientific digits (decide (power < 0)) power.natAbs

def takeSign : List Char → Bool × List Char
  | '-' :: rest => (true, rest)
  | '+' :: rest => (false, rest)
  | text => (false, text)

def readExponent? : List Char → Option Int
  | [] => some 0
  | mark :: text =>
    let (negative, digits) := takeSign text
    if (mark == 'e' || mark == 'E') && !digits.isEmpty && digits.all Char.isDigit then
      let size : Int := natFrom 0 digits
      some (if negative then -size else size)
    else none

/-- A decimal number: a sign, digits with a point anywhere among or beside them, an exponent. Only
the digits are required. -/
def read? (text : List Char) : Option Float :=
  let (negative, text) := takeSign text
  let whole := text.takeWhile Char.isDigit
  let rest := text.dropWhile Char.isDigit
  let (fraction, rest) :=
    match rest with
    | '.' :: more => (more.takeWhile Char.isDigit, more.dropWhile Char.isDigit)
    | _ => ([], rest)
  if whole.isEmpty && fraction.isEmpty then none
  else
    (readExponent? rest).map fun exponent =>
      let size := nearest (natFrom (natFrom 0 whole) fraction) (exponent - fraction.length)
      if negative then -size else size

end SentenceWalk.Decimal
