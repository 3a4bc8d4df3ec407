namespace SentenceWalk.Decimal

/-- A positive number `mantissa * 2 ^ exponent` with the exponent that its format stores. -/
structure Binary where
  mantissa : Nat
  exponent : Int

/-- The first bit of a mantissa, which is not stored. -/
def leadingBit : Nat := 1 <<< 52

def Binary.ofFloat (x : Float) : Binary :=
  let fraction := (x.toBits &&& 0x000fffffffffffff).toNat
  let exponent := ((x.toBits >>> 52) &&& 0x7ff).toNat
  if exponent = 0 then ⟨fraction, -1074⟩ else ⟨fraction + leadingBit, exponent - 1075⟩

/-- The power of ten as a fraction in units of `2 ^ unit`. -/
def gridStep (power unit : Int) : Nat × Nat :=
  (Nat.pow 10 power.toNat <<< (-unit).toNat, Nat.pow 10 (-power).toNat <<< unit.toNat)

/-- The multiple of `10 ^ power` that reads back as the number, the nearest one if there are
several and the larger one of two that are equally near. -/
def Binary.onGrid? (x : Binary) (power : Int) : Option Nat :=
  -- The number lies at `4 * mantissa`, in units of a quarter of its last place.
  let middle := 4 * x.mantissa
  let (num, den) := gridStep power (x.exponent - 2)
  let belowGap := if x.mantissa = leadingBit ∧ x.exponent ≠ -1074 then 1 else 2
  let readsBack (digits : Nat) : Bool :=
    let point := digits * num
    let low := (middle - belowGap) * den
    let high := (middle + 2) * den
    0 < digits && (if x.mantissa % 2 = 0 then low ≤ point && point ≤ high
      else low < point && point < high)
  let down := middle * den / num
  let up := down + 1
  let upIsNearer := (up * num - middle * den) ≤ (middle * den - down * num)
  match readsBack down, readsBack up with
  | true, true => some (if upIsNearer then up else down)
  | true, false => some down
  | false, true => some up
  | false, false => none

/-- The digits and the power of ten of the shortest decimal, on the coarsest of the grids from
`10 ^ power` on, `grids` in number. -/
def Binary.shortestFrom (x : Binary) (power : Int) : Nat → Nat × Int
  | 0 => (0, 0)
  | grids + 1 =>
    match x.onGrid? power with
    | some digits => (digits, power)
    | none => x.shortestFrom (power - 1) grids

def Binary.shortest (x : Binary) : Nat × Int :=
  if x.mantissa = 0 then (0, 0) else x.shortestFrom 308 640

def positional (digits : Nat) (power : Int) : String :=
  let whole := toString digits
  if 0 ≤ power then
    if digits = 0 then whole else whole ++ String.ofList (List.replicate power.toNat '0')
  else
    let places := (-power).toNat
    let padded := List.replicate (places + 1 - whole.length) '0' ++ whole.toList
    let split := padded.length - places
    String.ofList (padded.take split) ++ "." ++ String.ofList (padded.drop split)

/-- The text of a number: the fewest digits that read back as it, never an exponent. -/
def render (x : Float) : String :=
  if x.isNaN then "NaN"
  else
    let sign := if x.toBits ≥ 0x8000000000000000 then "-" else ""
    if x.isInf then sign ++ "inf"
    else
      let (digits, power) := (Binary.ofFloat x).shortest
      sign ++ positional digits power

end SentenceWalk.Decimal
