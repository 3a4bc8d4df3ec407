/-!
The ChaCha block function with twelve rounds: sixteen words of keystream for a key and a block
number.
-/

namespace SentenceWalk.Random

structure Row where
  w0 : UInt32
  w1 : UInt32
  w2 : UInt32
  w3 : UInt32
  deriving DecidableEq, Repr

namespace Row

@[inline] def zipWith (f : UInt32 → UInt32 → UInt32) (x y : Row) : Row :=
  ⟨f x.w0 y.w0, f x.w1 y.w1, f x.w2 y.w2, f x.w3 y.w3⟩

/-- Turns every word left by `bits`, which lies between 1 and 31. -/
@[inline] def turn (bits : UInt32) (x : Row) : Row :=
  let turned (w : UInt32) := w <<< bits ||| w >>> (32 - bits)
  ⟨turned x.w0, turned x.w1, turned x.w2, turned x.w3⟩

@[inline] def shift (x : Row) : Row :=
  ⟨x.w1, x.w2, x.w3, x.w0⟩

instance : Add Row := ⟨zipWith (· + ·)⟩
instance : XorOp Row := ⟨zipWith (· ^^^ ·)⟩

def toList (x : Row) : List UInt32 :=
  [x.w0, x.w1, x.w2, x.w3]

end Row

structure Key where
  low : Row
  high : Row
  deriving DecidableEq, Repr

structure Block where
  a : Row
  b : Row
  c : Row
  d : Row
  deriving DecidableEq, Repr

namespace Block

@[inline] def columnRound (s : Block) : Block :=
  let a := s.a + s.b
  let d := (s.d ^^^ a).turn 16
  let c := s.c + d
  let b := (s.b ^^^ c).turn 12
  let a := a + b
  let d := (d ^^^ a).turn 8
  let c := c + d
  let b := (b ^^^ c).turn 7
  ⟨a, b, c, d⟩

def doubleRound (s : Block) : Block :=
  let s := s.columnRound
  let s := columnRound ⟨s.a, s.b.shift, s.c.shift.shift, s.d.shift.shift.shift⟩
  ⟨s.a, s.b.shift.shift.shift, s.c.shift.shift, s.d.shift⟩

/-- The input of block `index`, whose number is written low word first. -/
def input (key : Key) (index : UInt64) : Block where
  a := ⟨0x61707865, 0x3320646e, 0x79622d32, 0x6b206574⟩
  b := key.low
  c := key.high
  d := ⟨index.toUInt32, (index >>> 32).toUInt32, 0, 0⟩

def keystream (key : Key) (index : UInt64) : Block :=
  let first := input key index
  let last := Nat.repeat doubleRound 6 first
  ⟨last.a + first.a, last.b + first.b, last.c + first.c, last.d + first.d⟩

def toList (s : Block) : List UInt32 :=
  s.a.toList ++ s.b.toList ++ s.c.toList ++ s.d.toList

theorem length_toList (s : Block) : s.toList.length = 16 := rfl

def word (s : Block) (i : Fin 16) : UInt32 :=
  s.toList.get (i.cast s.length_toList.symm)

end Block

end SentenceWalk.Random
