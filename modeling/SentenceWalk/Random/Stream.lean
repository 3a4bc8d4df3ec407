import SentenceWalk.Random.Block

namespace SentenceWalk

/-- An endless sequence of random words of which the first `position` have been taken. -/
structure RandomStream where
  key : Random.Key
  position : Nat := 0
  deriving DecidableEq, Repr

namespace RandomStream

/-- The linear congruential generator that expands a seed. -/
def seedStep (state : UInt64) : UInt64 :=
  state * 6364136223846793005 + 11634580027462260723

def seedWord (state : UInt64) : UInt32 :=
  let mixed := (((state >>> 18) ^^^ state) >>> 27).toUInt32
  let bits := (state >>> 59).toUInt32
  mixed >>> bits ||| mixed <<< (32 - bits)

def ofSeed (seed : UInt64) : RandomStream :=
  let word (i : Nat) := seedWord (Nat.repeat seedStep i seed)
  { key := ⟨⟨word 1, word 2, word 3, word 4⟩, ⟨word 5, word 6, word 7, word 8⟩⟩ }

def wordAt (stream : RandomStream) (i : Nat) : UInt32 :=
  (Random.Block.keystream stream.key (UInt64.ofNat (i / 16))).word (Fin.ofNat 16 i)

def peek (stream : RandomStream) : UInt32 :=
  stream.wordAt stream.position

/-- The next two words as one number, low word first, which is not taken. -/
def peekDouble (stream : RandomStream) : UInt64 :=
  stream.peek.toUInt64 ||| (stream.wordAt (stream.position + 1)).toUInt64 <<< 32

def skip (stream : RandomStream) (count : Nat) : RandomStream :=
  { stream with position := stream.position + count }

@[simp]
theorem skip_skip (stream : RandomStream) (m n : Nat) :
    (stream.skip m).skip n = stream.skip (m + n) := by
  simp [skip, Nat.add_assoc]

@[simp]
theorem skip_zero (stream : RandomStream) : stream.skip 0 = stream := rfl

end RandomStream

end SentenceWalk
