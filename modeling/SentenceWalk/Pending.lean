import SentenceWalk.Names

/-!
The requirements that wait for a noun. Each is a set of names of which the noun has to have one;
the empty set requires nothing.
-/

namespace SentenceWalk

/-- The names that the next noun is restricted to, and those that the last restricted noun was
restricted to, which a conjunction takes up again. -/
structure Pending where
  active : NameSet := ∅
  reserve : NameSet := ∅
  deriving DecidableEq

namespace Pending

def combine (current incoming : NameSet) : NameSet :=
  if incoming.isEmpty then current
  else if current.isEmpty then incoming
  else current ∩ incoming

@[simp]
theorem combine_empty_right (current : NameSet) : combine current ∅ = current := by
  simp [combine]

@[simp]
theorem combine_empty_left (incoming : NameSet) : combine ∅ incoming = incoming := by
  unfold combine
  split
  · rename_i hnone
    simpa using hnone.symm
  · simp

def apply (pending : Pending) (names : NameSet) : Pending :=
  { pending with active := combine pending.active names }

def resume (pending : Pending) : Pending :=
  pending.apply pending.reserve

/-- Sets the requirement aside once a noun has met it. -/
def consume (pending : Pending) : Pending :=
  { active := ∅, reserve := pending.active }

/-- Takes up the requirement of the last noun if there is no other. -/
def seedFromReserve (pending : Pending) : Pending :=
  if pending.active.isEmpty then { pending with active := pending.reserve } else pending

def isConstrained (pending : Pending) : Bool :=
  !pending.active.isEmpty

end Pending

end SentenceWalk
