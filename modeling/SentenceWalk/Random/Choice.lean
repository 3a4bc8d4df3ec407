import SentenceWalk.Random.Stream

namespace SentenceWalk.RandomStream

/-- How often a word is drawn anew because it would favour the smaller numbers. Each word is
accepted with a chance above one half. -/
def redrawLimit : Nat := 1024

/-- The largest fraction that is accepted when a word is scaled to the range below `bound`. -/
def lastFair (bound : Nat) : Nat :=
  bound <<< (31 - bound.log2) - 1

/-- A number below `bound`: the whole part of a random fraction of `bound`. The next word decides
unless it is unfair and can be drawn anew. -/
def belowWithin : Nat → Nat → RandomStream → Nat × RandomStream
  | 0, bound, stream => (stream.peek.toNat * bound / UInt32.size, stream.skip 1)
  | redraws + 1, bound, stream =>
    let scaled := stream.peek.toNat * bound
    if scaled % UInt32.size ≤ lastFair bound then
      (scaled / UInt32.size, stream.skip 1)
    else
      belowWithin redraws bound (stream.skip 1)

def below (bound : Nat) (stream : RandomStream) : Nat × RandomStream :=
  belowWithin redrawLimit bound stream

theorem belowWithin_lt {bound : Nat} (h : 0 < bound) (redraws : Nat) (stream : RandomStream) :
    (belowWithin redraws bound stream).1 < bound := by
  have hscaled (s : RandomStream) : s.peek.toNat * bound / UInt32.size < bound := by
    have := s.peek.toNat_lt
    rw [Nat.div_lt_iff_lt_mul (by decide), Nat.mul_comm bound]
    exact Nat.mul_lt_mul_of_pos_right this h
  induction redraws generalizing stream with
  | zero => exact hscaled stream
  | succ redraws ih =>
    rw [belowWithin]
    split
    · exact hscaled stream
    · exact ih _

theorem below_lt {bound : Nat} (h : 0 < bound) (stream : RandomStream) :
    (stream.below bound).1 < bound :=
  belowWithin_lt h _ _

/-- A random item of the list. Nothing is drawn for an empty list. -/
def choose {α : Type} (items : List α) (stream : RandomStream) : Option α × RandomStream :=
  match items with
  | [] => (none, stream)
  | _ :: _ =>
    let (i, rest) := stream.below items.length
    (items[i]?, rest)

theorem mem_of_choose {α : Type} {items : List α} {item : α} {stream : RandomStream}
    (h : (stream.choose items).1 = some item) : item ∈ items := by
  cases items with
  | nil => simp [choose] at h
  | cons first rest => exact List.mem_of_getElem? h

theorem choose_eq_none_iff {α : Type} {items : List α} {stream : RandomStream} :
    (stream.choose items).1 = none ↔ items = [] := by
  cases items with
  | nil => simp [choose]
  | cons first rest =>
    have := stream.below_lt (Nat.succ_pos rest.length)
    simpa [choose] using this

end SentenceWalk.RandomStream
