import SentenceWalk.Random.Stream

namespace SentenceWalk.RandomStream

inductive WeightFault where
  /-- There is no item, a weight is negative or not a number, or every weight is zero. -/
  | unusable
  | overflow
  deriving DecidableEq, Repr

def totalWeight {α : Type} (items : List (α × Float)) : Float :=
  items.foldl (fun sum item => sum + item.2) 0

def drawableTotal {α : Type} (items : List (α × Float)) : Except WeightFault Float :=
  if items.all fun item => item.2 ≥ 0 then
    let total := totalWeight items
    if total == 0 then .error .unusable
    else if total.isInf then .error .overflow
    else .ok total
  else .error .unusable

/-- A random fraction of 1, in steps of 2⁻⁵². -/
def peekFraction (stream : RandomStream) : Float :=
  Float.ofBits (stream.peekDouble >>> 12 ||| 0x3ff0000000000000) - 1

def lastFraction : Float :=
  Float.ofBits 0x3feffffffffffffe

/-- The largest positive number up to the one with the given bits whose product with every random
fraction stays below `total`. -/
def fitScale (total : Float) : Nat → Float
  | 0 => 0
  | bits + 1 =>
    let scale := Float.ofBits (UInt64.ofNat (bits + 1))
    if scale * lastFraction ≥ total then fitScale total bits else scale

def peekPoint (total : Float) (stream : RandomStream) : Float :=
  stream.peekFraction * fitScale total total.toBits.toNat

/-- The item in whose share `point` lies, when the shares are laid end to end from `sum` on. The
last share has no end. -/
def landing {α : Type} (point sum : Float) : List (α × Float) → Option α
  | [] => none
  | [(item, _)] => some item
  | (item, weight) :: rest =>
    if sum + weight ≤ point then landing point (sum + weight) rest else some item

/-- A random item, each with a chance in proportion to its weight. Two words are taken, and none
if no item can be drawn. -/
def chooseWeighted {α : Type} (items : List (α × Float)) (stream : RandomStream) :
    Except WeightFault α × RandomStream :=
  match drawableTotal items with
  | .error fault => (.error fault, stream)
  | .ok total =>
    match landing (stream.peekPoint total) 0 items with
    | some item => (.ok item, stream.skip 2)
    | none => (.error .unusable, stream)

theorem mem_of_landing {α : Type} {items : List (α × Float)} {item : α} {point sum : Float}
    (h : landing point sum items = some item) : item ∈ items.map Prod.fst := by
  fun_induction landing point sum items with
  | case1 => simp at h
  | case2 => simp_all
  | case3 _ _ _ _ _ _ ih => exact List.mem_cons_of_mem _ (ih h)
  | case4 => simp_all

theorem mem_of_chooseWeighted {α : Type} {items : List (α × Float)} {item : α}
    {stream : RandomStream} (h : (stream.chooseWeighted items).1 = .ok item) :
    item ∈ items.map Prod.fst := by
  unfold chooseWeighted at h
  split at h
  · cases h
  · split at h
    · rename_i hfound
      cases h
      exact mem_of_landing hfound
    · cases h

end SentenceWalk.RandomStream
