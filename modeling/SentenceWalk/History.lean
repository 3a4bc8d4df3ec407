import SentenceWalk.Names
import SentenceWalk.Role

namespace SentenceWalk

structure Visit where
  code : String
  role : Role
  deriving DecidableEq, Repr

structure Preposition where
  name : String
  tag : String
  deriving DecidableEq, Repr

structure History where
  visits : List Visit := []
  lastPreposition : Option Preposition := none
  deriving DecidableEq, Repr

inductive Landmark where
  | verb
  | preposition
  | conjunction
  | start
  deriving DecidableEq, Repr

namespace Landmark

def name : Landmark → String
  | verb => "Verb"
  | preposition => "Preposition"
  | conjunction => "Conjunction"
  | start => "Start"

/-- The nearest verb, preposition or, if these count, conjunction of the visits. -/
def ofVisits (conjunctions : Bool) : List Visit → Landmark
  | [] => start
  | visit :: visits =>
    match visit.role with
    | .verb => verb
    | .preposition => preposition
    | .conjunction => if conjunctions then conjunction else ofVisits conjunctions visits
    | _ => ofVisits conjunctions visits

end Landmark

namespace History

def push (history : History) (code : String) (role : Role) : History :=
  { history with visits := ⟨code, role⟩ :: history.visits }

def length (history : History) : Nat :=
  history.visits.length

def lookBack (history : History) (conjunctions : Bool) : Landmark :=
  Landmark.ofVisits conjunctions history.visits

/-- Whether a conjunction is still being continued. -/
def inConjunction (history : History) : Bool :=
  history.lookBack true == .conjunction

theorem inConjunction_cons {history next : History} {visit : Visit}
    (hv : next.visits = visit :: history.visits) :
    next.inConjunction = true ↔ visit.role = .conjunction ∨
      history.inConjunction = true ∧ visit.role ≠ .verb ∧ visit.role ≠ .preposition := by
  rw [inConjunction, lookBack, hv]
  rcases visit with ⟨code, role⟩
  cases role <;> simp [Landmark.ofVisits, inConjunction, lookBack]

end History

/-- Names without repetition, in the order of their first use, and the set of them. -/
structure UsedWords where
  names : List String := []
  seen : NameSet := .ofList names
  deriving DecidableEq

namespace UsedWords

def contains (used : UsedWords) (name : String) : Bool :=
  used.seen.contains name

def insert (used : UsedWords) (name : String) : UsedWords :=
  if used.contains name then used
  else { names := used.names ++ [name], seen := used.seen.insert name }

theorem contains_insert (used : UsedWords) (name other : String) :
    (used.insert name).contains other = (used.contains other || other == name) := by
  unfold insert
  split
  · rename_i hknown
    by_cases hsame : other = name
    · subst hsame
      simp [hknown]
    · simp [hsame]
  · rw [contains, Std.ExtTreeSet.contains_insert, Bool.or_comm, Bool.eq_iff_iff]
    simp [contains, eq_comm (a := name)]

theorem insert_of_contains {used : UsedWords} {name : String} (hknown : used.contains name = true) :
    used.insert name = used :=
  if_pos hknown

def size (used : UsedWords) : Nat :=
  used.names.length

end UsedWords

end SentenceWalk
