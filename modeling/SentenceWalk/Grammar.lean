import SentenceWalk.Names
import SentenceWalk.Role
import SentenceWalk.Decimal.Shortest

namespace SentenceWalk

structure Part where
  role : Role
  successors : List String := []
  weights : List Float := []
  vocabulary : NameSet := ∅

namespace Part

def isTerminal (part : Part) : Bool :=
  part.role == .finish

def choices (part : Part) : List (String × Float) :=
  part.successors.zip part.weights

end Part

inductive GrammarError where
  | undefinedSuccessor (code successor : String)
  | undefinedPart (code : String)
  | weightMismatch (code : String) (successors weights : Nat)
  | invalidWeight (code : String) (weight : Float)
  | missingRole (role : Role)
  | unreadable
  | malformed

namespace GrammarError

def message : GrammarError → String
  | undefinedSuccessor code successor =>
    s!"part-of-speech '{code}' lists undefined successor '{successor}'"
  | undefinedPart code => s!"undefined part-of-speech: {code}"
  | weightMismatch code successors weights =>
    s!"part-of-speech '{code}' has {successors} successors but {weights} weights"
  | invalidWeight code weight =>
    let text := Decimal.render weight
    s!"part-of-speech '{code}' has invalid weight {text}"
  | missingRole role =>
    let name := role.name
    s!"grammar defines no part-of-speech with role {name}"
  | unreadable => "IO error: the grammar cannot be read"
  | malformed => "RON deserialization error: the grammar is malformed"

end GrammarError

def isWeight (weight : Float) : Bool :=
  weight.isFinite && !(weight < 0)

def Part.fault? (parts : NameMap Part) (code : String) (part : Part) : Option GrammarError :=
  if part.successors.length ≠ part.weights.length then
    some (.weightMismatch code part.successors.length part.weights.length)
  else
    match part.weights.find? fun weight => !isWeight weight with
    | some weight => some (.invalidWeight code weight)
    | none =>
      (part.successors.find? fun successor => !parts.contains successor).map
        (.undefinedSuccessor code)

namespace Grammar

def hasRole (parts : NameMap Part) (role : Role) : Bool :=
  parts.toList.any fun (_, part) => part.role == role

def fault? (parts : NameMap Part) : Option GrammarError :=
  match parts.toList.findSome? fun (code, part) => part.fault? parts code with
  | some fault => some fault
  | none => ([.start, .finish].find? fun role => !hasRole parts role).map .missingRole

end Grammar

/-- A table of parts-of-speech in which every successor is defined and usably weighted and which
knows where sentences begin and where they end. -/
structure Grammar where
  parts : NameMap Part
  sound : Grammar.fault? parts = none

namespace Grammar

/-- The grammar with the given parts. Of two with one code the later one counts. -/
def ofParts (parts : List (String × Part)) : Except GrammarError Grammar :=
  let table : NameMap Part := .ofList parts
  match h : fault? table with
  | some fault => .error fault
  | none => .ok ⟨table, h⟩

def part (grammar : Grammar) (code : String) : Except GrammarError Part :=
  match grammar.parts[code]? with
  | some part => .ok part
  | none => .error (.undefinedPart code)

def role (grammar : Grammar) (code : String) : Except GrammarError Role :=
  (grammar.part code).map Part.role

def size (grammar : Grammar) : Nat :=
  grammar.parts.size

def isStart (grammar : Grammar) (code : String) : Bool :=
  grammar.parts[code]?.any fun part => part.role == .start

/-- Where sentences begin: at `S` if it is a start, else at the first start by code. -/
def start (grammar : Grammar) : String :=
  if grammar.isStart "S" then "S" else (grammar.parts.keys.find? grammar.isStart).getD "S"

def successors (grammar : Grammar) (code : String) : List String :=
  (grammar.parts[code]?.map Part.successors).getD []

/-- The given codes that are not in `seen`, with the successors that they bring. -/
def unseenWork (grammar : Grammar) (seen : NameSet) (codes : List String) : List String :=
  codes.flatMap fun code => if code ∈ seen then [] else code :: grammar.successors code

theorem unseenWork_insert_le (grammar : Grammar) (seen : NameSet) (code : String)
    (codes : List String) :
    (grammar.unseenWork (seen.insert code) codes).length ≤
      (grammar.unseenWork seen codes).length := by
  induction codes with
  | nil => exact Nat.le_refl _
  | cons first rest ih =>
    unfold unseenWork at ih ⊢
    rw [List.flatMap_cons, List.flatMap_cons, List.length_append, List.length_append]
    refine Nat.add_le_add ?_ ih
    by_cases h : first ∈ seen
    · simp [h]
    · simp only [h, if_false]
      split <;> simp

theorem unseenWork_insert (grammar : Grammar) {seen : NameSet} {code : String}
    {codes : List String} (hlisted : code ∈ codes) (hfresh : code ∉ seen) :
    (grammar.unseenWork (seen.insert code) codes).length + (grammar.successors code).length <
      (grammar.unseenWork seen codes).length := by
  induction codes with
  | nil => simp at hlisted
  | cons first rest ih =>
    have hle := grammar.unseenWork_insert_le seen code rest
    unfold unseenWork at hle ih ⊢
    rw [List.flatMap_cons, List.flatMap_cons, List.length_append, List.length_append]
    by_cases hsame : first = code
    · subst hsame
      rw [if_pos (by simp), if_neg hfresh, List.length_cons, List.length_nil]
      omega
    · have hless := ih ((List.mem_cons.1 hlisted).resolve_left (Ne.symm hsame))
      have hkept : first ∈ seen.insert code ↔ first ∈ seen := by simp [Ne.symm hsame]
      simp only [hkept]
      omega

theorem successors_eq_nil {grammar : Grammar} {code : String} (h : code ∉ grammar.parts.keys) :
    grammar.successors code = [] := by
  rw [Std.ExtTreeMap.mem_keys] at h
  simp [successors, Std.ExtTreeMap.getElem?_eq_none h]

/-- The codes in `seen` and all that can be reached from `pending` outside them. -/
def reachFrom (grammar : Grammar) (seen : NameSet) : List String → NameSet
  | [] => seen
  | code :: pending =>
    if code ∈ seen then reachFrom grammar seen pending
    else reachFrom grammar (seen.insert code) (grammar.successors code ++ pending)
termination_by pending => (grammar.unseenWork seen grammar.parts.keys).length + pending.length
decreasing_by
  · exact Nat.lt_succ_self _
  · rename_i hfresh
    rw [List.length_append, List.length_cons]
    by_cases hlisted : code ∈ grammar.parts.keys
    · have := grammar.unseenWork_insert hlisted hfresh
      omega
    · have := grammar.unseenWork_insert_le seen code grammar.parts.keys
      rw [successors_eq_nil hlisted]
      simp only [List.length_nil]
      omega

def reachable (grammar : Grammar) : NameSet :=
  grammar.reachFrom ∅ [grammar.start]

end Grammar

end SentenceWalk
