import SentenceWalk.History
import SentenceWalk.Random.Weighted
import SentenceWalk.Rules

namespace SentenceWalk

inductive PartDraw where
  | part (code : String)
  /-- The successor is not allowed here, and there should be another draw. -/
  | retry
  deriving DecidableEq, Repr

namespace Rules

/-- Adds to the weight of the first successor that ends the sentence. -/
def raiseEnd (grammar : Grammar) (bonus : Float) : List (String × Float) → List (String × Float)
  | [] => []
  | (code, weight) :: choices =>
    if (grammar.parts[code]?.any Part.isTerminal) then (code, weight + bonus) :: choices
    else (code, weight) :: raiseEnd grammar bonus choices

/-- The successors of a part-of-speech with their weights in a history of the given length. Beyond
the threshold every further part-of-speech makes the end likelier. -/
def choices (rules : Rules) (code : String) (length : Nat) :
    Except GrammarError (List (String × Float)) :=
  (rules.language.grammar.part code).map fun part =>
    if rules.config.lengthThreshold < length then
      let extra := (UInt64.ofNat (length - rules.config.lengthThreshold)).toFloat
      raiseEnd rules.language.grammar (rules.config.endWeightStep * extra) part.choices
    else part.choices

/-- Whether the sentence may be continued by a conjunction: behind a preposition only if it is
flagged for that. -/
def allowsConjunction (rules : Rules) (history : History) : Bool :=
  match history.lookBack false with
  | .preposition =>
    let record := history.lastPreposition.bind fun preposition =>
      rules.language.lexicon.lookup preposition.name preposition.tag
    record.any (·.hasFlag rules.config.conjoinFlag)
  | _ => true

def allows (rules : Rules) (cursor : Cursor) (history : History) : Role → Bool
  | .properNoun =>
    cursor.entry.any (·.word.requiresCategory rules.config.properNounCategory)
  | .conjunction => rules.allowsConjunction history
  | _ => true

def drawPart (rules : Rules) (cursor : Cursor) (history : History) (stream : RandomStream) :
    Except WalkError PartDraw × RandomStream :=
  match rules.choices cursor.code history.length with
  | .error error => (.error (.grammar error), stream)
  | .ok choices =>
    match stream.chooseWeighted choices with
    | (.error .unusable, stream) => (.error (.noSuccessor cursor.code), stream)
    | (.error .overflow, stream) => (.error (.weightOverflow cursor.code), stream)
    | (.ok code, stream) =>
      match rules.language.grammar.role code with
      | .error error => (.error (.grammar error), stream)
      | .ok role =>
        (.ok (if rules.allows cursor history role then .part code else .retry), stream)

def choosePartWithin (rules : Rules) (cursor : Cursor) (history : History) :
    Nat → RandomStream → Except WalkError String × RandomStream
  | 0, stream => (.error (.partRetries cursor.code rules.config.partRetryLimit), stream)
  | draws + 1, stream =>
    match rules.drawPart cursor history stream with
    | (.ok (.part code), stream) => (.ok code, stream)
    | (.ok .retry, stream) => choosePartWithin rules cursor history draws stream
    | (.error error, stream) => (.error error, stream)

def choosePart (rules : Rules) (cursor : Cursor) (history : History) (stream : RandomStream) :
    Except WalkError String × RandomStream :=
  rules.choosePartWithin cursor history rules.config.partRetryLimit stream

end Rules

end SentenceWalk
