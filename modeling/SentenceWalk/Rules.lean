import SentenceWalk.Config
import SentenceWalk.Language

namespace SentenceWalk

inductive WalkError where
  | grammar (error : GrammarError)
  | noSuccessor (code : String)
  | poolExhausted (code : String)
  | exhaustedRetries (code : String) (attempts : Nat)
  | partRetries (code : String) (attempts : Nat)
  | sentenceTooLong (limit : Nat)
  | weightOverflow (code : String)

namespace WalkError

def message : WalkError → String
  | grammar error => "grammar error: " ++ error.message
  | noSuccessor code => s!"part-of-speech '{code}' has no drawable successor"
  | poolExhausted code => s!"no candidate words for part-of-speech '{code}'"
  | exhaustedRetries code attempts =>
    s!"no '{code}' word matched the pending requirements after {attempts} attempts"
  | partRetries code attempts =>
    s!"every successor of '{code}' was rejected after {attempts} draws"
  | sentenceTooLong limit => s!"sentence exceeded {limit} words"
  | weightOverflow code => s!"the successors of '{code}' weigh infinitely much"

/-- Whether the error ends the program, whoever asked for the choice. -/
def isFatal : WalkError → Bool
  | weightOverflow _ => true
  | _ => false

end WalkError

/-- Where a sentence has got to: a part-of-speech and the word placed for it, which is missing at
the start. -/
structure Cursor where
  code : String
  entry : Option Entry := none
  deriving DecidableEq, Repr

structure Rules where
  language : Language
  config : Config

end SentenceWalk
