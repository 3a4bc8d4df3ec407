import SentenceWalk.Role
import SentenceWalk.Word

namespace SentenceWalk

structure Situation where
  plural : Bool := false
  participle : Bool := false
  deriving DecidableEq, Repr

namespace Situation

/-- The situation after a word of the given role and name. Articles settle the number of the nouns
behind them, and `trigger` asks for a participle right behind it. -/
def observe (situation : Situation) (role : Role) (name trigger : String) : Situation where
  plural :=
    match role with
    | .pluralArticle => true
    | .singularArticle => false
    | _ => situation.plural
  participle := name == trigger

end Situation

def stem? (last : Char) (name : String) : Option String :=
  match name.toList.reverse with
  | c :: start => if c == last then some (String.ofList start.reverse) else none
  | [] => none

namespace Word

/-- The plural of a word: the one that is listed, else the name with `s`, or `es` behind an `s`. -/
def pluralForm (word : Word) : String :=
  match word.plural with
  | some plural => plural
  | none =>
    if word.name.isEmpty then ""
    else if (stem? 's' word.name).isSome then word.name ++ "es"
    else word.name ++ "s"

/-- The present participle of a verb, which drops a last `e`. -/
def participle (name : String) : String :=
  if name.isEmpty then "" else (stem? 'e' name).getD name ++ "ing"

def inflect (word : Word) (role : Role) (situation : Situation) : String :=
  match role with
  | .noun => if situation.plural then word.pluralForm else word.name
  | .verb => if situation.participle then participle word.name else word.name
  | _ => word.name

end Word

end SentenceWalk
