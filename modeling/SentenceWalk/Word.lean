namespace SentenceWalk

/-- One row of the word table. `tag` is the class under which grammars draw the word, `categories`
say what it means. -/
structure Word where
  name : String
  tag : String
  categories : List String := []
  plural : Option String := none
  nextWords : List String := []
  nextCategories : List String := []
  flags : List String := []
  deriving DecidableEq, Repr

namespace Word

/-- Whether the word restricts the noun that follows it. -/
def hasRequirements (word : Word) : Bool :=
  !word.nextWords.isEmpty || !word.nextCategories.isEmpty

def hasFlag (word : Word) (flag : String) : Bool :=
  word.flags.contains flag

def requiresCategory (word : Word) (category : String) : Bool :=
  word.nextCategories.contains category

end Word

end SentenceWalk
