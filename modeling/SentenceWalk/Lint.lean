import SentenceWalk.Language

namespace SentenceWalk

inductive LintWarning where
  | unusedTag (word tag : String)
  | unlistedCategory (word category : String)
  /-- The word lists a category although another of its categories lies below it. -/
  | impliedCategory (word broad narrow : String)
  | unsatisfiable (word : String)
  | unreachable (code : String)
  deriving DecidableEq, Repr

inductive LintError where
  | noWords (code : String)
  | noSuccessors (code : String)
  deriving DecidableEq, Repr

def LintWarning.message : LintWarning → String
  | unusedTag word tag => s!"Word '{word}' has tag '{tag}' which no part-of-speech uses"
  | unlistedCategory word category =>
    s!"Word '{word}' belongs to category '{category}' which is not in the hierarchy"
  | impliedCategory word broad narrow =>
    s!"Word '{word}' lists category '{broad}' which '{narrow}' already implies"
  | unsatisfiable word => s!"Word '{word}' has successor requirements that no word satisfies"
  | unreachable code => s!"Part-of-speech '{code}' is unreachable from the start"

def LintError.message : LintError → String
  | noWords code => s!"Part-of-speech '{code}' has no words"
  | noSuccessors code => s!"Part-of-speech '{code}' has no successors and is not an end"

namespace Hierarchy

/-- The broader and the narrower of two categories, if one of them implies the other. -/
def implied? (hierarchy : Hierarchy) (first second : String) : Option (String × String) :=
  if hierarchy.isA first second then some (second, first)
  else if hierarchy.isA second first then some (first, second)
  else none

def implications (hierarchy : Hierarchy) : List String → List (String × String)
  | [] => []
  | category :: others =>
    others.filterMap (hierarchy.implied? category) ++ hierarchy.implications others

end Hierarchy

namespace Language

def usesTag (language : Language) (tag : String) : Bool :=
  language.grammar.parts.toList.any fun (_, part) => part.vocabulary.contains tag

def wordWarnings (language : Language) (word : Word) : List LintWarning :=
  (if language.usesTag word.tag then [] else [.unusedTag word.name word.tag]) ++
  (word.categories.filter fun category => !language.hierarchy.contains category).map
    (.unlistedCategory word.name) ++
  (language.hierarchy.implications word.categories).map
    (fun (broad, narrow) => .impliedCategory word.name broad narrow) ++
  (if word.hasRequirements && (language.requirements word).isEmpty then [.unsatisfiable word.name]
    else [])

def partErrors (language : Language) (code : String) (part : Part) : List LintError :=
  if part.role == .start || part.role == .finish then []
  else
    (if (language.lexicon.withTags part.vocabulary).isEmpty then [.noWords code] else []) ++
    (if part.successors.isEmpty then [.noSuccessors code] else [])

def lintWarnings (language : Language) : List LintWarning :=
  let reachable := language.grammar.reachable
  language.lexicon.words.flatMap language.wordWarnings ++
    (language.grammar.parts.keys.filter fun code => !reachable.contains code).map .unreachable

def lintErrors (language : Language) : List LintError :=
  language.grammar.parts.toList.flatMap fun (code, part) => language.partErrors code part

end Language

end SentenceWalk
