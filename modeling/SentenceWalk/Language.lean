import SentenceWalk.Grammar
import SentenceWalk.Lexicon

namespace SentenceWalk

inductive LanguageError where
  | grammar (error : GrammarError)
  | hierarchy (error : HierarchyError)
  | lexicon (error : LexiconError)
  | unknownCategory (word category : String)

namespace LanguageError

def message : LanguageError → String
  | grammar error => "grammar error: " ++ error.message
  | hierarchy error => "hierarchy error: " ++ error.message
  | lexicon error => "lexicon error: " ++ error.message
  | unknownCategory word category => s!"word '{word}' requires unknown category '{category}'"

end LanguageError

structure Language where
  grammar : Grammar
  hierarchy : Hierarchy
  lexicon : Lexicon

namespace Language

/-- The first category that a word requires although neither the hierarchy nor any word has it. -/
def unknownCategory? (hierarchy : Hierarchy) (lexicon : Lexicon) (word : Word) : Option String :=
  word.nextCategories.find? fun category =>
    !hierarchy.contains category && !lexicon.hasCategory category

def assemble (grammar : Grammar) (hierarchy : Hierarchy) (lexicon : Lexicon) :
    Except LanguageError Language :=
  let unknown? := lexicon.words.findSome? fun word =>
    (unknownCategory? hierarchy lexicon word).map fun category => (word.name, category)
  match unknown? with
  | some (word, category) => .error (.unknownCategory word category)
  | none => .ok { grammar, hierarchy, lexicon := lexicon.index hierarchy }

/-- The names to which a word restricts the noun that follows it. -/
def requirements (language : Language) (word : Word) : NameSet :=
  word.nextCategories.foldl
    (fun names category => names ∪ (language.lexicon.members? category).getD ∅)
    (NameSet.ofList word.nextWords)

def wordsOf (language : Language) (code : String) : Except GrammarError (List Entry) :=
  (language.grammar.part code).map fun part => language.lexicon.withTags part.vocabulary

def lookup (language : Language) (name code : String) : Option Entry :=
  (language.grammar.part code).toOption.bind fun part =>
    language.lexicon.find? name part.vocabulary

end Language

end SentenceWalk
