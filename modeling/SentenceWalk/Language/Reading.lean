import SentenceWalk.Files
import SentenceWalk.Grammar.Reading
import SentenceWalk.Hierarchy.Reading
import SentenceWalk.Language
import SentenceWalk.Lexicon.Reading

namespace SentenceWalk

structure LanguagePaths where
  grammar : String
  words : String
  hierarchy : String

namespace LanguagePaths

def inDirectory (directory : String) : LanguagePaths where
  grammar := Files.inDirectory directory "grammar.ron"
  words := Files.inDirectory directory "wordlist.csv"
  hierarchy := Files.inDirectory directory "hierarchy.csv"

def toList (paths : LanguagePaths) : List String :=
  [paths.grammar, paths.words, paths.hierarchy]

end LanguagePaths

def Grammar.load (files : Files) (path : String) : Except GrammarError Grammar :=
  match files.text? path with
  | some text => ofText text
  | none => .error .unreadable

def Hierarchy.load (files : Files) (path : String) : Except HierarchyError Hierarchy :=
  match files.table? path with
  | some table => ofTable table
  | none => .error .unreadable

def Lexicon.load (files : Files) (path : String) : Except LexiconError Lexicon :=
  match files.table? path with
  | some table => ofTable table
  | none => .error .unreadable

def Language.load (files : Files) (paths : LanguagePaths) : Except LanguageError Language := do
  let grammar ← (Grammar.load files paths.grammar).mapError .grammar
  let hierarchy ← (Hierarchy.load files paths.hierarchy).mapError .hierarchy
  let lexicon ← (Lexicon.load files paths.words).mapError .lexicon
  Language.assemble grammar hierarchy lexicon

end SentenceWalk
