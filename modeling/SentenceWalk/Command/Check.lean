import SentenceWalk.Command.Performance
import SentenceWalk.Language.Reading
import SentenceWalk.Lint

namespace SentenceWalk.Command.Check

def usage : String := "Usage: lexicon_linter <data_dir>\n"

def report (language : Language) : List String :=
  let errors := language.lintErrors
  let warnings := language.lintWarnings
  let parts := language.grammar.size
  let categories := language.hierarchy.size
  let words := language.lexicon.size
  let errorCount := errors.length
  let warningCount := warnings.length
  [s!"Loaded {parts} parts-of-speech, {categories} categories, {words} words\n",
    "\n=== Lexicon Lint Report ===\n\n"] ++
  (if errors.isEmpty && warnings.isEmpty then ["All checks passed!\n"] else []) ++
  warnings.map (fun warning => "WARNING: " ++ warning.message ++ "\n") ++
  errors.map (fun error => "ERROR: " ++ error.message ++ "\n") ++
  [s!"\nSummary: {errorCount} errors, {warningCount} warnings\n"]

def perform (directory : String) (files : Files) : Performance :=
  match files directory with
  | .directory =>
    match Language.load files (.inDirectory directory) with
    | .error error => .failure ("ERROR: Failed to load language data: " ++ error.message) 1
    | .ok language =>
      { actions := (report language).map .write
        code := if language.lintErrors.isEmpty then 0 else 1 }
  | _ => .failure ("ERROR: Directory '" ++ directory ++ "' does not exist") 1

/-- What the program does for its arguments, of which only the first counts. -/
def run (arguments : List String) (files : Files) : Performance :=
  match arguments with
  | [] => { actions := [.write usage] }
  | directory :: _ =>
    if directory == "--help" || directory == "-h" then { actions := [.write usage] }
    else perform directory files

def paths (arguments : List String) : List String :=
  match arguments with
  | [] => []
  | directory :: _ => directory :: (LanguagePaths.inDirectory directory).toList

end SentenceWalk.Command.Check
