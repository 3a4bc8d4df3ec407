import SentenceWalk.Config.Reading
import SentenceWalk.Generator
import SentenceWalk.Language.Reading

namespace SentenceWalk

inductive SourceError where
  | language (error : LanguageError)
  | unreadableConfig
  | malformedConfig
  | missingLanguage

def SourceError.message : SourceError → String
  | language error => "language error: " ++ error.message
  | unreadableConfig => "IO error: the settings cannot be read"
  | malformedConfig => "RON error: the settings are malformed"
  | missingLanguage =>
    "no language data: set a data directory, all three file paths, or a language"

/-- A language or settings that are given count before paths, and paths before the directory. -/
structure Source where
  directory : Option String := none
  grammarPath : Option String := none
  wordsPath : Option String := none
  hierarchyPath : Option String := none
  configPath : Option String := none
  seed : UInt64 := 0
  language : Option Language := none
  config : Option Config := none

namespace Source

def languagePaths? (source : Source) : Option LanguagePaths := do
  let inDirectory := source.directory.map LanguagePaths.inDirectory
  return {
    grammar := ← source.grammarPath <|> inDirectory.map LanguagePaths.grammar
    words := ← source.wordsPath <|> inDirectory.map LanguagePaths.words
    hierarchy := ← source.hierarchyPath <|> inDirectory.map LanguagePaths.hierarchy }

def directoryConfig? (source : Source) : Option String :=
  source.directory.map (Files.inDirectory · "config.ron")

def paths (source : Source) : List String :=
  (source.languagePaths?.map LanguagePaths.toList).getD [] ++ source.configPath.toList ++
    source.directoryConfig?.toList

def buildLanguage (source : Source) (files : Files) : Except SourceError Language :=
  match source.language, source.languagePaths? with
  | some language, _ => .ok language
  | none, some paths => (Language.load files paths).mapError .language
  | none, none => .error .missingLanguage

def loadConfig (files : Files) (path : String) : Except SourceError Config :=
  match files.text? path with
  | none => .error .unreadableConfig
  | some text =>
    match Config.ofText? text with
    | some config => .ok config
    | none => .error .malformedConfig

/-- The settings, which keep their defaults if the directory has none. -/
def buildConfig (source : Source) (files : Files) : Except SourceError Config :=
  match source.config, source.configPath, source.directoryConfig? with
  | some config, _, _ => .ok config
  | none, some path, _ => loadConfig files path
  | none, none, some path =>
    match files path with
    | .missing => .ok {}
    | _ => loadConfig files path
  | none, none, none => .ok {}

def build (source : Source) (files : Files) : Except SourceError Generator := do
  let language ← source.buildLanguage files
  let config ← source.buildConfig files
  return { language, config, seed := source.seed }

end Source

end SentenceWalk
