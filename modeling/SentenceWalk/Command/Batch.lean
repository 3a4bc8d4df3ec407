import SentenceWalk.Command.Performance
import SentenceWalk.Source

namespace SentenceWalk.Command.Batch

def directory : String := "data/english"

def config : Config :=
  { lengthThreshold := 4, endWeightStep := 0.5 }

def seed : UInt64 := 2026

def numbered (index : Nat) (sentence : String) : String :=
  let number := toString (index + 1)
  (if number.length < 2 then " " else "") ++ number ++ ". " ++ sentence

def failed (message : String) : String :=
  "[Generation error: " ++ message ++ "]"

def sentence (rules : Rules) (seed : UInt64) : Except WalkError String :=
  ((Session.ofStart rules.language.grammar.start).run rules (RandomStream.ofSeed seed)).1

/-- The text of a result, which a fatal error leaves unwritten. -/
def line (result : Except WalkError String) (message : WalkError → String) :
    Except WalkError String :=
  match result with
  | .ok text => .ok text
  | .error error => if error.isFatal then .error error else .ok (failed (message error))

def workerLines (rules : Rules) (worker : Nat) : Except WalkError (List String) :=
  (List.range 3).mapM fun n => do
    let text ← line (sentence rules (UInt64.ofNat (worker * 100 + n))) WalkError.message
    return s!"[worker {worker}] {text}\n"

def blocks (language : Language) : List (Except WalkError (List String)) :=
  let generator : Generator := { language, config, seed }
  let batch := (generator.generateMany 10).1.map fun sentences =>
    "\n".intercalate (sentences.mapIdx numbered)
  let lines := line batch Generator.failureMessage
  [.ok [s!"--- Batch (seed {seed}) ---\n"], lines.map fun text => [text ++ "\n", "\n"]] ++
    (List.range 2).map (workerLines generator.rules)

/-- The actions of writing blocks up to the first that a fatal error leaves unwritten. -/
def perform : List (Except WalkError (List String)) → Performance
  | [] => { actions := [] }
  | .ok lines :: blocks =>
    let rest := perform blocks
    { rest with actions := lines.map .write ++ rest.actions }
  | .error error :: _ => .failure error.message Performance.fatalCode

def run (files : Files) : Performance :=
  match Language.load files (.inDirectory directory) with
  | .error error =>
    .failure ("Failed to load English data: " ++ error.message) Performance.fatalCode
  | .ok language => perform (blocks language)

def paths : List String :=
  (LanguagePaths.inDirectory directory).toList

end SentenceWalk.Command.Batch
