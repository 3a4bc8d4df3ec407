import SentenceWalk.Command.Performance
import SentenceWalk.Source
import SentenceWalk.Text.Uppercase

namespace SentenceWalk.Command.Generate

structure Options where
  directory : String := "data/english"
  seed : UInt64 := 42
  count : Nat := 1
  stepwise : Bool := false

inductive Request where
  | usage
  | unknown (argument : String)
  | sentences (options : Options)

/-- A number of at most 64 bits, in digits only but for a plus. -/
def number? (text : String) : Option Nat :=
  let digits :=
    match text.toList with
    | '+' :: digits => digits
    | digits => digits
  if digits.isEmpty || !digits.all Char.isDigit then none
  else
    let value := Decimal.natFrom 0 digits
    if value < UInt64.size then some value else none

/-- The request that arguments complete. Numbers that cannot be read stand for the defaults. -/
def parse (options : Options) : List String → Request
  | [] => .sentences options
  | "--help" :: _ => .usage
  | "-h" :: _ => .usage
  | "--data-dir" :: directory :: rest => parse { options with directory } rest
  | "--seed" :: seed :: rest =>
    parse { options with seed := UInt64.ofNat ((number? seed).getD 42) } rest
  | "--count" :: count :: rest => parse { options with count := (number? count).getD 1 } rest
  | "--log-level" :: _ :: rest => parse options rest
  | "--step" :: rest => parse { options with stepwise := true } rest
  | argument :: _ => .unknown argument

def usage : String :=
  "Usage: generate [--data-dir <dir>] [--seed <n>] [--count <n>] [--step] " ++
  "[--log-level <level>]\n" ++
  "\n" ++
  "  --data-dir <dir>     language data directory (default: data/english)\n" ++
  "  --seed <n>           RNG seed (default: 42)\n" ++
  "  --count <n>          number of sentences (default: 1)\n" ++
  "  --step               reveal each sentence one word at a time\n" ++
  "  --log-level <level>  error, warn, info, debug or trace (default: warn)\n"

def clearScreen : String := "\x1b[2J\x1b[H"

def Options.source (options : Options) : Source :=
  { directory := some options.directory, seed := options.seed }

def revealWithin (rules : Rules) :
    Nat → Session → RandomStream → List Action × Option WalkError
  | 0, _, _ => ([], some (.sentenceTooLong rules.config.maxSentenceLength))
  | steps + 1, session, stream =>
    match session.step rules stream with
    | (.error error, _, _) => ([], some error)
    | (.ok .finish, session, _) =>
      let sentence := Text.capitalize session.sentence
      ([.write clearScreen, .write (sentence ++ ".\n")], none)
    | (.ok (.word _ code _), session, stream) =>
      let sentence := Text.capitalize session.sentence
      let (actions, error?) := revealWithin rules steps session stream
      (.write clearScreen :: .write (sentence ++ "\n") ::
        .write s!"\n[{code}]  Enter for the next word\n" :: .await :: actions, error?)

def reveal (generator : Generator) : (List Action × Option WalkError) × Generator :=
  let ((session, stream), next) := generator.startSession
  (revealWithin generator.rules (generator.config.maxSentenceLength + 1) session stream, next)

/-- The actions for one sentence, of which `later` are to follow, and the error that it ends with,
if any. -/
def sentence (stepwise : Bool) (generator : Generator) (later : Nat) :
    (List Action × Option WalkError) × Generator :=
  if stepwise then
    match reveal generator with
    | ((actions, none), next) => ((actions ++ if later = 0 then [] else [.await], none), next)
    | ((actions, some error), next) => ((actions ++ [failed error.message], some error), next)
  else
    match generator.generate with
    | (.ok text, next) => (([.write (Text.capitalize text ++ ".\n")], none), next)
    | (.error error, next) => (([failed (Generator.failureMessage error)], some error), next)
where
  failed (message : String) : Action := .report ("ERROR: " ++ message ++ "\n")

/-- The actions for `count` sentences, and the exit code: 1 if one of them fails. -/
def sentences (stepwise : Bool) (generator : Generator) : Nat → List Action × Nat
  | 0 => ([], 0)
  | count + 1 =>
    let ((actions, error?), next) := sentence stepwise generator count
    if error?.any WalkError.isFatal then (actions, Performance.fatalCode)
    else
      let (rest, code) := sentences stepwise next count
      (actions ++ rest, if error?.isSome && code == 0 then 1 else code)

def perform (options : Options) (files : Files) : Performance :=
  match options.source.build files with
  | .error error =>
    .failure ("ERROR: Failed to load '" ++ options.directory ++ "': " ++ error.message) 1
  | .ok generator =>
    let (actions, code) := sentences options.stepwise generator options.count
    { actions, code }

def run (arguments : List String) (files : Files) : Performance :=
  match parse {} arguments with
  | .usage => { actions := [.write usage] }
  | .unknown argument =>
    { actions := [.report ("Unknown argument: " ++ argument ++ "\n"), .write usage], code := 1 }
  | .sentences options => perform options files

def paths (arguments : List String) : List String :=
  match parse {} arguments with
  | .sentences options => options.source.paths
  | _ => []

end SentenceWalk.Command.Generate
