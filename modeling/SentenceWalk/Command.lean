import SentenceWalk.Command.Batch
import SentenceWalk.Command.Check
import SentenceWalk.Command.Generate

namespace SentenceWalk

inductive Command where
  | generate
  | check
  | batch
  deriving DecidableEq, Repr

namespace Command

def ofName? : String → Option Command
  | "generate" => some generate
  | "lexicon_linter" => some check
  | "batch" => some batch
  | _ => none

def run (command : Command) (arguments : List String) (files : Files) : Performance :=
  match command with
  | generate => Generate.run arguments files
  | check => Check.run arguments files
  | batch => Batch.run files

def paths (command : Command) (arguments : List String) : List String :=
  match command with
  | generate => Generate.paths arguments
  | check => Check.paths arguments
  | batch => Batch.paths

end Command

end SentenceWalk
