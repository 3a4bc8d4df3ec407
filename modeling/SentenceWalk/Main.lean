import SentenceWalk.Command

namespace SentenceWalk

def readContent (path : String) : IO Content := do
  match ← (IO.FS.readBinFile path).toBaseIO with
  | .ok bytes => return .file bytes
  | .error (.inappropriateType ..) => return .directory
  | .error _ => return .missing

def Command.Action.perform : Action → IO Unit
  | .write text => IO.print text
  | .report text => IO.eprint text
  | .await => do
    (← IO.getStdout).flush
    -- The line may be anything, or missing.
    discard (← IO.getStdin).getLine.toBaseIO

end SentenceWalk

def main (arguments : List String) : IO UInt32 := do
  match arguments.head?.bind SentenceWalk.Command.ofName? with
  | none =>
    IO.eprintln "Usage: generate | lexicon_linter | batch, and arguments"
    return 1
  | some command =>
    let arguments := arguments.tail
    let contents ← (command.paths arguments).mapM fun path =>
      return (path, ← SentenceWalk.readContent path)
    let performance := command.run arguments fun path => (contents.lookup path).getD .missing
    performance.actions.forM SentenceWalk.Command.Action.perform
    return performance.code.toUInt32
