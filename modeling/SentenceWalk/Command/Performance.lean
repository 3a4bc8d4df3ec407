namespace SentenceWalk.Command

inductive Action where
  | write (text : String)
  | report (text : String)
  /-- Waits until the reader has ended a line. -/
  | await
  deriving DecidableEq, Repr

structure Performance where
  actions : List Action
  code : Nat := 0
  deriving DecidableEq, Repr

namespace Performance

def output (performance : Performance) : String :=
  String.join (performance.actions.filterMap fun
    | .write text => some text
    | _ => none)

def errors (performance : Performance) : String :=
  String.join (performance.actions.filterMap fun
    | .report text => some text
    | _ => none)

/-- The exit code of a program that an error has ended. -/
def fatalCode : Nat := 101

def failure (text : String) (code : Nat) : Performance :=
  { actions := [.report (text ++ "\n")], code }

end Performance

end SentenceWalk.Command
