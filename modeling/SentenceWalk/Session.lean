import SentenceWalk.Rules.PartChoice
import SentenceWalk.Rules.WordChoice

namespace SentenceWalk

inductive Step where
  | word (entry : Entry) (code form : String)
  | finish
  deriving DecidableEq, Repr

/-- A sentence in the making. `forms` are the words placed so far. -/
structure Session where
  cursor : Cursor
  pending : Pending := {}
  history : History := {}
  used : UsedWords := {}
  situation : Situation := {}
  forms : List String := []
  finished : Bool := false
  deriving DecidableEq

namespace Session

def ofStart (start : String) : Session :=
  { cursor := { code := start } }

def sentence (session : Session) : String :=
  " ".intercalate session.forms

def observe (rules : Rules) (session : Session) : Except WalkError Session :=
  match rules.language.grammar.role session.cursor.code with
  | .error error => .error (.grammar error)
  | .ok role =>
    let history := session.history.push session.cursor.code role
    let trigger := rules.config.participleTrigger
    match session.cursor.entry with
    | none =>
      .ok { session with history, situation := session.situation.observe role "" trigger }
    | some ⟨_, word⟩ =>
      .ok { session with
        history :=
          if role == .preposition then
            { history with lastPreposition := some ⟨word.name, word.tag⟩ }
          else history
        used := if role.isTracked then session.used.insert word.name else session.used
        situation := session.situation.observe role word.name trigger }

def place (rules : Rules) (session : Session) (entry : Entry) (code : String) :
    Except WalkError Step × Session :=
  match rules.render entry code session.situation with
  | .error error => (.error error, session)
  | .ok form =>
    (.ok (.word entry code form),
      { session with cursor := ⟨code, some entry⟩, forms := session.forms ++ [form] })

/-- Enters the cursor into the history, then chooses and places the next word. A sentence that has
ended stays as it is, and so does one that may not become longer. -/
def step (rules : Rules) (session : Session) (stream : RandomStream) :
    Except WalkError Step × Session × RandomStream :=
  if session.finished then (.ok .finish, session, stream)
  else if rules.config.maxSentenceLength ≤ session.forms.length then
    (.error (.sentenceTooLong rules.config.maxSentenceLength), session, stream)
  else
    match session.observe rules with
    | .error error => (.error error, session, stream)
    | .ok session =>
      match rules.choosePart session.cursor session.history stream with
      | (.error error, stream) => (.error error, session, stream)
      | (.ok code, stream) =>
        let (next, pending, stream) :=
          rules.nextWord session.cursor code session.pending session.history session.used stream
        let session := { session with pending }
        match next with
        | .error error => (.error error, session, stream)
        | .ok .finish => (.ok .finish, { session with finished := true }, stream)
        | .ok (.word entry) =>
          let (result, session) := session.place rules entry code
          (result, session, stream)

/-- The first steps of a session, with the session and the stream behind each. A step that fails
does not keep the next one from being taken. -/
def trace (rules : Rules) (session : Session) :
    Nat → RandomStream → List (Except WalkError Step × Session × RandomStream)
  | 0, _ => []
  | steps + 1, stream =>
    let next := session.step rules stream
    next :: next.2.1.trace rules steps next.2.2

def runWithin (rules : Rules) :
    Nat → Session → RandomStream → Except WalkError String × Session × RandomStream
  | 0, session, stream =>
    (.error (.sentenceTooLong rules.config.maxSentenceLength), session, stream)
  | steps + 1, session, stream =>
    match session.step rules stream with
    | (.error error, session, stream) => (.error error, session, stream)
    | (.ok .finish, session, stream) => (.ok session.sentence, session, stream)
    | (.ok (.word ..), session, stream) => runWithin rules steps session stream

/-- Takes steps up to the end of the sentence. Every step but the last places a word, so that none
is left when the sentence may not become longer. -/
def run (rules : Rules) (session : Session) (stream : RandomStream) :
    Except WalkError String × Session × RandomStream :=
  runWithin rules (rules.config.maxSentenceLength + 1) session stream

end Session

end SentenceWalk
