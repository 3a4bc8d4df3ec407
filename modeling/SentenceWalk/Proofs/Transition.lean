import SentenceWalk.Proofs.SuccessorDraw
import SentenceWalk.Proofs.WordDraw
import SentenceWalk.Session

namespace SentenceWalk

def Cursor.preposition? (grammar : Grammar) (cursor : Cursor) : Option Preposition :=
  if (grammar.role cursor.code).toOption = some .preposition then
    cursor.entry.map fun entry => ⟨entry.word.name, entry.word.tag⟩
  else none

namespace Session

/-- What entering the cursor under its role makes of a session. -/
structure Observes (rules : Rules) (session : Session) (role : Role) (observed : Session) :
    Prop where
  role_eq : rules.language.grammar.role session.cursor.code = .ok role
  cursor : observed.cursor = session.cursor
  pending : observed.pending = session.pending
  forms : observed.forms = session.forms
  finished : observed.finished = session.finished
  visits : observed.history.visits = ⟨session.cursor.code, role⟩ :: session.history.visits
  lastPreposition : observed.history.lastPreposition =
    (session.cursor.preposition? rules.language.grammar).or session.history.lastPreposition
  used : observed.used =
    if role.isTracked then
      (session.cursor.entry.map fun entry => session.used.insert entry.word.name).getD session.used
    else session.used
  situation : observed.situation =
    session.situation.observe role ((session.cursor.entry.map Entry.name).getD "")
      rules.config.participleTrigger

theorem observe_ok {rules : Rules} {session observed : Session}
    (h : session.observe rules = .ok observed) : ∃ role, Observes rules session role observed := by
  rw [observe] at h
  split at h
  · cases h
  · rename_i role hr
    refine ⟨role, ?_⟩
    split at h
    · rename_i hentry
      cases h
      constructor <;> simp [hr, hentry, History.push, Cursor.preposition?]
    · rename_i hentry
      cases h
      by_cases hp : role = .preposition <;> constructor <;>
        simp [hr, hentry, hp, History.push, Cursor.preposition?, Except.toOption, Entry.name]

theorem observe_of_part {rules : Rules} {session : Session} {part : Part}
    (h : rules.language.grammar.parts[session.cursor.code]? = some part) :
    ∃ observed, session.observe rules = .ok observed := by
  rw [observe, Grammar.role_eq h]
  dsimp only
  split
  · exact ⟨_, rfl⟩
  · exact ⟨_, rfl⟩

/-- Whether the sentence is neither finished nor as long as it may become. -/
def Open (rules : Rules) (session : Session) : Prop :=
  session.finished = false ∧ session.forms.length < rules.config.maxSentenceLength

/-- A step from a session and a stream to an answer, a session and a stream. -/
inductive Transition (rules : Rules) (session : Session) (stream : RandomStream) :
    Except WalkError Step → Session → RandomStream → Prop where
  | ended (hf : session.finished = true) :
      Transition rules session stream (.ok .finish) session stream
  | tooLong (hf : session.finished = false)
      (hl : rules.config.maxSentenceLength ≤ session.forms.length) :
      Transition rules session stream
        (.error (.sentenceTooLong rules.config.maxSentenceLength)) session stream
  | unknown (ho : session.Open rules) (hs : session.observe rules = .error error) :
      Transition rules session stream (.error error) session stream
  | partless (ho : session.Open rules) (hs : session.observe rules = .ok observed)
      (hc : rules.choosePart observed.cursor observed.history stream = (.error error, rest)) :
      Transition rules session stream (.error error) observed rest
  | wordless {pending : Pending} (ho : session.Open rules)
      (hs : session.observe rules = .ok observed)
      (hc : rules.choosePart observed.cursor observed.history stream = (.ok code, middle))
      (hw : rules.nextWord observed.cursor code observed.pending observed.history observed.used
        middle = (.error error, pending, rest)) :
      Transition rules session stream (.error error) { observed with pending } rest
  | finishes {pending : Pending} (ho : session.Open rules)
      (hs : session.observe rules = .ok observed)
      (hc : rules.choosePart observed.cursor observed.history stream = (.ok code, middle))
      (hw : rules.nextWord observed.cursor code observed.pending observed.history observed.used
        middle = (.ok .finish, pending, rest)) :
      Transition rules session stream (.ok .finish) { observed with pending, finished := true } rest
  | formless {pending : Pending} (ho : session.Open rules)
      (hs : session.observe rules = .ok observed)
      (hc : rules.choosePart observed.cursor observed.history stream = (.ok code, middle))
      (hw : rules.nextWord observed.cursor code observed.pending observed.history observed.used
        middle = (.ok (.word entry), pending, rest))
      (hf : rules.render entry code observed.situation = .error error) :
      Transition rules session stream (.error error) { observed with pending } rest
  | places {pending : Pending} (ho : session.Open rules)
      (hs : session.observe rules = .ok observed)
      (hc : rules.choosePart observed.cursor observed.history stream = (.ok code, middle))
      (hw : rules.nextWord observed.cursor code observed.pending observed.history observed.used
        middle = (.ok (.word entry), pending, rest))
      (hf : rules.render entry code observed.situation = .ok form) :
      Transition rules session stream (.ok (.word entry code form))
        { observed with pending, cursor := ⟨code, some entry⟩, forms := observed.forms ++ [form] }
        rest

theorem step_transition (rules : Rules) (session : Session) (stream : RandomStream) :
    Transition rules session stream (session.step rules stream).1 (session.step rules stream).2.1
      (session.step rules stream).2.2 := by
  rw [step]
  by_cases hf : session.finished = true
  · rw [if_pos hf]
    exact .ended hf
  rw [if_neg hf]
  by_cases hl : rules.config.maxSentenceLength ≤ session.forms.length
  · rw [if_pos hl]
    exact .tooLong (by simpa using hf) hl
  rw [if_neg hl]
  have ho : session.Open rules := ⟨by simpa using hf, by omega⟩
  cases hs : session.observe rules with
  | error error => exact .unknown ho hs
  | ok observed =>
    dsimp only
    rcases hc : rules.choosePart observed.cursor observed.history stream with ⟨error | code, middle⟩
    · exact .partless ho hs hc
    · dsimp only
      rcases hw : rules.nextWord observed.cursor code observed.pending observed.history
        observed.used middle with ⟨error | next, pending, rest⟩
      · exact .wordless ho hs hc hw
      · cases next with
        | finish => exact .finishes ho hs hc hw
        | word entry =>
          dsimp only
          rw [place]
          dsimp only
          cases hform : rules.render entry code observed.situation with
          | error error => exact .formless ho hs hc hw hform
          | ok form => exact .places ho hs hc hw hform

end Session

end SentenceWalk
