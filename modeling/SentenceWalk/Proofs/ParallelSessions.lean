import SentenceWalk.Proofs.Likeness
import SentenceWalk.Proofs.PrepositionChange

namespace SentenceWalk

/-- What a step tells of its word: the place in the word table, the part-of-speech and the form. -/
inductive Report where
  | word (id : Nat) (code form : String)
  | finish
  deriving DecidableEq, Repr

def Step.report : Step → Report
  | .word entry code form => .word entry.id code form
  | .finish => .finish

namespace Session

/-- What can be seen of a session after each of its first steps: the answer, what is pending, the
sentence so far, and the stream. -/
def transcript (rules : Rules) (session : Session) (steps : Nat) (stream : RandomStream) :
    List (Except WalkError Report × Pending × String × RandomStream) :=
  (session.trace rules steps stream).map fun item =>
    (item.1.map Step.report, item.2.1.pending, item.2.1.sentence, item.2.2)

/-- Sessions that differ at most in how the word at the cursor is written down. -/
def Like (session other : Session) : Prop :=
  ∃ cursor, session.cursor.Like cursor ∧ other = { session with cursor }

structure StepsAlike (result other : Except WalkError Step × Session × RandomStream) : Prop where
  report : other.1.map Step.report = result.1.map Step.report
  session : result.2.1.Like other.2.1
  stream : other.2.2 = result.2.2

/-- The name that is barred, if there is any, has a class that the grammar draws. -/
def Grounded (rules : Rules) (session : Session) : Prop :=
  ∀ barred, session.barred? rules = some barred → rules.language.grammar.Draws barred.tag

variable {rules other : Rules} {session session' observed observed' : Session}
variable {stream : RandomStream}

theorem Like.ofStart (start : String) : (ofStart start).Like (ofStart start) :=
  ⟨_, ⟨rfl, .none⟩, rfl⟩

theorem grounded_ofStart (start : String) : (ofStart start).Grounded rules := by
  intro barred h
  rw [barred?, Cursor.preposition?] at h
  split at h <;> cases h

theorem draws_of_placed {word : Placement} (h : (session.step rules stream).1 = word.answer) :
    rules.language.grammar.Draws word.entry.word.tag := by
  obtain ⟨observed, middle, pending, _, _, hword, _⟩ := step_placed h
  obtain ⟨part, hp⟩ := Rules.part_of_word (congrArg Prod.fst hword)
  obtain ⟨part, hp, _, _, htag⟩ := Rules.offers_of_word hp (congrArg Prod.fst hword)
  exact ⟨_, part, hp, htag⟩

theorem Grounded.step (h : session.Grounded rules) (stream : RandomStream) :
    (session.step rules stream).2.1.Grounded rules := by
  intro barred hbarred
  rw [barred?_step, Option.or_eq_some_iff] at hbarred
  rcases hbarred with hplaced | ⟨_, hbefore⟩
  · obtain ⟨word, hword, hpreposition⟩ := Option.bind_eq_some_iff.1 hplaced
    have hdraws := draws_of_placed (Placement.ofAnswer?_eq_some hword)
    rw [Cursor.preposition?] at hpreposition
    split at hpreposition
    · cases hpreposition
      exact hdraws
    · cases hpreposition
  · exact h barred hbefore

theorem Grounded.knowing {role : Role} (h : session.Grounded rules)
    (ho : Observes rules session role observed) : rules.Knowing observed.history := by
  intro preposition hlast
  exact h preposition (ho.lastPreposition.symm.trans hlast)

theorem Like.observe (h : session.Like session') (ha : rules.Alike other) :
    (∃ error, session.observe rules = .error error ∧ session'.observe other = .error error) ∨
    ∃ observed observed', session.observe rules = .ok observed ∧
      session'.observe other = .ok observed' ∧ observed.Like observed' := by
  obtain ⟨cursor, hc, rfl⟩ := h
  have hentry := hc.entry
  rw [Session.observe, Session.observe, ha.grammar, ha.config]
  dsimp only
  rw [hc.code]
  cases rules.language.grammar.role session.cursor.code with
  | error error => exact .inl ⟨_, rfl, rfl⟩
  | ok role =>
    right
    dsimp only
    generalize session.cursor.entry = entry, cursor.entry = entry' at hentry ⊢
    cases hentry with
    | none => exact ⟨_, _, rfl, rfl, cursor, hc, rfl⟩
    | @some first second hlike =>
      refine ⟨_, _, rfl, rfl, cursor, hc, ?_⟩
      dsimp only
      rw [hlike.word.name, hlike.word.tag]

theorem Like.step (h : session.Like session') (ha : rules.Alike other)
    (hg : session.Grounded rules) (stream : RandomStream) :
    StepsAlike (session.step rules stream) (session'.step other stream) := by
  have hobserve := h.observe ha
  have hl := h
  obtain ⟨cursor, hc, rfl⟩ := h
  rw [Session.step, Session.step, ha.config]
  dsimp only
  by_cases hf : session.finished = true
  · rw [if_pos hf, if_pos hf]
    exact ⟨rfl, hl, rfl⟩
  rw [if_neg hf, if_neg hf]
  by_cases hlong : rules.config.maxSentenceLength ≤ session.forms.length
  · rw [if_pos hlong, if_pos hlong]
    exact ⟨rfl, hl, rfl⟩
  rw [if_neg hlong, if_neg hlong]
  obtain ⟨error, hs, hs'⟩ | ⟨observed, observed', hs, hs', cursor', hc', rfl⟩ := hobserve
  · rw [hs, hs']
    exact ⟨rfl, hl, rfl⟩
  obtain ⟨role, hobserves⟩ := observe_ok hs
  rw [hs, hs']
  dsimp only
  -- From here on both have the same history, so that the same part is drawn with the same words.
  rw [ha.choosePart hc' (hg.knowing hobserves)]
  rcases rules.choosePart observed.cursor observed.history stream with ⟨error | code, middle⟩
  · exact ⟨rfl, ⟨cursor', hc', rfl⟩, rfl⟩
  dsimp only
  have hnext := ha.nextWord hc' code observed.pending observed.history observed.used middle
  generalize rules.nextWord observed.cursor code _ _ _ middle = next at hnext ⊢
  generalize other.nextWord cursor' code _ _ _ middle = next' at hnext ⊢
  cases hnext with
  | error error rest => exact ⟨rfl, ⟨cursor', hc', rfl⟩, rfl⟩
  | ok hlike rest =>
    cases hlike with
    | finish => exact ⟨rfl, ⟨cursor', hc', rfl⟩, rfl⟩
    | @word entry entry' hentry =>
      dsimp only
      rw [place, place]
      dsimp only
      rw [ha.render hentry]
      cases rules.render entry code observed.situation with
      | error error => exact ⟨rfl, ⟨cursor', hc', rfl⟩, rfl⟩
      | ok form =>
        refine ⟨?_, ⟨⟨code, some entry'⟩, ⟨rfl, .some hentry⟩, rfl⟩, rfl⟩
        simp only [Except.map, Step.report, hentry.id]

theorem Like.transcript (h : session.Like session') (ha : rules.Alike other)
    (hg : session.Grounded rules) (steps : Nat) (stream : RandomStream) :
    session'.transcript other steps stream = session.transcript rules steps stream := by
  induction steps generalizing session session' stream with
  | zero => rfl
  | succ steps ih =>
    obtain ⟨hreport, hsession, hstream⟩ := h.step ha hg stream
    have hrest := ih hsession (hg.step stream) (session.step rules stream).2.2
    rw [Session.transcript, Session.transcript] at hrest ⊢
    rw [trace, trace, List.map_cons, List.map_cons, hstream, hrest]
    obtain ⟨cursor, _, hnext⟩ := hsession
    rw [hreport, hnext]
    rfl

theorem transcript_ofStart (ha : rules.Alike other) (steps : Nat) (stream : RandomStream) :
    (ofStart other.language.grammar.start).transcript other steps stream =
      (ofStart rules.language.grammar.start).transcript rules steps stream := by
  rw [ha.grammar]
  exact (Like.ofStart _).transcript ha (grounded_ofStart _) steps stream

end Session

end SentenceWalk
