import SentenceWalk.Proofs.Run

namespace SentenceWalk

structure Draws where
  parts : Nat := 0
  words : Nat := 0

namespace Rules

def choosePartCounted (rules : Rules) (cursor : Cursor) (history : History) :
    Nat → RandomStream → (Except WalkError String × RandomStream) × Nat
  | 0, stream => ((.error (.partRetries cursor.code rules.config.partRetryLimit), stream), 0)
  | draws + 1, stream =>
    match rules.drawPart cursor history stream with
    | (.ok (.part code), stream) => ((.ok code, stream), 1)
    | (.ok .retry, stream) =>
      let (result, made) := choosePartCounted rules cursor history draws stream
      (result, made + 1)
    | (.error error, stream) => ((.error error, stream), 1)

def matchCounted (rules : Rules) (target : String) (pool : List Entry) (pending : Pending) :
    Nat → RandomStream → (Except WalkError Entry × Pending × RandomStream) × Nat
  | 0, stream =>
    ((.error (.exhaustedRetries target rules.config.matchRetryLimit), pending, stream), 0)
  | draws + 1, stream =>
    match stream.choose pool with
    | (none, stream) => ((.error (.poolExhausted target), pending, stream), 1)
    | (some entry, stream) =>
      if entry.word.hasRequirements then
        let narrowed := pending.active ∩ rules.requirements entry
        if narrowed.isEmpty then
          let (result, made) := matchCounted rules target pool pending draws stream
          (result, made + 1)
        else ((.ok entry, { pending with active := narrowed }, stream), 1)
      else ((.ok entry, pending, stream), 1)

def pickCounted (rules : Rules) (target : String) (role : Role) (pool : List Entry)
    (history : History) (pending : Pending) (stream : RandomStream) :
    (Except WalkError Entry × Pending × RandomStream) × Nat :=
  if role.isModifier && (pending.isConstrained || history.inConjunction) then
    if pool.isEmpty then ((.error (.poolExhausted target), pending, stream), 0)
    else
      rules.matchCounted target pool pending.seedFromReserve rules.config.matchRetryLimit stream
  else
    match stream.choose pool with
    | (some entry, stream) => ((.ok entry, pending, stream), 1)
    | (none, stream) => ((.error (.poolExhausted target), pending, stream), 1)

def nextWordCounted (rules : Rules) (cursor : Cursor) (target : String) (pending : Pending)
    (history : History) (used : UsedWords) (stream : RandomStream) :
    (Except WalkError NextWord × Pending × RandomStream) × Nat :=
  match rules.language.grammar.part target with
  | .error error => ((.error (.grammar error), pending, stream), 0)
  | .ok part =>
    if part.isTerminal then ((.ok .finish, pending, stream), 0)
    else
      let (pool, pending) := rules.offer part (rules.pendingAfter cursor history pending)
      let pool := withoutUsed pool used history
      let ((result, pending, stream), made) :=
        rules.pickCounted target part.role pool history pending stream
      ((result.map .word, pending, stream), made)

end Rules

def Session.stepCounted (rules : Rules) (session : Session) (stream : RandomStream) :
    (Except WalkError Step × Session × RandomStream) × Draws :=
  if session.finished then ((.ok .finish, session, stream), {})
  else if rules.config.maxSentenceLength ≤ session.forms.length then
    ((.error (.sentenceTooLong rules.config.maxSentenceLength), session, stream), {})
  else
    match session.observe rules with
    | .error error => ((.error error, session, stream), {})
    | .ok session =>
      match rules.choosePartCounted session.cursor session.history rules.config.partRetryLimit
        stream with
      | ((.error error, stream), parts) => ((.error error, session, stream), { parts })
      | ((.ok code, stream), parts) =>
        let ((next, pending, stream), words) := rules.nextWordCounted session.cursor code
          session.pending session.history session.used stream
        let session := { session with pending }
        match next with
        | .error error => ((.error error, session, stream), { parts, words })
        | .ok .finish =>
          ((.ok .finish, { session with finished := true }, stream), { parts, words })
        | .ok (.word entry) =>
          let (result, session) := session.place rules entry code
          ((result, session, stream), { parts, words })

variable {rules : Rules} {steps : Nat} {session last : Session}
variable {stream rest : RandomStream} {answer : Except WalkError String}

namespace Rules

theorem choosePartCounted_spec (cursor : Cursor) (history : History) (draws : Nat)
    (stream : RandomStream) :
    (rules.choosePartCounted cursor history draws stream).1 =
        rules.choosePartWithin cursor history draws stream ∧
      (rules.choosePartCounted cursor history draws stream).2 ≤ draws := by
  induction draws generalizing stream with
  | zero => exact ⟨rfl, Nat.le_refl 0⟩
  | succ draws ih =>
    rw [choosePartCounted, choosePartWithin]
    rcases rules.drawPart cursor history stream with ⟨error | drawn, rest⟩
    · exact ⟨rfl, Nat.le_add_left 1 draws⟩
    · cases drawn with
      | part code => exact ⟨rfl, Nat.le_add_left 1 draws⟩
      | retry =>
        obtain ⟨hsame, hmade⟩ := ih rest
        exact ⟨hsame, Nat.succ_le_succ hmade⟩

theorem matchCounted_spec (target : String) (pool : List Entry) (pending : Pending) (draws : Nat)
    (stream : RandomStream) :
    (rules.matchCounted target pool pending draws stream).1 =
        rules.matchWithin target pool pending draws stream ∧
      (rules.matchCounted target pool pending draws stream).2 ≤ draws := by
  induction draws generalizing stream with
  | zero => exact ⟨rfl, Nat.le_refl 0⟩
  | succ draws ih =>
    rw [matchCounted, matchWithin]
    rcases stream.choose pool with ⟨_ | entry, rest⟩
    · exact ⟨rfl, Nat.le_add_left 1 draws⟩
    · dsimp only
      split
      · split
        · obtain ⟨hsame, hmade⟩ := ih rest
          exact ⟨hsame, Nat.succ_le_succ hmade⟩
        · exact ⟨rfl, Nat.le_add_left 1 draws⟩
      · exact ⟨rfl, Nat.le_add_left 1 draws⟩

theorem pickCounted_spec (target : String) (role : Role) (pool : List Entry) (history : History)
    (pending : Pending) (stream : RandomStream) :
    (rules.pickCounted target role pool history pending stream).1 =
        rules.pick target role pool history pending stream ∧
      (rules.pickCounted target role pool history pending stream).2 ≤
        max 1 rules.config.matchRetryLimit := by
  rw [pickCounted, pick, matchRequirements]
  split
  · split
    · exact ⟨rfl, Nat.zero_le _⟩
    · obtain ⟨hsame, hmade⟩ := rules.matchCounted_spec target pool pending.seedFromReserve
        rules.config.matchRetryLimit stream
      exact ⟨hsame, Nat.le_trans hmade (Nat.le_max_right 1 _)⟩
  · rcases stream.choose pool with ⟨_ | entry, rest⟩
    · exact ⟨rfl, Nat.le_max_left 1 _⟩
    · exact ⟨rfl, Nat.le_max_left 1 _⟩

theorem nextWordCounted_spec (cursor : Cursor) (target : String) (pending : Pending)
    (history : History) (used : UsedWords) (stream : RandomStream) :
    (rules.nextWordCounted cursor target pending history used stream).1 =
        rules.nextWord cursor target pending history used stream ∧
      (rules.nextWordCounted cursor target pending history used stream).2 ≤
        max 1 rules.config.matchRetryLimit := by
  rw [nextWordCounted, nextWord]
  rcases rules.language.grammar.part target with error | part
  · exact ⟨rfl, Nat.zero_le _⟩
  · dsimp only
    split
    · exact ⟨rfl, Nat.zero_le _⟩
    · obtain ⟨hsame, hmade⟩ := rules.pickCounted_spec target part.role
        (withoutUsed (rules.offer part (rules.pendingAfter cursor history pending)).1 used history)
        history (rules.offer part (rules.pendingAfter cursor history pending)).2 stream
      rw [← hsame]
      exact ⟨rfl, hmade⟩

end Rules

namespace Session

theorem stepCounted_spec (session : Session) (stream : RandomStream) :
    (session.stepCounted rules stream).1 = session.step rules stream ∧
      (session.stepCounted rules stream).2.parts ≤ rules.config.partRetryLimit ∧
      (session.stepCounted rules stream).2.words ≤ max 1 rules.config.matchRetryLimit := by
  rw [stepCounted, step]
  split
  · exact ⟨rfl, Nat.zero_le _, Nat.zero_le _⟩
  split
  · exact ⟨rfl, Nat.zero_le _, Nat.zero_le _⟩
  rcases session.observe rules with error | observed
  · exact ⟨rfl, Nat.zero_le _, Nat.zero_le _⟩
  obtain ⟨hsame, hparts⟩ := rules.choosePartCounted_spec observed.cursor observed.history
    rules.config.partRetryLimit stream
  dsimp only
  rw [Rules.choosePart, ← hsame]
  generalize rules.choosePartCounted observed.cursor observed.history rules.config.partRetryLimit
    stream = chosen at hparts ⊢
  rcases chosen with ⟨⟨error | code, middle⟩, parts⟩
  · exact ⟨rfl, hparts, Nat.zero_le _⟩
  obtain ⟨hsame, hwords⟩ := rules.nextWordCounted_spec observed.cursor code observed.pending
    observed.history observed.used middle
  dsimp only
  rw [← hsame]
  generalize rules.nextWordCounted observed.cursor code observed.pending observed.history
    observed.used middle = chosen at hwords ⊢
  rcases chosen with ⟨⟨error | next, pending, rest⟩, words⟩
  · exact ⟨rfl, hparts, hwords⟩
  · cases next with
    | finish => exact ⟨rfl, hparts, hwords⟩
    | word entry => exact ⟨rfl, hparts, hwords⟩

theorem trace_of_finished (hf : session.finished = true) (steps : Nat) (stream : RandomStream) :
    session.trace rules steps stream = List.replicate steps (.ok .finish, session, stream) := by
  induction steps with
  | zero => rfl
  | succ steps ih =>
    have hstep : session.step rules stream = (.ok .finish, session, stream) := by
      rw [step, if_pos hf]
    rw [trace, hstep, List.replicate_succ, ih]

theorem Runs.finished {sentence : String}
    (h : Runs rules steps session stream (.ok sentence) last rest) :
    last.finished = true ∧ sentence = last.sentence := by
  generalize hanswer : Except.ok sentence = answer at h
  induction h with
  | ends hs =>
    cases hanswer
    exact ⟨(step_finish hs).1, rfl⟩
  | fails hs => cases hanswer
  | goesOn _ _ ih => exact ih hanswer

theorem Runs.length_le (h : Runs rules steps session stream answer last rest)
    (hl : session.forms.length ≤ rules.config.maxSentenceLength) :
    last.forms.length ≤ rules.config.maxSentenceLength := by
  induction h with
  | ends hs =>
    rw [(step_finish hs).2]
    exact hl
  | fails hs =>
    rw [step_error hs]
    exact hl
  | goesOn hs _ ih =>
    obtain ⟨hopen, _, _⟩ := step_word hs
    have hnext := length_step_word hs
    exact ih (hnext ▸ hopen.2)

/-- Taking steps up to the end of the sentence comes to an end soon, no step draws often, and the
end is final. -/
theorem run_ends (rules : Rules) (start : String) (stream : RandomStream) :
    (∃ steps ≤ rules.config.maxSentenceLength + 1, ∃ answer last rest,
      (ofStart start).run rules stream = (answer, last, rest) ∧
        Runs rules steps (ofStart start) stream answer last rest ∧
        ∀ sentence, answer = .ok sentence →
          sentence = last.sentence ∧ last.finished = true ∧
          last.forms.length ≤ rules.config.maxSentenceLength ∧
          ∀ more, last.trace rules more rest = List.replicate more (.ok .finish, last, rest)) ∧
    ∀ (session : Session) (middle : RandomStream),
      (session.stepCounted rules middle).1 = session.step rules middle ∧
        (session.stepCounted rules middle).2.parts ≤ rules.config.partRetryLimit ∧
        (session.stepCounted rules middle).2.words ≤ max 1 rules.config.matchRetryLimit := by
  refine ⟨?_, stepCounted_spec⟩
  obtain ⟨steps, hle, answer, last, rest, hrun, hruns⟩ := run_runs rules (ofStart start) stream
  refine ⟨steps, hle, answer, last, rest, hrun, hruns, ?_⟩
  rintro sentence rfl
  obtain ⟨hfinished, hsentence⟩ := hruns.finished
  have hlength := hruns.length_le (Nat.zero_le _)
  refine ⟨hsentence, hfinished, hlength, ?_⟩
  intro more
  exact trace_of_finished hfinished more rest

theorem run_ends_phrase :
    ∃ last rest,
      (ofStart "S").run Sample.rules (.ofSeed 0) = (.ok "into old town but", last, rest) ∧
      last.finished = true ∧ last.forms.length ≤ 64 ∧
      last.trace Sample.rules 2 rest = [(.ok .finish, last, rest), (.ok .finish, last, rest)] := by
  obtain ⟨last, rest, _, hphrase⟩ := run_phrase
  obtain ⟨⟨_, _, _, _, _, hrun, _, hend⟩, _⟩ := run_ends Sample.rules "S" (.ofSeed 0)
  cases hrun.symm.trans hphrase
  obtain ⟨_, hfinished, hlength, hlater⟩ := hend _ rfl
  exact ⟨last, rest, hphrase, hfinished, hlength, hlater 2⟩

end Session

end SentenceWalk
