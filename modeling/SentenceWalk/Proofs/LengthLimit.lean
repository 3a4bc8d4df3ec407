import SentenceWalk.Proofs.Run

namespace SentenceWalk

/-- The rules under which sentences have fewer than `limit` words. -/
def Rules.withLimit (rules : Rules) (limit : Nat) : Rules :=
  { rules with config := { rules.config with maxSentenceLength := limit } }

variable {rules : Rules} {limit steps : Nat} {session last : Session}
variable {stream rest : RandomStream} {answer : Except WalkError String}

namespace Rules

theorem choosePartWithin_withLimit (cursor : Cursor) (history : History) (draws : Nat)
    (stream : RandomStream) :
    (rules.withLimit limit).choosePartWithin cursor history draws stream =
      rules.choosePartWithin cursor history draws stream := by
  induction draws generalizing stream with
  | zero => rfl
  | succ draws ih =>
    have hdraw : (rules.withLimit limit).drawPart cursor history stream =
        rules.drawPart cursor history stream := rfl
    rw [choosePartWithin, choosePartWithin, hdraw]
    rcases rules.drawPart cursor history stream with ⟨error | drawn, rest⟩
    · rfl
    · cases drawn with
      | part code => rfl
      | retry => exact ih rest

theorem choosePart_withLimit (cursor : Cursor) (history : History) (stream : RandomStream) :
    (rules.withLimit limit).choosePart cursor history stream =
      rules.choosePart cursor history stream :=
  choosePartWithin_withLimit cursor history rules.config.partRetryLimit stream

theorem matchWithin_withLimit (target : String) (pool : List Entry) (pending : Pending)
    (draws : Nat) (stream : RandomStream) :
    (rules.withLimit limit).matchWithin target pool pending draws stream =
      rules.matchWithin target pool pending draws stream := by
  induction draws generalizing stream with
  | zero => rfl
  | succ draws ih =>
    have hreq (entry : Entry) :
        (rules.withLimit limit).requirements entry = rules.requirements entry := rfl
    rw [matchWithin, matchWithin]
    rcases stream.choose pool with ⟨_ | entry, rest⟩
    · rfl
    · dsimp only
      rw [ih, hreq]

theorem pick_withLimit (target : String) (role : Role) (pool : List Entry) (history : History)
    (pending : Pending) (stream : RandomStream) :
    (rules.withLimit limit).pick target role pool history pending stream =
      rules.pick target role pool history pending stream := by
  have hdraws : (rules.withLimit limit).config.matchRetryLimit = rules.config.matchRetryLimit := rfl
  rw [pick, pick, matchRequirements, matchRequirements, matchWithin_withLimit, hdraws]

theorem nextWord_withLimit (cursor : Cursor) (target : String) (pending : Pending)
    (history : History) (used : UsedWords) (stream : RandomStream) :
    (rules.withLimit limit).nextWord cursor target pending history used stream =
      rules.nextWord cursor target pending history used stream := by
  have hpart : (rules.withLimit limit).language.grammar.part target =
      rules.language.grammar.part target := rfl
  rw [nextWord, nextWord, hpart]
  rcases rules.language.grammar.part target with error | part
  · rfl
  · have hoffer : (rules.withLimit limit).offer part
        ((rules.withLimit limit).pendingAfter cursor history pending) =
          rules.offer part (rules.pendingAfter cursor history pending) := rfl
    dsimp only
    rw [hoffer, pick_withLimit]

end Rules

namespace Session

theorem step_withLimit (hl : session.forms.length < limit)
    (hm : session.forms.length < rules.config.maxSentenceLength) (stream : RandomStream) :
    session.step (rules.withLimit limit) stream = session.step rules stream := by
  have hlimit : (rules.withLimit limit).config.maxSentenceLength = limit := rfl
  have hobserve : session.observe (rules.withLimit limit) = session.observe rules := rfl
  rw [step, step, hlimit, if_neg (Nat.not_le_of_lt hl), if_neg (Nat.not_le_of_lt hm), hobserve]
  rcases session.observe rules with error | observed
  · rfl
  · dsimp only
    rw [Rules.choosePart_withLimit]
    rcases rules.choosePart observed.cursor observed.history stream with ⟨error | code, middle⟩
    · rfl
    · dsimp only
      rw [Rules.nextWord_withLimit]
      rfl

theorem Runs.withLimit (h : Runs rules steps session stream answer last rest)
    (hm : limit ≤ rules.config.maxSentenceLength) (hl : last.forms.length < limit) :
    Runs (rules.withLimit limit) steps session stream answer last rest := by
  have hle := h.isPrefix_forms.length_le
  induction h with
  | ends hs => exact .ends ((step_withLimit (by omega) (by omega) _).trans hs)
  | fails hs => exact .fails ((step_withLimit (by omega) (by omega) _).trans hs)
  | goesOn hs hr ih =>
    have hruns := ih hl hr.isPrefix_forms.length_le
    exact .goesOn ((step_withLimit (by omega) (by omega) _).trans hs) hruns

theorem step_at_limit (hf : session.finished = false) (hl : limit ≤ session.forms.length)
    (stream : RandomStream) :
    session.step (rules.withLimit limit) stream =
      (.error (.sentenceTooLong limit), session, stream) := by
  have hlimit : (rules.withLimit limit).config.maxSentenceLength = limit := rfl
  rw [step, hf, if_neg Bool.false_ne_true, hlimit, if_pos hl]

/-- A run that fails because it has reached `limit` words, which are the first of `forms`. -/
def CutOff (rules : Rules) (limit : Nat) (forms : List String) (session : Session)
    (stream : RandomStream) : Prop :=
  ∃ steps last rest, last.forms = forms.take limit ∧
    Runs (rules.withLimit limit) steps session stream (.error (.sentenceTooLong limit)) last rest

theorem cutOff_at_limit {forms : List String} (hf : session.finished = false)
    (hl : session.forms.length = limit) (hp : session.forms <+: forms) (stream : RandomStream) :
    CutOff rules limit forms session stream := by
  refine ⟨1, session, stream, ?_, .fails (step_at_limit hf (Nat.le_of_eq hl.symm) stream)⟩
  rw [← hl]
  exact List.prefix_iff_eq_take.1 hp

theorem Runs.cutOff (h : Runs rules steps session stream answer last rest)
    (hm : limit ≤ rules.config.maxSentenceLength) (hl : limit ≤ last.forms.length)
    (hf : session.finished = false) (hle : session.forms.length ≤ limit) :
    CutOff rules limit last.forms session stream := by
  have hp := h.isPrefix_forms
  induction h with
  | ends hs =>
    rw [(step_finish hs).2] at hl
    exact cutOff_at_limit hf (Nat.le_antisymm hle hl) hp _
  | fails hs =>
    rw [step_error hs] at hl
    exact cutOff_at_limit hf (Nat.le_antisymm hle hl) hp _
  | goesOn hs hr ih =>
    rcases Nat.lt_or_eq_of_le hle with hlt | heq
    · obtain ⟨_, _, hopen⟩ := step_word hs
      have hnext := length_step_word hs
      obtain ⟨steps', last', rest', hfirst, hruns⟩ := ih hl hopen (by omega) hr.isPrefix_forms
      have hstep := (step_withLimit hlt (by omega) _).trans hs
      exact ⟨steps' + 1, last', rest', hfirst, .goesOn hstep hruns⟩
    · exact cutOff_at_limit hf heq hp _

/-- A sentence that ends below a smaller limit comes about under that limit in the same way. Any
other is given up when it has as many words as the limit says. -/
theorem run_withLimit {start : String} (hm : limit ≤ rules.config.maxSentenceLength)
    (h : (ofStart start).run rules stream = (answer, last, rest)) :
    (last.forms.length < limit →
      (ofStart start).run (rules.withLimit limit) stream = (answer, last, rest)) ∧
    (limit ≤ last.forms.length →
      ∃ last' rest', last'.forms = last.forms.take limit ∧
        (ofStart start).run (rules.withLimit limit) stream =
          (.error (.sentenceTooLong limit), last', rest')) := by
  obtain ⟨steps, _, hruns⟩ := runs_of_run h
  constructor
  · intro hl
    exact (hruns.withLimit hm hl).run_eq
  · intro hl
    obtain ⟨steps', last', rest', hfirst, hcut⟩ := hruns.cutOff hm hl rfl (Nat.zero_le limit)
    exact ⟨last', rest', hfirst, hcut.run_eq⟩

theorem run_withLimit_phrase :
    ∃ last rest, last.forms.length < 5 ∧
      (ofStart "S").run Sample.rules (.ofSeed 0) = (.ok "into old town but", last, rest) ∧
      (ofStart "S").run (Sample.rules.withLimit 5) (.ofSeed 0) =
        (.ok "into old town but", last, rest) := by
  obtain ⟨last, rest, hl, hrun⟩ := run_phrase
  have hshort : last.forms.length < 5 := by omega
  exact ⟨last, rest, hshort, hrun, (run_withLimit (by decide) hrun).1 hshort⟩

/-- Four words end the sentence, yet under a limit of four words they are said to exceed it. -/
theorem sentence_at_limit_is_given_up :
    ∃ last rest, last.forms.length = 4 ∧
      (ofStart "S").run Sample.rules (.ofSeed 0) = (.ok "into old town but", last, rest) ∧
      ((ofStart "S").run (Sample.rules.withLimit 4) (.ofSeed 0)).1 =
        .error (.sentenceTooLong 4) := by
  obtain ⟨last, rest, hl, hrun⟩ := run_phrase
  obtain ⟨_, _, hruns⟩ := runs_of_run hrun
  obtain ⟨_, _, _, _, hcut⟩ := hruns.cutOff (by decide) (Nat.le_of_eq hl.symm) rfl (Nat.zero_le 4)
  exact ⟨last, rest, hl, hrun, congrArg Prod.fst hcut.run_eq⟩

end Session

end SentenceWalk
