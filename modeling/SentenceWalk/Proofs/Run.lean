import SentenceWalk.Proofs.Transition

/-!
Runs of a session, counted in steps and without a bound on their number. Since a word that is placed
makes the sentence longer, the bound of `run` is never met before the last step.
-/

namespace SentenceWalk.Session

/-- Steps until one of them finishes the sentence or fails, and how many they are. -/
inductive Runs (rules : Rules) :
    Nat → Session → RandomStream → Except WalkError String → Session → RandomStream → Prop where
  | ends (hs : session.step rules stream = (.ok .finish, last, rest)) :
      Runs rules 1 session stream (.ok last.sentence) last rest
  | fails (hs : session.step rules stream = (.error error, last, rest)) :
      Runs rules 1 session stream (.error error) last rest
  | goesOn (hs : session.step rules stream = (.ok (.word entry code form), next, middle))
      (hr : Runs rules steps next middle answer last rest) :
      Runs rules (steps + 1) session stream answer last rest

variable {rules : Rules} {steps : Nat} {session next last : Session}
variable {stream middle rest : RandomStream} {answer : Except WalkError String}
variable {entry : Entry} {code form : String}

theorem Transition.of_step {result : Except WalkError Step}
    (hs : session.step rules stream = (result, next, rest)) :
    Transition rules session stream result next rest := by
  have ht := step_transition rules session stream
  rw [hs] at ht
  exact ht

theorem step_word (hs : session.step rules stream = (.ok (.word entry code form), next, rest)) :
    session.Open rules ∧ next.forms = session.forms ++ [form] ∧ next.finished = false := by
  cases Transition.of_step hs with
  | places ho hobserve hc hw hf =>
    obtain ⟨role, hobserves⟩ := observe_ok hobserve
    refine ⟨ho, ?_, ?_⟩
    · rw [hobserves.forms]
    · exact hobserves.finished.trans ho.1

theorem length_step_word
    (hs : session.step rules stream = (.ok (.word entry code form), next, rest)) :
    next.forms.length = session.forms.length + 1 := by
  rw [(step_word hs).2.1, List.length_append, List.length_singleton]

theorem step_finish (hs : session.step rules stream = (.ok .finish, next, rest)) :
    next.finished = true ∧ next.forms = session.forms := by
  cases Transition.of_step hs with
  | ended hf => exact ⟨hf, rfl⟩
  | finishes ho hobserve hc hw =>
    obtain ⟨role, hobserves⟩ := observe_ok hobserve
    exact ⟨rfl, hobserves.forms⟩

theorem step_error {error : WalkError}
    (hs : session.step rules stream = (.error error, next, rest)) : next.forms = session.forms := by
  cases Transition.of_step hs with
  | tooLong hf hl => rfl
  | unknown ho hobserve => rfl
  | partless ho hobserve hc =>
    obtain ⟨role, hobserves⟩ := observe_ok hobserve
    exact hobserves.forms
  | wordless ho hobserve hc hw =>
    obtain ⟨role, hobserves⟩ := observe_ok hobserve
    exact hobserves.forms
  | formless ho hobserve hc hw hf =>
    obtain ⟨role, hobserves⟩ := observe_ok hobserve
    exact hobserves.forms

theorem Runs.isPrefix_forms (h : Runs rules steps session stream answer last rest) :
    session.forms <+: last.forms := by
  induction h with
  | ends hs => exact (step_finish hs).2 ▸ List.prefix_rfl
  | fails hs => exact step_error hs ▸ List.prefix_rfl
  | goesOn hs _ ih =>
    rw [(step_word hs).2.1] at ih
    exact (List.prefix_append _ _).trans ih

theorem Runs.unique {steps' : Nat} {answer' : Except WalkError String} {last' : Session}
    {rest' : RandomStream} (h : Runs rules steps session stream answer last rest)
    (h' : Runs rules steps' session stream answer' last' rest') :
    (steps, answer, last, rest) = (steps', answer', last', rest') := by
  induction h generalizing steps' with
  | ends hs =>
    cases h' with
    | ends hs' =>
      cases hs.symm.trans hs'
      rfl
    | fails hs' => cases hs.symm.trans hs'
    | goesOn hs' _ => cases hs.symm.trans hs'
  | fails hs =>
    cases h' with
    | ends hs' => cases hs.symm.trans hs'
    | fails hs' =>
      cases hs.symm.trans hs'
      rfl
    | goesOn hs' _ => cases hs.symm.trans hs'
  | goesOn hs _ ih =>
    cases h' with
    | ends hs' => cases hs.symm.trans hs'
    | fails hs' => cases hs.symm.trans hs'
    | goesOn hs' hr' =>
      cases hs.symm.trans hs'
      cases ih hr'
      rfl

theorem runWithin_succ_cases (rules : Rules) (session : Session) (left : Nat)
    (stream : RandomStream) :
    (∃ answer last rest, runWithin rules (left + 1) session stream = (answer, last, rest) ∧
      Runs rules 1 session stream answer last rest) ∨
    ∃ entry code form next middle,
      session.step rules stream = (.ok (.word entry code form), next, middle) ∧
        runWithin rules (left + 1) session stream = runWithin rules left next middle := by
  rw [runWithin]
  rcases hs : session.step rules stream with ⟨error | step, next, middle⟩
  · exact .inl ⟨_, _, _, rfl, .fails hs⟩
  · cases step with
    | finish => exact .inl ⟨_, _, _, rfl, .ends hs⟩
    | word entry code form => exact .inr ⟨entry, code, form, next, middle, rfl, rfl⟩

/-- So many steps as the sentence may still grow by words, and one more, come to an end. -/
theorem runWithin_runs {growth : Nat}
    (h : rules.config.maxSentenceLength ≤ session.forms.length + growth) (stream : RandomStream) :
    ∃ steps ≤ growth + 1, ∃ answer last rest,
      runWithin rules (growth + 1) session stream = (answer, last, rest) ∧
        Runs rules steps session stream answer last rest := by
  induction growth generalizing session stream with
  | zero =>
    obtain ⟨answer, last, rest, hrun, hruns⟩ | ⟨_, _, _, _, _, hs, _⟩ :=
      runWithin_succ_cases rules session 0 stream
    · exact ⟨1, Nat.le_refl 1, answer, last, rest, hrun, hruns⟩
    · have hopen := (step_word hs).1.2
      omega
  | succ growth ih =>
    obtain ⟨answer, last, rest, hrun, hruns⟩ | ⟨_, _, _, next, middle, hs, hrun⟩ :=
      runWithin_succ_cases rules session (growth + 1) stream
    · exact ⟨1, Nat.le_add_left 1 _, answer, last, rest, hrun, hruns⟩
    · have hlonger := length_step_word hs
      have hgrowth : rules.config.maxSentenceLength ≤ next.forms.length + growth := by omega
      obtain ⟨steps, hle, answer, last, rest, hnext, hruns⟩ := ih hgrowth middle
      exact ⟨steps + 1, Nat.succ_le_succ hle, answer, last, rest, hrun.trans hnext,
        .goesOn hs hruns⟩

theorem run_runs (rules : Rules) (session : Session) (stream : RandomStream) :
    ∃ steps ≤ rules.config.maxSentenceLength + 1, ∃ answer last rest,
      session.run rules stream = (answer, last, rest) ∧
        Runs rules steps session stream answer last rest :=
  runWithin_runs (by omega) stream

theorem Runs.run_eq (h : Runs rules steps session stream answer last rest) :
    session.run rules stream = (answer, last, rest) := by
  obtain ⟨steps', _, answer', last', rest', hrun, hruns⟩ := run_runs rules session stream
  cases h.unique hruns
  exact hrun

theorem runs_of_run (h : session.run rules stream = (answer, last, rest)) :
    ∃ steps ≤ rules.config.maxSentenceLength + 1,
      Runs rules steps session stream answer last rest := by
  obtain ⟨steps, hle, answer', last', rest', hrun, hruns⟩ := run_runs rules session stream
  cases h.symm.trans hrun
  exact ⟨steps, hle, hruns⟩

theorem run_phrase : ∃ last rest, last.forms.length = 4 ∧
    (ofStart "S").run Sample.rules (.ofSeed 0) = (.ok "into old town but", last, rest) := by
  have hok : ((ofStart "S").run Sample.rules (.ofSeed 0)).1 = .ok "into old town but" :=
    eq_ok_of_toOption (by decide +kernel)
  have hl : ((ofStart "S").run Sample.rules (.ofSeed 0)).2.1.forms.length = 4 := by decide +kernel
  rcases hrun : (ofStart "S").run Sample.rules (.ofSeed 0) with ⟨answer, last, rest⟩
  rw [hrun] at hok hl
  cases hok
  exact ⟨last, rest, hl, rfl⟩

end SentenceWalk.Session
