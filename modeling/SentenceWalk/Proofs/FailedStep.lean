import SentenceWalk.Proofs.RequirementMatch
import SentenceWalk.Proofs.SessionRecords

namespace SentenceWalk

theorem UsedWords.insert_insert (used : UsedWords) (name : String) :
    (used.insert name).insert name = used.insert name := by
  apply insert_of_contains
  rw [contains_insert]
  simp

theorem Situation.observe_observe (situation : Situation) (role : Role) (name trigger : String) :
    (situation.observe role name trigger).observe role name trigger =
      situation.observe role name trigger := by
  cases role <;> rfl

namespace Session

variable {rules : Rules} {past : List Placement} {session observed next : Session}
variable {role role' : Role} {answer : Except WalkError Step} {error : WalkError}
variable {stream rest : RandomStream}

theorem exists_error_of_stumbles (h : stumbles answer = true) :
    ∃ error, answer = .error error ∧ ∀ limit, error ≠ .sentenceTooLong limit := by
  cases answer with
  | ok step => cases h
  | error error =>
    refine ⟨error, rfl, ?_⟩
    rintro limit rfl
    cases h

/-- A session that has its place on record already, under the role. -/
structure Settled (rules : Rules) (role : Role) (session : Session) : Prop where
  role_eq : rules.language.grammar.role session.cursor.code = .ok role
  lastPreposition : (session.cursor.preposition? rules.language.grammar).or
    session.history.lastPreposition = session.history.lastPreposition
  used : (if role.isTracked then
      (session.cursor.entry.map fun entry => session.used.insert entry.word.name).getD session.used
    else session.used) = session.used
  situation : session.situation.observe role ((session.cursor.entry.map Entry.name).getD "")
    rules.config.participleTrigger = session.situation

theorem Observes.settled (ho : Observes rules session role observed) :
    Settled rules role observed where
  role_eq := by rw [ho.cursor, ho.role_eq]
  lastPreposition := by rw [ho.cursor, ho.lastPreposition, ← Option.or_assoc, Option.or_self]
  used := by
    rw [ho.cursor, ho.used]
    cases session.cursor.entry with
    | none => simp
    | some entry =>
      cases role.isTracked with
      | false => rfl
      | true => exact session.used.insert_insert entry.word.name
  situation := by rw [ho.cursor, ho.situation, Situation.observe_observe]

theorem Settled.congr (h : Settled rules role session) (hcursor : next.cursor = session.cursor)
    (hlast : next.history.lastPreposition = session.history.lastPreposition)
    (hused : next.used = session.used) (hsituation : next.situation = session.situation) :
    Settled rules role next where
  role_eq := by rw [hcursor, h.role_eq]
  lastPreposition := by rw [hcursor, hlast, h.lastPreposition]
  used := by rw [hcursor, hused, h.used]
  situation := by rw [hcursor, hsituation, h.situation]

theorem Settled.observed_eq (h : Settled rules role session)
    (ho : Observes rules session role' observed) :
    observed = { session with history := session.history.push session.cursor.code role } := by
  obtain rfl : role' = role := Except.ok.inj (ho.role_eq.symm.trans h.role_eq)
  have hcursor := ho.cursor
  have hpending := ho.pending
  have hforms := ho.forms
  have hfinished := ho.finished
  have hvisits := ho.visits
  have hlast := ho.lastPreposition.trans h.lastPreposition
  have hused := ho.used.trans h.used
  have hsituation := ho.situation.trans h.situation
  obtain ⟨cursor, pending, ⟨visits, last⟩, used, situation, forms, finished⟩ := observed
  subst hcursor hpending hforms hfinished hvisits hlast hused hsituation
  rfl

/-- A step that fails finds the sentence too long and does nothing, or it enters the cursor and then
draws in vain. -/
theorem Walks.failed (h : Walks rules past session)
    (ht : Transition rules session stream (.error error) next rest) :
    (error = .sentenceTooLong rules.config.maxSentenceLength ∧ next = session ∧ rest = stream) ∨
    (error.FromDraw ∧ session.Open rules ∧ ∃ observed,
      session.observe rules = .ok observed ∧ next = { observed with pending := next.pending }) := by
  cases ht with
  | tooLong hf hl => exact .inl ⟨rfl, rfl, rfl⟩
  | unknown ho hs => exact absurd hs (h.observe_ne_error _)
  | partless ho hs hc =>
    obtain ⟨part, hp⟩ := (h.observe hs).part
    exact .inr ⟨Rules.choosePart_error hp (congrArg Prod.fst hc), ho, next, hs, rfl⟩
  | wordless ho hs hc hw =>
    obtain ⟨_, part, hp⟩ := (h.observe hs).chosen hc
    exact .inr ⟨Rules.nextWord_error hp (congrArg Prod.fst hw), ho, _, hs, rfl⟩
  | formless ho hs hc hw hf => exact absurd hf ((h.observe hs).render_ne_error hc _ _ _)

theorem Reached.failed (h : Reached rules past session)
    (hs : (session.step rules stream).1 = .error error) :
    (error = .sentenceTooLong rules.config.maxSentenceLength ∧
      (session.step rules stream).2 = (session, stream)) ∨
    (error.FromDraw ∧ session.Open rules ∧ ∃ observed, session.observe rules = .ok observed ∧
      (session.step rules stream).2.1 =
        { observed with pending := (session.step rules stream).2.1.pending }) := by
  have ht := step_transition rules session stream
  rw [hs] at ht
  obtain ⟨he, hnext, hrest⟩ | hdrawn := h.walks.failed ht
  · exact .inl ⟨he, Prod.ext hnext hrest⟩
  · exact .inr hdrawn

theorem Settled.step (h : Settled rules role session) (hr : Reached rules past session)
    (hopen : session.Open rules) (stream : RandomStream) :
    (session.step rules stream).2.1.history = session.history.push session.cursor.code role ∧
      (session.step rules stream).2.1.used = session.used ∧
      (session.step rules stream).2.1.situation = session.situation := by
  obtain ⟨_, _, _, hclosed⟩ | ⟨observed, he⟩ :=
    hr.walks.enters (step_transition rules session stream)
  · exact absurd hopen hclosed
  · obtain ⟨role', ho⟩ := he.observes
    rw [he.history, he.used, he.situation, h.observed_eq ho]
    exact ⟨rfl, rfl, rfl⟩

theorem Settled.step_failed (h : Settled rules role session) (hr : Reached rules past session)
    (hs : stumbles (session.step rules stream).1 = true) :
    (session.step rules stream).2.1 =
      { session with
        pending := (session.step rules stream).2.1.pending
        history := session.history.push session.cursor.code role } := by
  obtain ⟨error, hanswer, hother⟩ := exists_error_of_stumbles hs
  obtain ⟨he, _⟩ | ⟨_, _, observed, hobserve, hnext⟩ := hr.failed hanswer
  · exact absurd he (hother _)
  · obtain ⟨role', ho⟩ := observe_ok hobserve
    rw [h.observed_eq ho] at hnext
    exact hnext

theorem Settled.stuck {steps : Nat} (h : Settled rules role session)
    (hr : Reached rules past session)
    (hfail : ∀ item ∈ session.trace rules steps stream, stumbles item.1 = true) :
    session.after rules steps stream =
      { session with
        pending := (session.after rules steps stream).pending
        history := { session.history with
          visits :=
            List.replicate steps ⟨session.cursor.code, role⟩ ++ session.history.visits } } := by
  -- A failed step leaves the place settled, so that the next one adds the same visit.
  induction steps generalizing past session stream with
  | zero => rfl
  | succ steps ih =>
    rw [trace] at hfail
    have hnext := h.step_failed hr (hfail _ List.mem_cons_self)
    have hlater := fun item hmem => hfail item (List.mem_cons_of_mem _ hmem)
    have hreached := hr.step stream
    rw [after]
    generalize (session.step rules stream).2.2 = rest at hlater ⊢
    generalize (session.step rules stream).2.1 = next at hnext hreached hlater ⊢
    have hsettled : Settled rules role next := by
      rw [hnext]
      exact h.congr rfl rfl rfl rfl
    have hlast := ih hsettled hreached hlater
    rw [hlast, hnext]
    simp [History.push, List.replicate_succ']

/-- A step that fails leaves the sentence as it is. If the sentence is too long it changes nothing
at all, not even the stream, and otherwise what is pending and what entering the cursor changes. To
enter the cursor again, as the next step does, whatever this comes to, only adds a visit, and so do
all further steps that fail. -/
theorem failed_step_keeps_sentence (h : Reached rules past session)
    (hs : (session.step rules stream).1 = .error error) :
    let next := (session.step rules stream).2.1
    next.forms = session.forms ∧ next.cursor = session.cursor ∧ next.finished = session.finished ∧
    ((∃ limit, error = .sentenceTooLong limit) →
      (session.step rules stream).2 = (session, stream)) ∧
    ((∀ limit, error ≠ .sentenceTooLong limit) → ∃ role observed,
      rules.language.grammar.role session.cursor.code = .ok role ∧
      session.observe rules = .ok observed ∧
      next = { observed with pending := next.pending } ∧
      (∀ stream, let again := (next.step rules stream).2.1
        again.history = next.history.push next.cursor.code role ∧ again.used = next.used ∧
          again.situation = next.situation) ∧
      ∀ steps stream, (∀ item ∈ next.trace rules steps stream, stumbles item.1 = true) →
        let last := next.after rules steps stream
        let visit : Visit := ⟨next.cursor.code, role⟩
        last = { next with
          pending := last.pending
          history := { next.history with
            visits := List.replicate steps visit ++ next.history.visits } }) := by
  intro next
  have hreached := h.step stream
  obtain ⟨he, hnext⟩ | ⟨hdrawn, hopen, observed, hobserve, hnext⟩ := h.failed hs
  · have hsame : next = session := congrArg Prod.fst hnext
    rw [hsame]
    refine ⟨rfl, rfl, rfl, fun _ => hnext, ?_⟩
    intro hother
    exact absurd he (hother _)
  · obtain ⟨role, ho⟩ := observe_ok hobserve
    have hnext : next = { observed with pending := next.pending } := hnext
    have hforms : next.forms = session.forms := (congrArg Session.forms hnext).trans ho.forms
    have hcursor : next.cursor = session.cursor := (congrArg Session.cursor hnext).trans ho.cursor
    have hfinished : next.finished = session.finished :=
      (congrArg Session.finished hnext).trans ho.finished
    have hsettled : Settled rules role next := by
      rw [hnext]
      exact ho.settled.congr rfl rfl rfl rfl
    have hstill : next.Open rules := by
      rw [Open, hforms, hfinished]
      exact hopen
    refine ⟨hforms, hcursor, hfinished, ?_, ?_⟩
    · rintro ⟨limit, rfl⟩
      cases hdrawn
    · intro _
      exact ⟨role, observed, ho.role_eq, hobserve, hnext, hsettled.step hreached hstill,
        fun steps stream hfail => hsettled.stuck hreached hfail⟩

/-- Behind "enjoy long" no noun can be found, however often it is tried. -/
theorem failed_step_keeps_sentence_enjoy :
    let start := ofStart Sample.holiday.language.grammar.start
    let session := start.after Sample.holiday 2 (.ofSeed 1)
    let next := (session.step Sample.holiday (.ofSeed 0)).2.1
    let last := next.after Sample.holiday 3 (.ofSeed 0)
    next.forms = ["enjoy", "long"] ∧ last.forms = ["enjoy", "long"] ∧
      last.history.length = next.history.length + 3 := by
  intro start session next last
  have h : Reached Sample.holiday _ session :=
    ((keeps_start Sample.holiday).run 2 (.ofSeed 1)).reached
  obtain ⟨error, hs, hother⟩ := exists_error_of_stumbles
    (show stumbles (session.step Sample.holiday (.ofSeed 0)).1 = true by decide +kernel)
  obtain ⟨hforms, _, _, _, hrest⟩ := failed_step_keeps_sentence h hs
  have hlong : next.forms = ["enjoy", "long"] := hforms.trans (by decide +kernel)
  obtain ⟨role, observed, _, _, _, _, hstuck⟩ := hrest hother
  have hlast := hstuck 3 (.ofSeed 0) (by decide +kernel)
  refine ⟨hlong, (congrArg Session.forms hlast).trans hlong, ?_⟩
  have hvisits := congrArg (·.history.visits.length) hlast
  rw [List.length_append, List.length_replicate, Nat.add_comm] at hvisits
  exact hvisits

end Session

end SentenceWalk
