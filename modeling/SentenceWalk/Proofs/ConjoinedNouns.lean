import SentenceWalk.Proofs.Reserve

namespace SentenceWalk

def Sample.joined : Session where
  cursor := ⟨"CONJ", some join⟩
  pending := ⟨∅, .ofList ["apple"]⟩
  history := ⟨[⟨"MN", .noun⟩, ⟨"MTV", .verb⟩, ⟨"N", .noun⟩, ⟨"STV", .verb⟩, ⟨"S", .start⟩], none⟩
  used := { names := ["eat", "apple", "see", "rock"] }
  forms := ["eat", "apple", "see", "rock", "and"]

namespace Session

variable {rules : Rules} {first session next : Session} {stream rest : RandomStream} {role : Role}
variable {answer : Except WalkError Step} {noun : Placement}

theorem Transition.pending (ht : Transition rules session stream answer next rest) :
    next.pending = session.pending ∨
    ∃ observed code middle, session.Open rules ∧ session.observe rules = .ok observed ∧
      next.pending = (rules.nextWord observed.cursor code observed.pending observed.history
        observed.used middle).2.1 := by
  cases ht with
  | ended hf => exact .inl rfl
  | tooLong hf hl => exact .inl rfl
  | unknown ho hs => exact .inl rfl
  | partless ho hs hc =>
    obtain ⟨role, hobserves⟩ := observe_ok hs
    exact .inl hobserves.pending
  | wordless ho hs hc hw => exact .inr ⟨_, _, _, ho, hs, by rw [hw]⟩
  | finishes ho hs hc hw => exact .inr ⟨_, _, _, ho, hs, by rw [hw]⟩
  | formless ho hs hc hw hf => exact .inr ⟨_, _, _, ho, hs, by rw [hw]⟩
  | places ho hs hc hw hf => exact .inr ⟨_, _, _, ho, hs, by rw [hw]⟩

theorem open_of_placed {word : Placement} (hstep : (session.step rules stream).1 = word.answer) :
    session.Open rules := by
  have ht := step_transition rules session stream
  rw [hstep, Placement.answer] at ht
  generalize (session.step rules stream).2.1 = next at ht
  cases ht with
  | places ho hs hc hw hf => exact ho

/-- A step from the session that enters the cursor does so while a conjunction is continued. -/
def Continues (rules : Rules) (session : Session) : Prop :=
  session.Open rules → ∀ observed, session.observe rules = .ok observed →
    observed.history.inConjunction = true

/-- The sessions that steps lead to while a conjunction is continued. Steps may fail in between. -/
inductive Continuation (rules : Rules) (first : Session) : Session → Prop where
  | start : Continuation rules first first
  | step {session : Session} (stream : RandomStream) : Continuation rules first session →
      session.Continues rules → Continuation rules first (session.step rules stream).2.1

theorem continues_of_role (hr : rules.language.grammar.role session.cursor.code = .ok role)
    (h : role = .conjunction ∨
      session.history.inConjunction = true ∧ role ≠ .verb ∧ role ≠ .preposition) :
    session.Continues rules := by
  intro _ observed hs
  obtain ⟨entered, ho⟩ := observe_ok hs
  cases ho.role_eq.symm.trans hr
  exact (History.inConjunction_cons ho.visits).2 h

theorem Continues.reserve_step (hc : session.Continues rules) (hne : session.pending.reserve ≠ ∅)
    (stream : RandomStream) :
    (session.step rules stream).2.1.pending.reserve ≠ ∅ ∧
      ∀ name ∈ (session.step rules stream).2.1.pending.reserve,
        name ∈ session.pending.reserve := by
  obtain hkept | ⟨observed, code, middle, hopen, hs, hpending⟩ :=
    (step_transition rules session stream).pending
  · rw [hkept]
    exact ⟨hne, fun _ hmem => hmem⟩
  · obtain ⟨role, ho⟩ := observe_ok hs
    have hin := hc hopen observed hs
    rw [hpending]
    rcases rules.reserve_nextWord observed.cursor code observed.pending observed.history
      observed.used middle with hreserve | ⟨hrestricted, hreserve⟩
    · rw [hreserve, ho.pending]
      exact ⟨hne, fun _ hmem => hmem⟩
    · rw [hreserve]
      refine ⟨hrestricted, ?_⟩
      intro name hmem
      rw [Rules.active_pendingAfter, if_pos hin, ho.pending] at hmem
      exact (Pending.of_mem_combine hmem).2 hne

theorem Continues.noun_in_reserve (hc : session.Continues rules)
    (hne : session.pending.reserve ≠ ∅) (hstep : (session.step rules stream).1 = noun.answer)
    (hr : noun.role? rules.language.grammar = some .noun) :
    noun.entry.name ∈ session.pending.reserve ∨
      rules.due session.cursor session.pending ≠ ∅ ∧
        rules.due session.cursor session.pending ∩ session.pending.reserve = ∅ := by
  obtain ⟨observed, middle, pending, hs, _, hw, _⟩ := step_placed hstep
  obtain ⟨role, ho⟩ := observe_ok hs
  obtain ⟨part, hp, hrole⟩ := Placement.part_of_role? hr
  have hin := hc (open_of_placed hstep) observed hs
  by_cases hcompatible :
      Pending.Compatible (rules.due session.cursor session.pending) session.pending.reserve
  · left
    have hmeets := Rules.noun_meets_due hp hrole (congrArg Prod.fst hw) fun _ => by
      rw [ho.cursor, ho.pending]
      exact hcompatible
    rw [ho.pending] at hmeets
    exact hmeets.2 hin hne
  · right
    obtain ⟨hdue, _, hdisjoint⟩ := Pending.not_compatible_iff.1 hcompatible
    exact ⟨hdue, hdisjoint⟩

theorem Continuation.reserve (h : Continuation rules first session)
    (hne : first.pending.reserve ≠ ∅) :
    session.pending.reserve ≠ ∅ ∧
      ∀ name ∈ session.pending.reserve, name ∈ first.pending.reserve := by
  induction h with
  | start => exact ⟨hne, fun _ hmem => hmem⟩
  | step stream _ hc ih =>
    obtain ⟨hsession, hwithin⟩ := ih
    obtain ⟨hnext, hsmaller⟩ := hc.reserve_step hsession stream
    exact ⟨hnext, fun name hmem => hwithin name (hsmaller name hmem)⟩

/-- As long as a conjunction is continued, the reserve stays within what it was at first and does
not become empty, and so do the nouns, except where the words before a noun require something of
which the reserve has none. -/
theorem conjoined_nouns_share_reserve (h : Continuation rules first session)
    (hc : session.Continues rules) (hne : first.pending.reserve ≠ ∅) (stream : RandomStream) :
    (session.step rules stream).2.1.pending.reserve ≠ ∅ ∧
      (∀ name ∈ (session.step rules stream).2.1.pending.reserve, name ∈ first.pending.reserve) ∧
      ∀ noun, (session.step rules stream).1 = Placement.answer noun →
        noun.role? rules.language.grammar = some .noun →
          noun.entry.name ∈ first.pending.reserve ∨
            rules.due session.cursor session.pending ≠ ∅ ∧
              rules.due session.cursor session.pending ∩ session.pending.reserve = ∅ := by
  obtain ⟨hsession, hwithin⟩ := h.reserve hne
  obtain ⟨hnext, hsmaller⟩ := hc.reserve_step hsession stream
  refine ⟨hnext, fun name hmem => hwithin name (hsmaller name hmem), ?_⟩
  intro noun hstep hr
  obtain hmem | hconflict := hc.noun_in_reserve hsession hstep hr
  · exact .inl (hwithin noun.entry.name hmem)
  · exact .inr hconflict

theorem conjoined_nouns_share_reserve_apple :
    let second := (Sample.joined.step Sample.meal (.ofSeed 2)).2.1
    let third := (second.step Sample.meal (.ofSeed 2)).2.1
    (third.step Sample.meal (.ofSeed 2)).1 = Placement.answer ⟨Sample.apple, "NN", "apple"⟩ ∧
      (third.step Sample.meal (.ofSeed 2)).2.1.pending.reserve ≠ ∅ ∧
      Sample.apple.name ∈ Sample.joined.pending.reserve := by
  intro second third
  have hconjunction : Sample.meal.language.grammar.role "CONJ" = .ok .conjunction := rfl
  have hnoun : Sample.meal.language.grammar.role second.cursor.code = .ok .noun :=
    eq_ok_of_toOption (by decide +kernel)
  have hfirst : Sample.joined.Continues Sample.meal := continues_of_role hconjunction (.inl rfl)
  have hsecond : second.Continues Sample.meal :=
    continues_of_role hnoun (.inr (by decide +kernel))
  have hcode : third.cursor.code = "CONJ" := by decide +kernel
  have hthird : third.Continues Sample.meal :=
    continues_of_role (hcode ▸ hconjunction) (.inl rfl)
  have hrun : Continuation Sample.meal Sample.joined third :=
    .step (.ofSeed 2) (.step (.ofSeed 2) .start hfirst) hsecond
  have hstep : (third.step Sample.meal (.ofSeed 2)).1 =
      Placement.answer ⟨Sample.apple, "NN", "apple"⟩ :=
    Placement.ofAnswer?_eq_some (by decide +kernel)
  obtain ⟨hreserve, _, hnouns⟩ :=
    conjoined_nouns_share_reserve hrun hthird (by decide +kernel) (.ofSeed 2)
  obtain hmem | ⟨_, hconflict⟩ := hnouns _ hstep (by decide +kernel)
  · exact ⟨hstep, hreserve, hmem⟩
  · exact absurd hconflict (by decide +kernel)

end Session

end SentenceWalk
