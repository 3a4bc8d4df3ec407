import SentenceWalk.Proofs.Transition

/-!
The words that the steps of a session place, and the sessions that steps lead to from the start of
the grammar. Steps may fail in between, and each may draw from a stream of its own.
-/

namespace SentenceWalk

/-- A word that has been placed, the code that it stands for and its form. -/
structure Placement where
  entry : Entry
  code : String
  form : String
  deriving DecidableEq, Repr

namespace Placement

def ofAnswer? : Except WalkError Step → Option Placement
  | .ok (.word entry code form) => some ⟨entry, code, form⟩
  | _ => none

def answer (placement : Placement) : Except WalkError Step :=
  .ok (.word placement.entry placement.code placement.form)

def cursor (placement : Placement) : Cursor :=
  { code := placement.code, entry := some placement.entry }

@[simp]
theorem ofAnswer?_error (error : WalkError) : ofAnswer? (.error error) = none := rfl

@[simp]
theorem ofAnswer?_finish : ofAnswer? (.ok .finish) = none := rfl

@[simp]
theorem ofAnswer?_answer (placement : Placement) : ofAnswer? placement.answer = some placement :=
  rfl

def role? (grammar : Grammar) (placement : Placement) : Option Role :=
  (grammar.role placement.code).toOption

theorem role?_of_part {grammar : Grammar} {placement : Placement} {part : Part}
    (h : grammar.parts[placement.code]? = some part) :
    placement.role? grammar = some part.role := by
  rw [role?, Grammar.role_eq h]
  rfl

theorem part_of_role? {grammar : Grammar} {placement : Placement} {role : Role}
    (h : placement.role? grammar = some role) :
    ∃ part, grammar.parts[placement.code]? = some part ∧ part.role = role :=
  Grammar.part_of_role (eq_ok_of_toOption h)

/-- Whether a word is a verb or a preposition, to which the nouns behind it belong. -/
def Governs (grammar : Grammar) (placement : Placement) : Prop :=
  placement.role? grammar = some .verb ∨ placement.role? grammar = some .preposition

instance (grammar : Grammar) (placement : Placement) : Decidable (placement.Governs grammar) :=
  inferInstanceAs (Decidable (_ ∨ _))

theorem ofAnswer?_eq_some {answer : Except WalkError Step} {placement : Placement}
    (h : ofAnswer? answer = some placement) : answer = placement.answer := by
  rw [ofAnswer?.eq_def] at h
  split at h
  · cases h
    rfl
  · cases h

end Placement

namespace Session

def placements (rules : Rules) (session : Session) (steps : Nat) (stream : RandomStream) :
    List Placement :=
  (session.trace rules steps stream).filterMap fun item => Placement.ofAnswer? item.1

/-- The sessions that steps lead to, each with the words placed on the way. -/
inductive Reached (rules : Rules) : List Placement → Session → Prop where
  | start : Reached rules [] (ofStart rules.language.grammar.start)
  | step {past : List Placement} {session : Session} (stream : RandomStream) :
      Reached rules past session →
      Reached rules (past ++ (Placement.ofAnswer? (session.step rules stream).1).toList)
        (session.step rules stream).2.1

variable {rules : Rules} {past before after : List Placement} {session : Session}

theorem Transition.entered {next : Session} {answer : Except WalkError Step}
    (ht : Transition rules session stream answer next rest) :
    (next = session ∧ Placement.ofAnswer? answer = none) ∨
    ∃ observed, session.observe rules = .ok observed ∧ next.history = observed.history ∧
      next.used = observed.used ∧ next.situation = observed.situation ∧
      next.cursor = ((Placement.ofAnswer? answer).map Placement.cursor).getD observed.cursor := by
  cases ht with
  | ended hf => exact .inl ⟨rfl, rfl⟩
  | tooLong hf hl => exact .inl ⟨rfl, rfl⟩
  | unknown ho hs => exact .inl ⟨rfl, rfl⟩
  | partless ho hs hc => exact .inr ⟨_, hs, rfl, rfl, rfl, rfl⟩
  | wordless ho hs hc hw => exact .inr ⟨_, hs, rfl, rfl, rfl, rfl⟩
  | finishes ho hs hc hw => exact .inr ⟨_, hs, rfl, rfl, rfl, rfl⟩
  | formless ho hs hc hw hf => exact .inr ⟨_, hs, rfl, rfl, rfl, rfl⟩
  | places ho hs hc hw hf => exact .inr ⟨_, hs, rfl, rfl, rfl, rfl⟩

theorem step_placed {placement : Placement}
    (h : (session.step rules stream).1 = placement.answer) :
    ∃ observed middle pending, session.observe rules = .ok observed ∧
      rules.choosePart observed.cursor observed.history stream = (.ok placement.code, middle) ∧
      rules.nextWord observed.cursor placement.code observed.pending observed.history observed.used
        middle = (.ok (.word placement.entry), pending, (session.step rules stream).2.2) ∧
      rules.render placement.entry placement.code observed.situation = .ok placement.form ∧
      (session.step rules stream).2.1 =
        { observed with
          pending, cursor := placement.cursor, forms := observed.forms ++ [placement.form] } := by
  have ht := step_transition rules session stream
  rw [h, Placement.answer] at ht
  generalize (session.step rules stream).2.1 = next at ht ⊢
  generalize (session.step rules stream).2.2 = rest at ht ⊢
  cases ht with
  | places ho hs hc hw hf => exact ⟨_, _, _, hs, hc, hw, hf, rfl⟩

theorem placements_succ (rules : Rules) (session : Session) (steps : Nat) (stream : RandomStream) :
    session.placements rules (steps + 1) stream =
      (Placement.ofAnswer? (session.step rules stream).1).toList ++
        (session.step rules stream).2.1.placements rules steps (session.step rules stream).2.2 := by
  rw [placements, trace, List.filterMap_cons]
  cases Placement.ofAnswer? (session.step rules stream).1 <;> rfl

theorem length_trace (rules : Rules) (session : Session) (steps : Nat) (stream : RandomStream) :
    (session.trace rules steps stream).length = steps := by
  induction steps generalizing session stream with
  | zero => rfl
  | succ steps ih => rw [trace, List.length_cons, ih]

theorem placements_succ_cases (rules : Rules) (session : Session) (steps : Nat)
    (stream : RandomStream) :
    (Placement.ofAnswer? (session.step rules stream).1 = none ∧
      session.placements rules (steps + 1) stream =
        (session.step rules stream).2.1.placements rules steps (session.step rules stream).2.2) ∨
    ∃ first, (session.step rules stream).1 = Placement.answer first ∧
      session.placements rules (steps + 1) stream = first ::
        (session.step rules stream).2.1.placements rules steps (session.step rules stream).2.2 := by
  rw [placements_succ]
  cases hp : Placement.ofAnswer? (session.step rules stream).1 with
  | none => exact .inl ⟨rfl, rfl⟩
  | some first => exact .inr ⟨first, Placement.ofAnswer?_eq_some hp, rfl⟩

theorem step_of_placements {placement : Placement} {later : List Placement}
    (h : session.placements rules (steps + 1) stream = placement :: later)
    (hl : later.length = steps) :
    (session.step rules stream).1 = placement.answer ∧
      (session.step rules stream).2.1.placements rules steps (session.step rules stream).2.2 =
        later := by
  obtain ⟨_, hplaced⟩ | ⟨first, hfirst, hplaced⟩ := placements_succ_cases rules session steps stream
  · -- A first step without a word leaves too few steps for the words.
    have hle := List.length_filterMap_le (fun item => Placement.ofAnswer? item.1)
      ((session.step rules stream).2.1.trace rules steps (session.step rules stream).2.2)
    rw [length_trace, ← placements, ← hplaced, h, List.length_cons] at hle
    omega
  · rw [hplaced] at h
    obtain ⟨rfl, hlater⟩ := List.cons.inj h
    exact ⟨hfirst, hlater⟩

/-- Behind each word of a run there is a step that has placed it and from which the run goes on. -/
theorem step_of_placements_split {placement : Placement}
    (h : session.placements rules steps stream = before ++ placement :: after) :
    ∃ (reached : Session) (rest : RandomStream) (left : Nat),
      (reached.step rules rest).1 = placement.answer ∧
      (reached.step rules rest).2.1.placements rules left (reached.step rules rest).2.2 =
        after := by
  induction steps generalizing session stream before with
  | zero => simp [Session.placements, trace] at h
  | succ steps ih =>
    obtain ⟨_, hplaced⟩ | ⟨first, hfirst, hplaced⟩ :=
      placements_succ_cases rules session steps stream
    · exact ih (hplaced.symm.trans h)
    · rw [hplaced] at h
      cases before with
      | nil =>
        obtain ⟨rfl, hafter⟩ := List.cons.inj h
        exact ⟨session, stream, steps, hfirst, hafter⟩
      | cons _ before =>
        obtain ⟨_, hlater⟩ := List.cons.inj h
        exact ih hlater

theorem Reached.placements (h : Reached rules past session) (steps : Nat) (stream : RandomStream) :
    ∃ last, Reached rules (past ++ session.placements rules steps stream) last := by
  induction steps generalizing past session stream with
  | zero => exact ⟨session, by simpa [Session.placements, trace] using h⟩
  | succ steps ih =>
    rw [placements_succ, ← List.append_assoc]
    exact ih (h.step stream) _

theorem Reached.trace (h : Reached rules past session)
    {earlier later : List (Except WalkError Step × Session × RandomStream)}
    {item : Except WalkError Step × Session × RandomStream}
    (ht : session.trace rules steps stream = earlier ++ item :: later) :
    ∃ reached rest,
      Reached rules (past ++ earlier.filterMap fun item => Placement.ofAnswer? item.1) reached ∧
        item = reached.step rules rest := by
  induction steps generalizing past session stream earlier with
  | zero => simp [Session.trace] at ht
  | succ steps ih =>
    rw [Session.trace] at ht
    cases earlier with
    | nil =>
      obtain ⟨hitem, _⟩ := List.cons.inj ht
      exact ⟨session, stream, by simpa using h, hitem.symm⟩
    | cons first earlier =>
      obtain ⟨rfl, hlater⟩ := List.cons.inj ht
      obtain ⟨reached, rest, hr, hitem⟩ := ih (h.step stream) hlater
      refine ⟨reached, rest, ?_, hitem⟩
      rw [List.append_assoc] at hr
      rw [List.filterMap_cons]
      cases hp : Placement.ofAnswer? (session.step rules stream).1 <;> simpa [hp] using hr

theorem Reached.placement (h : Reached rules past session) {placement : Placement}
    (hp : session.placements rules steps stream = before ++ placement :: after) :
    ∃ reached rest, Reached rules (past ++ before) reached ∧
      (reached.step rules rest).1 = placement.answer := by
  obtain ⟨front, back, htrace, hbefore, hback⟩ := List.filterMap_eq_append_iff.1 hp
  obtain ⟨failed, item, later, rfl, hfailed, hitem, _⟩ := List.filterMap_eq_cons_iff.1 hback
  rw [← List.append_assoc] at htrace
  obtain ⟨reached, rest, hr, hstep⟩ := h.trace htrace
  refine ⟨reached, rest, ?_, ?_⟩
  · rw [List.filterMap_append, hbefore, List.filterMap_eq_nil_iff.2 hfailed, List.append_nil] at hr
    exact hr
  · rw [← hstep]
    exact Placement.ofAnswer?_eq_some hitem

end Session

end SentenceWalk
