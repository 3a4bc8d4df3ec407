import SentenceWalk.Proofs.NounDraw
import SentenceWalk.Proofs.Placement

namespace SentenceWalk

theorem History.not_inConjunction_cons {history next : History} {visit : Visit}
    (hv : next.visits = visit :: history.visits) (hr : visit.role ≠ .conjunction)
    (h : history.inConjunction = false ∨ visit.role = .verb ∨ visit.role = .preposition) :
    next.inConjunction = false := by
  rw [← Bool.not_eq_true, inConjunction_cons hv]
  rintro (hconjunction | ⟨hin, hverb, hpreposition⟩)
  · exact hr hconjunction
  · rcases h with hout | h | h
    · exact Bool.false_ne_true (hout.symm.trans hin)
    · exact hverb h
    · exact hpreposition h

/-- Whether requirements for a noun outlast a word: it is neither a noun nor a conjunction, and it
has to agree with them or has none of its own. -/
def Placement.Passes (rules : Rules) (word : Placement) : Prop :=
  word.role? rules.language.grammar ≠ some .noun ∧
    word.role? rules.language.grammar ≠ some .conjunction ∧
    (word.role? rules.language.grammar = some .adjective ∨
      word.role? rules.language.grammar = some .preposition ∨
      rules.requirements word.entry = ∅)

namespace Session

variable {rules : Rules} {session observed next : Session} {stream : RandomStream}
variable {word noun : Placement} {P : String → Prop}

def due (rules : Rules) (session : Session) : NameSet :=
  rules.due session.cursor session.pending

/-- Outside of conjunctions something is due that only names with a property meet. -/
structure Owes (rules : Rules) (P : String → Prop) (session : Session) : Prop where
  unconjoined : ∀ observed, session.observe rules = .ok observed →
    observed.history.inConjunction = false
  due_ne : session.due rules ≠ ∅
  within : ∀ name ∈ session.due rules, P name

theorem Owes.pendingAfter (h : Owes rules P session) (hs : session.observe rules = .ok observed) :
    rules.pendingAfter observed.cursor observed.history observed.pending =
      { observed.pending with active := session.due rules } := by
  obtain ⟨role, ho⟩ := observe_ok hs
  rw [Rules.pendingAfter_eq, h.unconjoined observed hs, if_neg (by simp), ho.cursor, ho.pending]
  rfl

theorem Owes.meets (h : Owes rules P session) (hstep : (session.step rules stream).1 = noun.answer)
    (hr : noun.role? rules.language.grammar = some .noun) : P noun.entry.name := by
  obtain ⟨observed, middle, pending, hs, _, hw, _⟩ := step_placed hstep
  obtain ⟨part, hp, hrole⟩ := Placement.part_of_role? hr
  have hpending := h.pendingAfter hs
  have hmem := Rules.name_of_noun hp hrole (congrArg Prod.fst hw) (by rw [hpending]; exact h.due_ne)
  rw [hpending] at hmem
  exact h.within _ hmem

theorem Owes.active (h : Owes rules P session) (hstep : (session.step rules stream).1 = word.answer)
    (hw : word.Passes rules) :
    (session.step rules stream).2.1.pending.active =
        Pending.combine (session.due rules) (rules.requirements word.entry) ∧
      Pending.combine (session.due rules) (rules.requirements word.entry) ≠ ∅ := by
  obtain ⟨observed, middle, pending, hs, _, hword, _, hnext⟩ := step_placed hstep
  obtain ⟨part, hp⟩ := Rules.part_of_word (congrArg Prod.fst hword)
  obtain ⟨hnoun, _, hpass⟩ := hw
  simp only [Placement.role?_of_part hp, ne_eq, Option.some.injEq] at hnoun hpass
  have hpending := h.pendingAfter hs
  have hdue :
      (rules.pendingAfter observed.cursor observed.history observed.pending).active ≠ ∅ := by
    rw [hpending]
    exact h.due_ne
  rw [hnext]
  by_cases hm : part.role.isModifier = true
  · obtain ⟨hagrees, hresult⟩ := Rules.nextWord_modifier hp (congrArg Prod.fst hword) hm hdue
    have hne := hagrees.active_ne_empty hdue
    rw [hword, hpending] at hresult
    rw [hpending] at hne
    rw [show pending = _ from hresult]
    exact ⟨rfl, hne⟩
  · have hfinish := Rules.role_ne_finish_of_word hp (congrArg Prod.fst hword)
    have hresult := Rules.nextWord_pending hp hfinish hnoun (by simpa using hm) observed.cursor
      observed.pending observed.history observed.used middle
    have hfree : rules.requirements word.entry = ∅ := by
      rcases hpass with hr | hr | hfree
      · exact absurd (by rw [hr]; rfl) hm
      · exact absurd (by rw [hr]; rfl) hm
      · exact hfree
    rw [hword, hpending] at hresult
    rw [show pending = _ from hresult, hfree, Pending.combine_empty_right]
    exact ⟨rfl, h.due_ne⟩

theorem Owes.step (h : Owes rules P session) (hstep : (session.step rules stream).1 = word.answer)
    (hw : word.Passes rules) :
    Owes rules (fun name =>
        P name ∧ (rules.requirements word.entry ≠ ∅ → name ∈ rules.requirements word.entry))
      (session.step rules stream).2.1 := by
  obtain ⟨hactive, hne⟩ := h.active hstep hw
  obtain ⟨observed, middle, pending, hs, _, hword, _, hnext⟩ := step_placed hstep
  have hdue : (session.step rules stream).2.1.due rules =
      Pending.combine (session.due rules) (rules.requirements word.entry) := by
    rw [due, Rules.due, hactive, hnext]
    exact Pending.combine_combine_self hne
  constructor
  · intro later hlater
    obtain ⟨role, ho⟩ := observe_ok hlater
    rw [hnext] at ho
    refine History.not_inConjunction_cons ho.visits ?_ (.inl (h.unconjoined observed hs))
    rintro rfl
    exact hw.2.1 (congrArg Except.toOption ho.role_eq)
  · rw [hdue]
    exact hne
  · intro name hname
    rw [hdue] at hname
    obtain ⟨hold, hnew⟩ := Pending.of_mem_combine hname
    exact ⟨h.within name (hold h.due_ne), hnew⟩

theorem owes_of_governor {governor : Placement}
    (hstep : (session.step rules stream).1 = governor.answer)
    (hr : governor.Governs rules.language.grammar)
    (hidle : (session.step rules stream).2.1.pending.active = ∅)
    (hne : rules.requirements governor.entry ≠ ∅) :
    Owes rules (· ∈ rules.requirements governor.entry) (session.step rules stream).2.1 := by
  obtain ⟨observed, middle, pending, _, _, _, _, hnext⟩ := step_placed hstep
  have hdue : (session.step rules stream).2.1.due rules = rules.requirements governor.entry := by
    rw [due, Rules.due, hidle, hnext]
    exact Pending.combine_empty_left _
  constructor
  · intro later hlater
    obtain ⟨role, ho⟩ := observe_ok hlater
    have hrole : governor.role? rules.language.grammar = some role := by
      rw [hnext] at ho
      exact congrArg Except.toOption ho.role_eq
    have hverb : role = .verb ∨ role = .preposition := by
      simpa only [Placement.Governs, hrole, Option.some.injEq] using hr
    refine History.not_inConjunction_cons ho.visits ?_ (.inr hverb)
    rintro rfl
    simp at hverb
  · rw [hdue]
    exact hne
  · intro name hname
    rw [hdue] at hname
    exact hname

theorem Owes.run (h : Owes rules P session) {words : List Placement}
    (hrun : session.placements rules (words.length + 1) stream = words ++ [noun])
    (hr : noun.role? rules.language.grammar = some .noun)
    (hw : ∀ word ∈ words, word.Passes rules) :
    P noun.entry.name ∧ ∀ word ∈ words, rules.requirements word.entry ≠ ∅ →
      noun.entry.name ∈ rules.requirements word.entry := by
  -- The property grows with each word, so the induction is over all properties that are owed.
  induction words generalizing P session stream with
  | nil => exact ⟨h.meets (step_of_placements hrun rfl).1 hr, by simp⟩
  | cons word words ih =>
    obtain ⟨hstep, hlater⟩ := step_of_placements hrun (by simp)
    have hstepped := h.step hstep (hw word List.mem_cons_self)
    obtain ⟨⟨hold, hnew⟩, hrest⟩ :=
      ih hstepped hlater fun other hmem => hw other (List.mem_cons_of_mem _ hmem)
    refine ⟨hold, ?_⟩
    intro other hmem
    rcases List.mem_cons.1 hmem with rfl | hmem
    · exact hnew
    · exact hrest other hmem

/-- The requirements of a verb or a preposition, behind which nothing else is pending, last through
any number of words that let them pass to the next noun, which meets those of all these words as
well. -/
theorem noun_meets_requirements {governor : Placement} {words : List Placement}
    (hrun : session.placements rules (words.length + 2) stream = governor :: words ++ [noun])
    (hg : governor.Governs rules.language.grammar)
    (hidle : (session.step rules stream).2.1.pending.active = ∅)
    (hne : rules.requirements governor.entry ≠ ∅)
    (hw : ∀ word ∈ words, word.Passes rules)
    (hr : noun.role? rules.language.grammar = some .noun) :
    noun.entry.name ∈ rules.requirements governor.entry ∧
      ∀ word ∈ words, rules.requirements word.entry ≠ ∅ →
        noun.entry.name ∈ rules.requirements word.entry := by
  obtain ⟨hstep, hlater⟩ := step_of_placements hrun (by simp)
  exact (owes_of_governor hstep hg hidle hne).run hlater hr hw

theorem noun_meets_requirements_town :
    (ofStart "S").placements Sample.rules 3 (.ofSeed 0) =
      [⟨Sample.into, "P", "into"⟩, ⟨Sample.old, "ADJ", "old"⟩, ⟨Sample.town, "N", "town"⟩] ∧
    Sample.town.name ∈ Sample.rules.requirements Sample.into ∧
    Sample.town.name ∈ Sample.rules.requirements Sample.old := by
  have hrun : (ofStart "S").placements Sample.rules 3 (.ofSeed 0) =
      ⟨Sample.into, "P", "into"⟩ :: [⟨Sample.old, "ADJ", "old"⟩] ++
        [⟨Sample.town, "N", "town"⟩] := by decide +kernel
  have hpasses : ∀ word ∈ [(⟨Sample.old, "ADJ", "old"⟩ : Placement)], word.Passes Sample.rules := by
    intro word hmem
    obtain rfl := List.mem_singleton.1 hmem
    exact ⟨by decide +kernel, by decide +kernel, .inl (by decide +kernel)⟩
  obtain ⟨hgovernor, hwords⟩ := @noun_meets_requirements Sample.rules (ofStart "S") (.ofSeed 0)
    ⟨Sample.town, "N", "town"⟩ ⟨Sample.into, "P", "into"⟩ [⟨Sample.old, "ADJ", "old"⟩] hrun
    (.inr (by decide +kernel)) (by decide +kernel) (by decide +kernel) hpasses (by decide +kernel)
  have hold : Sample.rules.requirements Sample.old ≠ ∅ := by decide +kernel
  exact ⟨hrun, hgovernor, hwords _ List.mem_cons_self hold⟩

end Session

end SentenceWalk
