import SentenceWalk.Proofs.Placement

namespace SentenceWalk

theorem Placement.preposition?_cursor {grammar : Grammar} {word : Placement}
    (h : word.role? grammar = some .preposition) :
    word.cursor.preposition? grammar = some ⟨word.entry.name, word.entry.word.tag⟩ :=
  if_pos h

namespace Rules

variable {rules : Rules} {cursor : Cursor} {target : String} {pool : List Entry} {entry : Entry}
variable {pending : Pending} {history : History} {used : UsedWords} {stream : RandomStream}
variable {preposition : Preposition}

theorem name_ne_of_mem_withoutUsed (hl : history.lastPreposition = some preposition)
    (h : entry ∈ withoutUsed pool used history) : entry.name ≠ preposition.name := by
  rw [withoutUsed, hl] at h
  have hkept := (List.mem_filter.1 h).2
  exact bne_iff_ne.1 hkept

theorem name_ne_lastPreposition (hl : history.lastPreposition = some preposition)
    (hw : (rules.nextWord cursor target pending history used stream).1 = .ok (.word entry)) :
    entry.name ≠ preposition.name := by
  obtain ⟨part, hp⟩ := part_of_word hw
  -- Modifiers are matched and other words drawn, but both come out of the pool that is left.
  exact name_ne_of_mem_withoutUsed hl (mem_of_pick (pick_of_word hp hw))

end Rules

/-! A language of one phrase, "up hill down up", which takes up its first word as an adverb. -/

namespace Sample

def up : Entry := ⟨0, { name := "up", tag := "P" }⟩

def slope : Entry := ⟨1, { name := "hill", tag := "N" }⟩

def down : Entry := ⟨2, { name := "down", tag := "MP" }⟩

def upwards : Entry := ⟨3, { name := "up", tag := "ADV" }⟩

def climbGrammar : Grammar where
  parts := .ofList [
    ("S", (⟨.start, ["P"], [1], ∅⟩ : Part)),
    ("P", ⟨.preposition, ["N"], [1], .ofList ["P"]⟩),
    ("N", ⟨.noun, ["MP"], [1], .ofList ["N"]⟩),
    ("MP", ⟨.preposition, ["ADV"], [1], .ofList ["MP"]⟩),
    ("ADV", ⟨.other, ["END"], [1], .ofList ["ADV"]⟩),
    ("END", ⟨.finish, [], [], ∅⟩)]
  sound := Option.isNone_iff_eq_none.1 (by decide +kernel)

def climb : Rules where
  language := {
    grammar := climbGrammar
    hierarchy := {}
    lexicon := { words := [up.word, slope.word, down.word, upwards.word] } }
  config := {}

end Sample

namespace Session

variable {rules : Rules} {session observed : Session} {stream : RandomStream} {role : Role}
variable {before between after : List Placement} {word preposition : Placement}

/-- The preposition that the next word has to differ from: the one at the cursor, or else the last
one on record. -/
def barred? (rules : Rules) (session : Session) : Option Preposition :=
  (session.cursor.preposition? rules.language.grammar).or session.history.lastPreposition

/-- Entering the cursor puts its preposition on record, where it bars the same name as before. -/
theorem Observes.barred? (ho : Observes rules session role observed) :
    observed.barred? rules = session.barred? rules := by
  rw [Session.barred?, ho.cursor, ho.lastPreposition, ← Option.or_assoc, Option.or_self]
  rfl

theorem barred?_step (rules : Rules) (session : Session) (stream : RandomStream) :
    (session.step rules stream).2.1.barred? rules =
      ((Placement.ofAnswer? (session.step rules stream).1).bind fun word =>
        word.cursor.preposition? rules.language.grammar).or (session.barred? rules) := by
  obtain ⟨hnext, hnone⟩ | ⟨observed, hs, hhistory, _, _, hcursor⟩ :=
    (step_transition rules session stream).entered
  · rw [hnext, hnone, Option.bind_none, Option.none_or]
  · obtain ⟨role, ho⟩ := observe_ok hs
    cases hp : Placement.ofAnswer? (session.step rules stream).1 with
    | none =>
      rw [hp, Option.map_none, Option.getD_none] at hcursor
      rw [barred?, hhistory, hcursor, Option.bind_none, Option.none_or]
      exact ho.barred?
    | some word =>
      rw [hp, Option.map_some, Option.getD_some] at hcursor
      rw [barred?, hhistory, hcursor, Option.bind_some, ho.lastPreposition]
      rfl

theorem name_ne_barred {barred : Preposition} (hb : session.barred? rules = some barred)
    (hstep : (session.step rules stream).1 = word.answer) : word.entry.name ≠ barred.name := by
  obtain ⟨observed, middle, pending, hs, _, hword, _⟩ := step_placed hstep
  obtain ⟨role, ho⟩ := observe_ok hs
  have hlast : observed.history.lastPreposition = some barred := ho.lastPreposition.trans hb
  exact Rules.name_ne_lastPreposition hlast (congrArg Prod.fst hword)

theorem exists_other_preposition {steps : Nat} {barred : Preposition}
    (hb : session.barred? rules = some barred)
    (hrun : session.placements rules steps stream = between ++ word :: after)
    (hn : word.entry.name = barred.name) :
    ∃ other ∈ between, other.role? rules.language.grammar = some .preposition ∧
      other.entry.name ≠ barred.name := by
  induction steps generalizing session stream between with
  | zero => simp [placements, trace] at hrun
  | succ steps ih =>
    have hbarred := barred?_step rules session stream
    obtain ⟨hnone, hplaced⟩ | ⟨first, hfirst, hplaced⟩ :=
      placements_succ_cases rules session steps stream
    · rw [hnone, Option.bind_none, Option.none_or] at hbarred
      exact ih (hbarred.trans hb) (hplaced.symm.trans hrun)
    · have hne := name_ne_barred hb hfirst
      rw [hplaced] at hrun
      rw [hfirst, Placement.ofAnswer?_answer, Option.bind_some] at hbarred
      cases between with
      | nil =>
        obtain ⟨rfl, _⟩ := List.cons.inj hrun
        exact absurd hn hne
      | cons second between =>
        obtain ⟨rfl, hlater⟩ := List.cons.inj hrun
        by_cases hr : first.role? rules.language.grammar = some .preposition
        · exact ⟨first, List.mem_cons_self, hr, hne⟩
        · -- A word that is no preposition leaves the same name barred.
          have hnone : first.cursor.preposition? rules.language.grammar = none := if_neg hr
          rw [hnone, Option.none_or] at hbarred
          obtain ⟨other, hmem, hother⟩ := ih (hbarred.trans hb) hlater
          exact ⟨other, List.mem_cons_of_mem _ hmem, hother⟩

/-- Between a preposition and a later word of the same name there is a preposition of another name,
from whatever session the run sets out. -/
theorem other_preposition_between {steps : Nat}
    (hrun : session.placements rules steps stream =
      before ++ preposition :: between ++ word :: after)
    (hp : preposition.role? rules.language.grammar = some .preposition)
    (hn : word.entry.name = preposition.entry.name) :
    ∃ other ∈ between, other.role? rules.language.grammar = some .preposition ∧
      other.entry.name ≠ preposition.entry.name := by
  rw [List.append_assoc, List.cons_append] at hrun
  obtain ⟨reached, rest, left, hstep, hlater⟩ := step_of_placements_split hrun
  have hbarred := barred?_step rules reached rest
  rw [hstep, Placement.ofAnswer?_answer, Option.bind_some, Placement.preposition?_cursor hp,
    Option.some_or] at hbarred
  exact exists_other_preposition hbarred hlater hn

theorem other_preposition_between_up :
    (ofStart "S").placements Sample.climb 4 (.ofSeed 0) =
      [⟨Sample.up, "P", "up"⟩, ⟨Sample.slope, "N", "hill"⟩, ⟨Sample.down, "MP", "down"⟩,
        ⟨Sample.upwards, "ADV", "up"⟩] ∧
    Sample.upwards.name = Sample.up.name ∧
    ∃ other ∈ [(⟨Sample.slope, "N", "hill"⟩ : Placement), ⟨Sample.down, "MP", "down"⟩],
      other.role? Sample.climbGrammar = some .preposition ∧ other.entry.name ≠ "up" := by
  have hrun : (ofStart "S").placements Sample.climb 4 (.ofSeed 0) =
      [] ++ ⟨Sample.up, "P", "up"⟩ ::
        [⟨Sample.slope, "N", "hill"⟩, ⟨Sample.down, "MP", "down"⟩] ++
        ⟨Sample.upwards, "ADV", "up"⟩ :: [] := by decide +kernel
  have hp : (⟨Sample.up, "P", "up"⟩ : Placement).role? Sample.climbGrammar = some .preposition := by
    decide +kernel
  exact ⟨hrun, rfl, other_preposition_between hrun hp rfl⟩

end Session

end SentenceWalk
