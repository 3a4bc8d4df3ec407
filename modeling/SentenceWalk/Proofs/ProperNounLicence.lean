import SentenceWalk.Proofs.GrammarWalk

namespace SentenceWalk

/-! A language of one phrase, "visit Paris". -/

namespace Sample

def visit : Entry := ⟨0, { name := "visit", tag := "STV", nextCategories := ["pn"] }⟩

def paris : Entry := ⟨1, { name := "Paris", tag := "PN", categories := ["pn"] }⟩

def journeyGrammar : Grammar where
  parts := .ofList [
    ("S", (⟨.start, ["STV"], [1], ∅⟩ : Part)),
    ("STV", ⟨.verb, ["PN"], [1], .ofList ["STV"]⟩),
    ("PN", ⟨.properNoun, ["END"], [1], .ofList ["PN"]⟩),
    ("END", ⟨.finish, [], [], ∅⟩)]
  sound := Option.isNone_iff_eq_none.1 (by decide +kernel)

def journey : Rules where
  language := {
    grammar := journeyGrammar
    hierarchy := {}
    lexicon := Lexicon.index { words := [visit.word, paris.word] } {} }
  config := {}

end Sample

namespace Session

variable {rules : Rules} {past before after : List Placement} {session : Session}
variable {stream : RandomStream} {word previous : Placement} {role : Role}

theorem Walks.cursor_nil (h : Walks rules [] session) :
    session.cursor = { code := rules.language.grammar.start } :=
  (Option.some.inj h.head).symm

theorem Walks.cursor_concat (h : Walks rules (past ++ [previous]) session) :
    session.cursor = previous.cursor := by
  have hhead := h.head
  rw [cursors_concat, List.head?_cons] at hhead
  exact (Option.some.inj hhead).symm

theorem Walks.allowed (h : Walks rules past session)
    (hstep : (session.step rules stream).1 = word.answer)
    (hr : word.role? rules.language.grammar = some role) :
    ∃ observed, session.observe rules = .ok observed ∧
      rules.allows session.cursor observed.history role = true := by
  obtain ⟨observed, middle, pending, hs, hchoice, _⟩ := step_placed hstep
  obtain ⟨_, ho⟩ := observe_ok hs
  obtain ⟨part, hpart⟩ := (h.observe hs).part
  obtain ⟨_, next, hnext, hallows⟩ := Rules.choosePart_ok hpart (congrArg Prod.fst hchoice)
  rw [Placement.role?_of_part hnext] at hr
  cases hr
  rw [ho.cursor] at hallows
  exact ⟨observed, hs, hallows⟩

/-- Whatever fails on the way, each proper noun of a run stands directly behind a word whose own
entry in the lexicon requires the category of proper nouns. -/
theorem proper_noun_licensed {steps : Nat}
    (hrun : (ofStart rules.language.grammar.start).placements rules steps stream =
      before ++ word :: after)
    (hr : word.role? rules.language.grammar = some .properNoun) :
    ∃ earlier previous, before = earlier ++ [previous] ∧
      ∃ record, rules.language.lexicon.words[previous.entry.id]? = some record ∧
        rules.config.properNounCategory ∈ record.nextCategories := by
  obtain ⟨reached, rest, hreached, hstep⟩ := Reached.start.placement hrun
  rw [List.nil_append] at hreached
  have hwalks := hreached.walks
  obtain ⟨observed, _, hallows⟩ := hwalks.allowed hstep hr
  obtain rfl | ⟨earlier, previous, rfl⟩ := List.eq_nil_or_concat' before
  · -- At the start there is no word that could require anything.
    rw [Rules.allows, hwalks.cursor_nil] at hallows
    cases hallows
  · rw [Rules.allows, hwalks.cursor_concat] at hallows
    have hlists : rules.config.properNounCategory ∈ previous.entry.word.nextCategories :=
      List.contains_iff_mem.1 hallows
    obtain ⟨_, _, _, hrecord, _⟩ :=
      hwalks.offered previous (List.mem_append_right _ List.mem_cons_self)
    exact ⟨earlier, previous, rfl, previous.entry.word, hrecord, hlists⟩

theorem proper_noun_licensed_paris :
    (ofStart "S").placements Sample.journey 2 (.ofSeed 0) =
      [⟨Sample.visit, "STV", "visit"⟩, ⟨Sample.paris, "PN", "Paris"⟩] ∧
    "pn" ∈ Sample.visit.word.nextCategories := by
  have hrun : (ofStart Sample.journey.language.grammar.start).placements Sample.journey 2
      (.ofSeed 0) =
        [⟨Sample.visit, "STV", "visit"⟩] ++ ⟨Sample.paris, "PN", "Paris"⟩ :: [] := by decide +kernel
  obtain ⟨earlier, previous, hbefore, record, hrecord, hlists⟩ :=
    proper_noun_licensed hrun (by decide +kernel)
  have hlast : previous = ⟨Sample.visit, "STV", "visit"⟩ := by
    simpa using (congrArg List.getLast? hbefore).symm
  subst hlast
  cases hrecord
  exact ⟨hrun, hlists⟩

end Session

end SentenceWalk
