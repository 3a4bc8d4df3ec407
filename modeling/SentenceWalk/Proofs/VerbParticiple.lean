import SentenceWalk.Proofs.NounNumber
import SentenceWalk.Proofs.ProperNounLicence

namespace SentenceWalk

def Cursor.name (cursor : Cursor) : String :=
  (cursor.entry.map Entry.name).getD ""

/-! A language of one phrase, "dance while singing". -/

namespace Sample

def dance : Entry := ⟨0, { name := "dance", tag := "IV" }⟩

def whilst : Entry := ⟨1, { name := "while", tag := "CONJ" }⟩

def sing : Entry := ⟨2, { name := "sing", tag := "MTV" }⟩

def revelGrammar : Grammar where
  parts := .ofList [
    ("S", (⟨.start, ["IV"], [1], ∅⟩ : Part)),
    ("IV", ⟨.verb, ["CONJ"], [1], .ofList ["IV"]⟩),
    ("CONJ", ⟨.conjunction, ["MTV"], [1], .ofList ["CONJ"]⟩),
    ("MTV", ⟨.verb, ["END"], [1], .ofList ["MTV"]⟩),
    ("END", ⟨.finish, [], [], ∅⟩)]
  sound := Option.isNone_iff_eq_none.1 (by decide +kernel)

def revelLanguage : Language where
  grammar := revelGrammar
  hierarchy := {}
  lexicon := { words := [dance.word, whilst.word, sing.word] }

end Sample

namespace Session

variable {rules : Rules} {past before after : List Placement} {session observed : Session}
variable {stream : RandomStream} {word previous : Placement} {seen : List Cursor}

theorem Chronicle.participle (h : Chronicle rules seen session) :
    session.situation.participle =
      seen.head?.any fun cursor => cursor.name == rules.config.participleTrigger := by
  induction h with
  | blank hh hu hs =>
    rw [hs]
    rfl
  | first h ho ih =>
    rw [ho.situation]
    rfl
  | again h ho ih =>
    rw [ho.situation]
    rfl
  | congr h hh hu hs ih => rw [hs, ih]

theorem head?_cursors (rules : Rules) (past : List Placement) :
    (cursors rules past).head? =
      some ((past.getLast?.map Placement.cursor).getD
        { code := rules.language.grammar.start }) := by
  obtain rfl | ⟨earlier, last, rfl⟩ := List.eq_nil_or_concat' past
  · rfl
  · simp [cursors_concat]

theorem Reached.form_of_verb (h : Reached rules before session)
    (hstep : (session.step rules stream).1 = word.answer)
    (hr : word.role? rules.language.grammar = some .verb) :
    word.form =
      if ((before.getLast?.map fun previous => previous.entry.name).getD "") =
          rules.config.participleTrigger then Word.participle word.entry.name
      else word.entry.name := by
  obtain ⟨observed, middle, pending, hs, _, _, hform, _⟩ := step_placed hstep
  obtain ⟨_, ho⟩ := observe_ok hs
  obtain ⟨part, hp, hverb⟩ := Placement.part_of_role? hr
  have hinflected : word.form = word.entry.word.inflect .verb observed.situation :=
    Rules.form_of_render hform (hverb ▸ Grammar.role_eq hp)
  have hname : ((before.getLast?.map Placement.cursor).getD
      { code := rules.language.grammar.start }).name =
        (before.getLast?.map fun previous => previous.entry.name).getD "" := by
    cases before.getLast? <;> rfl
  have hflag := (h.recorded.observe ho).participle
  rw [head?_cursors, Option.any_some, hname] at hflag
  rw [hinflected, Word.inflect, hflag]
  simp only [beq_iff_eq]
  rfl

/-- Whatever fails on the way, each verb of a run is a participle right behind a word that has the
name of the trigger, and has its name unchanged behind any other word. At the start of a sentence it
is a participle only if the trigger is the empty name. -/
theorem verb_follows_trigger {steps : Nat}
    (hrun : (ofStart rules.language.grammar.start).placements rules steps stream =
      before ++ word :: after)
    (hr : word.role? rules.language.grammar = some .verb) :
    ∃ record, rules.language.lexicon.words[word.entry.id]? = some record ∧
      (∀ earlier previous, before = earlier ++ [previous] →
        ∃ named, rules.language.lexicon.words[previous.entry.id]? = some named ∧
          word.form = if named.name = rules.config.participleTrigger then
            Word.participle record.name else record.name) ∧
      (before = [] → word.form = if rules.config.participleTrigger = "" then
        Word.participle record.name else record.name) := by
  obtain ⟨reached, rest, hreached, hstep⟩ := Reached.start.placement hrun
  rw [List.nil_append] at hreached
  have hform := hreached.form_of_verb hstep hr
  obtain ⟨last, hlast⟩ := Reached.start.placements steps stream
  rw [List.nil_append, hrun] at hlast
  obtain ⟨_, _, _, hrecord, _⟩ :=
    hlast.walks.offered word (List.mem_append_right _ List.mem_cons_self)
  refine ⟨word.entry.word, hrecord, ?_, ?_⟩
  · intro earlier previous hbefore
    subst hbefore
    obtain ⟨_, _, _, hnamed, _⟩ :=
      hreached.walks.offered previous (List.mem_append_right _ List.mem_cons_self)
    refine ⟨previous.entry.word, hnamed, ?_⟩
    rw [hform, List.getLast?_concat]
    rfl
  · intro hbefore
    subst hbefore
    rw [hform]
    simp only [List.getLast?_nil, Option.map_none, Option.getD_none, eq_comm]
    rfl

theorem verb_follows_trigger_singing :
    (ofStart "S").placements ⟨Sample.revelLanguage, {}⟩ 3 (.ofSeed 0) =
      [⟨Sample.dance, "IV", "dance"⟩, ⟨Sample.whilst, "CONJ", "while"⟩,
        ⟨Sample.sing, "MTV", "singing"⟩] ∧
    "singing" = Word.participle "sing" := by
  have hrun : (ofStart Sample.revelLanguage.grammar.start).placements ⟨Sample.revelLanguage, {}⟩ 3
      (.ofSeed 0) =
        [⟨Sample.dance, "IV", "dance"⟩, ⟨Sample.whilst, "CONJ", "while"⟩] ++
          ⟨Sample.sing, "MTV", "singing"⟩ :: [] := by decide +kernel
  obtain ⟨record, hrecord, hbehind, _⟩ := verb_follows_trigger hrun (by decide +kernel)
  cases hrecord
  obtain ⟨named, hnamed, hform⟩ := hbehind [⟨Sample.dance, "IV", "dance"⟩] _ rfl
  cases hnamed
  exact ⟨hrun, hform⟩

/-- Under an empty trigger the first verb is a participle although every word has a name, so that
none could have asked for it. -/
theorem first_verb_follows_empty_trigger :
    let rules : Rules := ⟨Sample.revelLanguage, { participleTrigger := "" }⟩
    (∀ record ∈ rules.language.lexicon.words, record.name ≠ "") ∧
      (ofStart rules.language.grammar.start).placements rules 1 (.ofSeed 0) =
        [⟨Sample.dance, "IV", "dancing"⟩] ∧
      rules.language.grammar.role "IV" = .ok .verb ∧ Sample.dance.word.name = "dance" := by
  intro rules
  exact ⟨by decide +kernel, by decide +kernel, eq_ok_of_toOption (by decide +kernel), rfl⟩

end Session

end SentenceWalk
