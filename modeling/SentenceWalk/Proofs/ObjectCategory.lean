import SentenceWalk.Proofs.ChoiceEffect
import SentenceWalk.Proofs.LanguageAssembly

namespace SentenceWalk

/-- Whether a word belongs to a category that the verb requires of its object. -/
def Word.Suits (hierarchy : Hierarchy) (verb object : Word) : Prop :=
  ∃ category ∈ verb.nextCategories, ∃ tag ∈ object.categories, hierarchy.isA tag category = true

instance {hierarchy : Hierarchy} {verb object : Word} : Decidable (verb.Suits hierarchy object) :=
  inferInstanceAs (Decidable (∃ _ ∈ _, ∃ _ ∈ _, _))

/-! A language of the sentence "taste date", where a date is a fruit or a day. -/

namespace Sample

def foodEdges : List Edge :=
  [⟨"food", noCategory⟩, ⟨"fruit", "food"⟩, ⟨"time", noCategory⟩]

def foods : Hierarchy :=
  (Hierarchy.ofEdges foodEdges).toOption.getD {}

def taste : Entry := ⟨0, { name := "taste", tag := "STV", nextCategories := ["food"] }⟩

def day : Entry := ⟨1, { name := "date", tag := "N", categories := ["time"] }⟩

def date : Entry := ⟨2, { name := "date", tag := "MN", categories := ["fruit"] }⟩

def object : Part := ⟨.noun, ["END"], [1], .ofList ["N", "MN"]⟩

def tasteGrammar : Grammar where
  parts := .ofList [
    ("S", (⟨.start, ["STV"], [1], ∅⟩ : Part)),
    ("STV", ⟨.verb, ["N"], [1], .ofList ["STV"]⟩),
    ("N", object),
    ("END", ⟨.finish, [], [], ∅⟩)]
  sound := Option.isNone_iff_eq_none.1 (by decide +kernel)

def dates : Lexicon where
  words := [taste.word, day.word, date.word]

def fruits : Lexicon where
  words := [taste.word, date.word]

def tasting (lexicon : Lexicon) : Rules where
  language := { grammar := tasteGrammar, hierarchy := foods, lexicon := lexicon.index foods }
  config := {}

end Sample

variable {grammar : Grammar} {hierarchy : Hierarchy} {lexicon : Lexicon} {language : Language}
variable {part : Part} {verb entry : Entry} {code target name : String}
variable {history : History} {used : UsedWords} {stream : RandomStream}

namespace Language

theorem mem_requirements_iff_suits (h : assemble grammar hierarchy lexicon = .ok language)
    (hlisted : verb.word.nextWords = []) :
    name ∈ language.requirements verb.word ↔
      ∃ carrier ∈ lexicon.words, carrier.name = name ∧ verb.word.Suits hierarchy carrier := by
  rw [mem_requirements_of_assemble h, Follows, hlisted]
  constructor
  · rintro (hmem | ⟨category, hcategory, carrier, hcarrier, hname, htag⟩)
    · cases hmem
    · exact ⟨carrier, hcarrier, hname, category, hcategory, htag⟩
  · rintro ⟨carrier, hcarrier, hname, category, hcategory, htag⟩
    exact .inr ⟨category, hcategory, carrier, hcarrier, hname, htag⟩

end Language

namespace Rules

theorem restriction_behind_verb (rules : Rules) (hc : history.inConjunction = false) :
    rules.restriction ⟨code, some verb⟩ history {} = rules.requirements verb := by
  rw [restriction, if_neg (by simp [hc])]
  exact Pending.combine_empty_left _

/-- Behind a verb that requires a category of its object, and lists no words, the object has the
name of a word of such a category. It is of such a category itself if no other word has its name. -/
theorem name_of_object_suits
    (h : Language.assemble grammar hierarchy lexicon = .ok language) (config : Config)
    (hp : grammar.parts[target]? = some part) (hr : part.role = .noun)
    (hlisted : verb.word.nextWords = []) (hrequires : language.requirements verb.word ≠ ∅)
    (hc : history.inConjunction = false)
    (hw : (nextWord ⟨language, config⟩ ⟨code, some verb⟩ target {} history used stream).1 =
      .ok (.word entry)) :
    lexicon.words[entry.id]? = some entry.word ∧
    (∃ carrier ∈ lexicon.words, carrier.name = entry.name ∧
      verb.word.Suits hierarchy carrier) ∧
    ((∀ other ∈ lexicon.words, other.name = entry.name → other = entry.word) →
      verb.word.Suits hierarchy entry.word) := by
  have hlanguage := (Language.assemble_ok h).2
  have hpart : language.grammar.parts[target]? = some part := by
    rw [hlanguage]
    exact hp
  have hplace : lexicon.words[entry.id]? = some entry.word := by
    obtain ⟨_, _, _, hword, _⟩ := offers_of_word hpart hw
    rw [hlanguage] at hword
    exact hword
  have hname : entry.name ∈ language.requirements verb.word := by
    have hmeets := name_of_noun hpart hr hw
    rw [pendingAfter_eq_restriction, restriction_behind_verb _ hc] at hmeets
    exact hmeets hrequires
  obtain ⟨carrier, hcarrier, hsame, hsuits⟩ :=
    (Language.mem_requirements_iff_suits h hlisted).1 hname
  refine ⟨hplace, ⟨carrier, hcarrier, hsame, hsuits⟩, ?_⟩
  intro honly
  rw [← honly carrier hcarrier hsame]
  exact hsuits

theorem name_of_object_suits_date :
    ((Sample.tasting Sample.fruits).nextWord ⟨"STV", some Sample.taste⟩ "N" {} {} {}
      (.ofSeed 0)).1 = .ok (.word ⟨1, Sample.date.word⟩) ∧
    Sample.taste.word.Suits Sample.foods Sample.date.word := by
  have h : Language.assemble Sample.tasteGrammar Sample.foods Sample.fruits =
      .ok (Sample.tasting Sample.fruits).language := Language.assemble_eq (by decide +kernel)
  have hp : Sample.tasteGrammar.parts["N"]? = some Sample.object := rfl
  have hw : ((Sample.tasting Sample.fruits).nextWord ⟨"STV", some Sample.taste⟩ "N" {} {} {}
      (.ofSeed 0)).1 = .ok (.word ⟨1, Sample.date.word⟩) := eq_ok_of_toOption (by decide +kernel)
  obtain ⟨_, _, hown⟩ := name_of_object_suits h {} hp rfl rfl (by decide +kernel) rfl hw
  exact ⟨hw, hown (by decide +kernel)⟩

/-- What may be tasted is a date that is a fruit, but the date that is chosen is a day. -/
theorem object_is_homonym :
    Hierarchy.ofEdges Sample.foodEdges = .ok Sample.foods ∧
    Language.assemble Sample.tasteGrammar Sample.foods Sample.dates =
      .ok (Sample.tasting Sample.dates).language ∧
    Sample.object.role = .noun ∧ Sample.taste.word.nextWords = [] ∧
    (Sample.tasting Sample.dates).requirements Sample.taste = .ofList ["date"] ∧
    ((Sample.tasting Sample.dates).nextWord ⟨"STV", some Sample.taste⟩ "N" {} {} {}
      (.ofSeed 42)).1 = .ok (.word Sample.day) ∧
    ¬ Sample.taste.word.Suits Sample.foods Sample.day.word ∧
    (Session.ofStart "S").placements (Sample.tasting Sample.dates) 4 (.ofSeed 0) =
      [⟨Sample.taste, "STV", "taste"⟩, ⟨Sample.day, "N", "date"⟩] :=
  ⟨eq_ok_of_toOption (by decide +kernel), Language.assemble_eq (by decide +kernel), rfl, rfl,
    by decide +kernel, eq_ok_of_toOption (by decide +kernel), by decide +kernel,
    by decide +kernel⟩

end Rules

end SentenceWalk
