import SentenceWalk.Proofs.LanguageAssembly
import SentenceWalk.Proofs.Likeness

namespace SentenceWalk

def Carries (words : List Word) (name category : String) : Prop :=
  ∃ word ∈ words, word.name = name ∧ category ∈ word.categories

/-- Whether words of the same names list the same categories. -/
def SameCarriers (words others : List Word) : Prop :=
  ∀ name category, Carries others name category ↔ Carries words name category

namespace Language

variable {grammar : Grammar} {hierarchy : Hierarchy} {lexicon lexicon' : Lexicon}
variable {language language' : Language} {words words' : List Word} {word word' : Word}
variable {category name : String}

theorem knows_iff : Knows hierarchy words category ↔
    hierarchy.contains category = true ∨ ∃ name, Carries words name category := by
  rw [Knows]
  refine or_congr_right ?_
  constructor
  · rintro ⟨word, hmem, hcategory⟩
    exact ⟨word.name, word, hmem, rfl, hcategory⟩
  · rintro ⟨_, word, hmem, _, hcategory⟩
    exact ⟨word, hmem, hcategory⟩

theorem follows_iff : Follows hierarchy words word name ↔ name ∈ word.nextWords ∨
    ∃ category ∈ word.nextCategories, ∃ tag, Carries words name tag ∧
      hierarchy.isA tag category = true := by
  rw [Follows]
  refine or_congr_right (exists_congr fun category => and_congr_right fun _ => ?_)
  constructor
  · rintro ⟨carrier, hmem, hname, tag, htag, hisA⟩
    exact ⟨tag, ⟨carrier, hmem, hname, htag⟩, hisA⟩
  · rintro ⟨tag, ⟨carrier, hmem, hname, htag⟩, hisA⟩
    exact ⟨carrier, hmem, hname, tag, htag, hisA⟩

theorem knowsAll_congr (hs : SameCarriers words words') (h : word.Like word') :
    KnowsAll hierarchy words' word' ↔ KnowsAll hierarchy words word := by
  simp only [KnowsAll, knows_iff, h.nextCategories, hs _ _]

theorem follows_congr (hs : SameCarriers words words') (h : word.Like word') :
    Follows hierarchy words' word' name ↔ Follows hierarchy words word name := by
  simp only [follows_iff, h.nextWords, h.nextCategories, hs _ _]

theorem requirements_eq (h : assemble grammar hierarchy lexicon = .ok language)
    (h' : assemble grammar hierarchy lexicon' = .ok language')
    (hs : SameCarriers lexicon.words lexicon'.words) (hw : word.Like word') :
    language'.requirements word' = language.requirements word := by
  apply Std.ExtTreeSet.ext_mem
  intro name
  rw [mem_requirements_of_assemble h, mem_requirements_of_assemble h', follows_congr hs hw]

/-- Languages of one grammar and one hierarchy offer the same choices if the same categories are
carried, and if every part draws words alike and the same prepositions are found. -/
theorem alike_of_assemble (h : assemble grammar hierarchy lexicon = .ok language)
    (h' : assemble grammar hierarchy lexicon' = .ok language')
    (hs : SameCarriers lexicon.words lexicon'.words)
    (hoffered : ∀ tags : NameSet, (∀ tag ∈ tags, grammar.Draws tag) →
      List.Forall₂ Entry.Like (lexicon.withTags tags) (lexicon'.withTags tags))
    (hfound : ∀ name tag, grammar.Draws tag →
      Option.Rel Word.Like (lexicon.lookup name tag) (lexicon'.lookup name tag))
    (config : Config) : Rules.Alike ⟨language, config⟩ ⟨language', config⟩ := by
  have hrequirements {word word' : Word} (hw : word.Like word') :
      language'.requirements word' = language.requirements word := requirements_eq h h' hs hw
  obtain ⟨_, rfl⟩ := assemble_ok h
  obtain ⟨_, rfl⟩ := assemble_ok h'
  refine ⟨rfl, rfl, ?_, hrequirements, ?_⟩
  · intro code part hp
    exact hoffered part.vocabulary fun tag htag => ⟨code, part, hp, htag⟩
  · intro preposition hdraws
    have hrel := hfound preposition.name preposition.tag hdraws
    change Option.any _ (lexicon'.lookup _ _) = Option.any _ (lexicon.lookup _ _)
    generalize lexicon.lookup _ _ = found, lexicon'.lookup _ _ = found' at hrel ⊢
    cases hrel with
    | none => rfl
    | some hlike => exact hlike.hasFlag _

end Language

end SentenceWalk
