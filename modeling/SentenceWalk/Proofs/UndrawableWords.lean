import SentenceWalk.Proofs.CategoryCarriers
import SentenceWalk.Proofs.NounNumber
import SentenceWalk.Proofs.ParallelSessions

namespace SentenceWalk

variable {words more : List Word}

theorem sameCarriers_append (h : ∀ word ∈ more, word.categories = []) :
    SameCarriers words (words ++ more) := by
  intro name category
  constructor
  · rintro ⟨word, hmem, hname, hcategory⟩
    rcases List.mem_append.1 hmem with hmem | hmem
    · exact ⟨word, hmem, hname, hcategory⟩
    · rw [h word hmem] at hcategory
      cases hcategory
  · rintro ⟨word, hmem, hcarries⟩
    exact ⟨word, List.mem_append_left _ hmem, hcarries⟩

namespace Lexicon

variable {lexicon longer : Lexicon} {tags : NameSet} {name tag : String}

theorem withTags_append (h : longer.words = lexicon.words ++ more)
    (hm : ∀ word ∈ more, word.tag ∉ tags) : longer.withTags tags = lexicon.withTags tags := by
  rw [withTags, withTags, entries, entries, h, List.zipIdx_append, List.map_append,
    List.filter_append]
  refine (congrArg _ (List.filter_eq_nil_iff.2 ?_)).trans (List.append_nil _)
  intro entry hmem
  obtain ⟨⟨word, id⟩, hplace, rfl⟩ := List.mem_map.1 hmem
  rw [Std.ExtTreeSet.contains_iff_mem]
  exact hm word (List.fst_mem_of_mem_zipIdx hplace)

theorem lookup_append (h : longer.words = lexicon.words ++ more)
    (hm : ∀ word ∈ more, word.tag ≠ tag) : longer.lookup name tag = lexicon.lookup name tag := by
  have hnone : (more.find? fun word => word.name == name && word.tag == tag) = none := by
    rw [List.find?_eq_none]
    intro word hmem
    simp [hm word hmem]
  rw [lookup_eq_find?, lookup_eq_find?, h, List.find?_append, hnone, Option.or_none]

end Lexicon

namespace Session

variable {grammar : Grammar} {hierarchy : Hierarchy} {lexicon longer : Lexicon}
variable {language extended : Language}

/-- Words without categories that no part draws do not interfere with any sentence. If a language
remains one when such words are appended to its word table, then whatever the settings and the
random words, each step from the start gives the same answer in both languages and leaves the same
pending requirements, the same sentence and the same stream. -/
theorem undrawable_words_do_not_interfere
    (h : Language.assemble grammar hierarchy lexicon = .ok language)
    (hwords : longer.words = lexicon.words ++ more)
    (hx : Language.assemble grammar hierarchy longer = .ok extended)
    (hmore : ∀ word ∈ more, word.categories = [] ∧ ¬ grammar.Draws word.tag)
    (config : Config) (steps : Nat) (stream : RandomStream) :
    (ofStart extended.grammar.start).transcript ⟨extended, config⟩ steps stream =
      (ofStart language.grammar.start).transcript ⟨language, config⟩ steps stream := by
  have hundrawn {tag : String} (hdraws : grammar.Draws tag) : ∀ word ∈ more, word.tag ≠ tag := by
    rintro word hmem rfl
    exact (hmore word hmem).2 hdraws
  -- What these words require themselves does not matter, since none of them comes to a cursor.
  have hcarriers : SameCarriers lexicon.words longer.words := by
    rw [hwords]
    exact sameCarriers_append fun word hmem => (hmore word hmem).1
  refine transcript_ofStart (Language.alike_of_assemble h hx hcarriers ?_ ?_ config) steps stream
  · intro tags hdraws
    have hothers : ∀ word ∈ more, word.tag ∉ tags :=
      fun word hmem htag => hundrawn (hdraws _ htag) word hmem rfl
    rw [Lexicon.withTags_append hwords hothers]
    exact List.forall₂_same.2 fun entry _ => .refl entry
  · intro name tag hdraws
    rw [Lexicon.lookup_append hwords (hundrawn hdraws)]
    cases lexicon.lookup name tag with
    | none => exact .none
    | some word => exact .some (.refl word)

end Session

namespace Sample

def perry : Word :=
  { name := "pear", tag := "DRINK", nextWords := ["man"], nextCategories := ["left"],
    flags := ["okayconj"] }

def longerCrowd : Lexicon where
  words := crowd.language.lexicon.words ++ [perry]

end Sample

theorem Session.undrawable_words_do_not_interfere_perry :
    ∃ language extended,
      Language.assemble Sample.crowdGrammar Sample.diamondHierarchy Sample.crowd.language.lexicon =
        .ok language ∧
      Language.assemble Sample.crowdGrammar Sample.diamondHierarchy Sample.longerCrowd =
        .ok extended ∧
      ((ofStart extended.grammar.start).transcript ⟨extended, {}⟩ 5 (.ofSeed 0)).map
        (fun item => item.2.2.1) = ["many", "many pears", "many pears and", "many pears and men",
          "many pears and men"] := by
  obtain ⟨language, h⟩ := Language.exists_assemble_iff.2
    (show ∀ word ∈ Sample.crowd.language.lexicon.words,
      Language.KnowsAll Sample.diamondHierarchy Sample.crowd.language.lexicon.words word by
        decide +kernel)
  obtain ⟨extended, hx⟩ := Language.exists_assemble_iff.2
    (show ∀ word ∈ Sample.longerCrowd.words,
      Language.KnowsAll Sample.diamondHierarchy Sample.longerCrowd.words word by decide +kernel)
  refine ⟨language, extended, h, hx, ?_⟩
  have hundrawn : ∀ word ∈ [Sample.perry],
      word.categories = [] ∧ ¬ Sample.crowdGrammar.Draws word.tag := by decide +kernel
  rw [undrawable_words_do_not_interfere h rfl hx hundrawn {} 5 (.ofSeed 0)]
  obtain ⟨_, rfl⟩ := Language.assemble_ok h
  decide +kernel

end SentenceWalk
