import SentenceWalk.Language
import SentenceWalk.Proofs.CategoryMembers

namespace SentenceWalk

def IsFirst {α : Type} (holds : α → Prop) (items : List α) (item : α) : Prop :=
  ∃ before after, items = before ++ item :: after ∧ holds item ∧ ∀ other ∈ before, ¬ holds other

theorem find?_eq_some_iff_isFirst {α : Type} {p : α → Bool} {items : List α} {item : α} :
    items.find? p = some item ↔ IsFirst (fun item => p item = true) items item := by
  rw [List.find?_eq_some_iff_append]
  simp [IsFirst, and_left_comm]

theorem Hierarchy.mem_categories_of_isA {hierarchy : Hierarchy} {category ancestor : String}
    (h : hierarchy.isA category ancestor = true) :
    category = ancestor ∨ ancestor ∈ hierarchy.categories := by
  rw [isA_iff, descendants?] at h
  rcases h with heq | hbelow
  · exact .inl heq
  · right
    rw [categories, Std.ExtTreeMap.mem_keys]
    apply Classical.byContradiction
    intro hnone
    simp [Std.ExtTreeMap.getElem?_eq_none hnone] at hbelow

theorem Lexicon.mem_members?_index {lexicon : Lexicon} {hierarchy : Hierarchy}
    {category name : String} :
    name ∈ ((lexicon.index hierarchy).members? category).getD ∅ ↔
      ∃ carrier ∈ lexicon.words, carrier.name = name ∧
        ∃ tag ∈ carrier.categories, hierarchy.isA tag category = true := by
  rw [members?_index]
  constructor
  · intro hmem
    split at hmem
    · rw [Option.getD_some, mem_membersIn] at hmem
      obtain ⟨tag, hisA, hcarrier⟩ := hmem
      obtain ⟨carrier, hlisted, htag, hname⟩ := mem_getD_carriers.1 hcarrier
      exact ⟨carrier, hlisted, hname, tag, htag, hisA⟩
    · simp at hmem
  · rintro ⟨carrier, hlisted, hname, tag, htag, hisA⟩
    have hknown : category ∈ hierarchy.categories ∨
        ∃ word ∈ lexicon.words, category ∈ word.categories := by
      rcases Hierarchy.mem_categories_of_isA hisA with rfl | hcategory
      · exact .inr ⟨carrier, hlisted, htag⟩
      · exact .inl hcategory
    rw [if_pos hknown, Option.getD_some, mem_membersIn]
    exact ⟨tag, hisA, mem_getD_carriers.2 ⟨carrier, hlisted, htag, hname⟩⟩

namespace Language

variable {grammar : Grammar} {hierarchy : Hierarchy} {lexicon : Lexicon} {language : Language}
variable {words : List Word} {word : Word} {category name : String} {error : LanguageError}

def Knows (hierarchy : Hierarchy) (words : List Word) (category : String) : Prop :=
  hierarchy.contains category = true ∨ ∃ word ∈ words, category ∈ word.categories

instance : Decidable (Knows hierarchy words category) :=
  inferInstanceAs (Decidable (_ ∨ _))

def KnowsAll (hierarchy : Hierarchy) (words : List Word) (word : Word) : Prop :=
  ∀ category ∈ word.nextCategories, Knows hierarchy words category

instance : Decidable (KnowsAll hierarchy words word) :=
  inferInstanceAs (Decidable (∀ _ ∈ _, _))

theorem unknown_iff :
    (!hierarchy.contains category && !lexicon.hasCategory category) = true ↔
      ¬ Knows hierarchy lexicon.words category := by
  rw [Knows, ← Lexicon.hasCategory_iff]
  simp

theorem unknownCategory?_eq_none_iff :
    unknownCategory? hierarchy lexicon word = none ↔ KnowsAll hierarchy lexicon.words word := by
  rw [unknownCategory?, List.find?_eq_none]
  simp only [unknown_iff, Classical.not_not, KnowsAll]

theorem unknownCategory?_eq_some_iff :
    unknownCategory? hierarchy lexicon word = some category ↔
      IsFirst (fun category => ¬ Knows hierarchy lexicon.words category) word.nextCategories
        category := by
  rw [unknownCategory?, find?_eq_some_iff_isFirst]
  simp only [unknown_iff]

theorem not_knowsAll_of_isFirst
    (h : IsFirst (fun category => ¬ Knows hierarchy words category) word.nextCategories category) :
    ¬ KnowsAll hierarchy words word := by
  obtain ⟨before, after, hsplit, hunknown, _⟩ := h
  intro hall
  exact hunknown (hall category (by simp [hsplit]))

/-- Parts come together to a language if every category that a word requires is known, else to an
error that names the first word of which this is not so, and its first unknown category. -/
theorem assemble_cases (grammar : Grammar) (hierarchy : Hierarchy) (lexicon : Lexicon) :
    ((∀ word ∈ lexicon.words, KnowsAll hierarchy lexicon.words word) ∧
      assemble grammar hierarchy lexicon =
        .ok { grammar, hierarchy, lexicon := lexicon.index hierarchy }) ∨
    ∃ word category,
      IsFirst (fun word => ¬ KnowsAll hierarchy lexicon.words word) lexicon.words word ∧
        IsFirst (fun category => ¬ Knows hierarchy lexicon.words category) word.nextCategories
          category ∧
        assemble grammar hierarchy lexicon = .error (.unknownCategory word.name category) := by
  rw [assemble]
  split
  · rename_i name category hfound
    right
    obtain ⟨before, word, after, hsplit, hword, hbefore⟩ := List.findSome?_eq_some_iff.1 hfound
    obtain ⟨first, hfirst, heq⟩ := Option.map_eq_some_iff.1 hword
    cases heq
    have hunknown := unknownCategory?_eq_some_iff.1 hfirst
    refine ⟨word, category, ⟨before, after, hsplit, not_knowsAll_of_isFirst hunknown, ?_⟩,
      hunknown, rfl⟩
    intro other hmem
    have hnone := Option.map_eq_none_iff.1 (hbefore other hmem)
    exact not_not_intro (unknownCategory?_eq_none_iff.1 hnone)
  · rename_i hnone
    left
    refine ⟨?_, rfl⟩
    intro word hmem
    rw [List.findSome?_eq_none_iff] at hnone
    exact unknownCategory?_eq_none_iff.1 (Option.map_eq_none_iff.1 (hnone word hmem))

theorem assemble_ok (h : assemble grammar hierarchy lexicon = .ok language) :
    (∀ word ∈ lexicon.words, KnowsAll hierarchy lexicon.words word) ∧
      language = { grammar, hierarchy, lexicon := lexicon.index hierarchy } := by
  obtain ⟨hknown, hok⟩ | ⟨_, _, _, _, herror⟩ := assemble_cases grammar hierarchy lexicon
  · exact ⟨hknown, Except.ok.inj (h.symm.trans hok)⟩
  · cases h.symm.trans herror

theorem exists_assemble_iff : (∃ language, assemble grammar hierarchy lexicon = .ok language) ↔
    ∀ word ∈ lexicon.words, KnowsAll hierarchy lexicon.words word := by
  constructor
  · rintro ⟨language, h⟩
    exact (assemble_ok h).1
  · intro hknown
    obtain ⟨_, hok⟩ | ⟨word, _, ⟨before, after, hsplit, hunknown, _⟩, _⟩ :=
      assemble_cases grammar hierarchy lexicon
    · exact ⟨_, hok⟩
    · exact absurd (hknown word (by simp [hsplit])) hunknown

theorem assemble_eq (hknown : ∀ word ∈ lexicon.words, KnowsAll hierarchy lexicon.words word) :
    assemble grammar hierarchy lexicon =
      .ok { grammar, hierarchy, lexicon := lexicon.index hierarchy } := by
  obtain ⟨language, h⟩ := exists_assemble_iff.2 hknown
  rw [h, (assemble_ok h).2]

theorem mem_requirements : name ∈ language.requirements word ↔ name ∈ word.nextWords ∨
    ∃ category ∈ word.nextCategories, name ∈ (language.lexicon.members? category).getD ∅ := by
  have hstep (names : NameSet) (category : String) :
      name ∈ names ∪ (language.lexicon.members? category).getD ∅ ↔
        name ∈ names ∨ name ∈ (language.lexicon.members? category).getD ∅ :=
    Std.ExtTreeSet.mem_union_iff
  rw [requirements, foldl_iff (fun names : NameSet => name ∈ names) hstep, NameSet.mem_ofList]

/-- A name of one of the words that may follow: it is listed, or a word has it that belongs to a
required category. -/
def Follows (hierarchy : Hierarchy) (words : List Word) (word : Word) (name : String) : Prop :=
  name ∈ word.nextWords ∨
    ∃ category ∈ word.nextCategories, ∃ carrier ∈ words, carrier.name = name ∧
      ∃ tag ∈ carrier.categories, hierarchy.isA tag category = true

theorem mem_requirements_of_assemble (h : assemble grammar hierarchy lexicon = .ok language) :
    name ∈ language.requirements word ↔ Follows hierarchy lexicon.words word name := by
  obtain ⟨_, rfl⟩ := assemble_ok h
  simp only [mem_requirements, Lexicon.mem_members?_index, Follows]

theorem isSome_members?_of_knows (h : Knows hierarchy lexicon.words category) :
    ((lexicon.index hierarchy).members? category).isSome = true := by
  rw [Lexicon.members?_index, if_pos]
  · rfl
  · rw [Hierarchy.categories, Std.ExtTreeMap.mem_keys, ← Std.ExtTreeMap.contains_iff_mem]
    exact h

/-- Parts come together to a language if and only if every category that a word requires is in the
hierarchy or named by a word. Otherwise the error names the first word that requires another one,
and the first such category of this word. In a language no category that a word requires is passed
over: what may follow the word are the names that it lists and those of all words that name a
required category or one below it. -/
theorem assembled_language_knows_categories (grammar : Grammar) (hierarchy : Hierarchy)
    (h : Lexicon.ofWords words = .ok lexicon) :
    ((∃ language, assemble grammar hierarchy lexicon = .ok language) ↔
      ∀ word ∈ words, ∀ category ∈ word.nextCategories, Knows hierarchy words category) ∧
    (∀ error, assemble grammar hierarchy lexicon = .error error →
      ∃ word category, IsFirst (fun word => ¬ KnowsAll hierarchy words word) words word ∧
        IsFirst (fun category => ¬ Knows hierarchy words category) word.nextCategories category ∧
        error = .unknownCategory word.name category) ∧
    ∀ language, assemble grammar hierarchy lexicon = .ok language →
      language.grammar = grammar ∧ language.hierarchy = hierarchy ∧
      language.lexicon.words = words ∧ ∀ word ∈ words,
        (∀ category ∈ word.nextCategories,
          (language.lexicon.members? category).isSome = true) ∧
        ∀ name, name ∈ language.requirements word ↔ name ∈ word.nextWords ∨
          ∃ category ∈ word.nextCategories, ∃ carrier ∈ words, carrier.name = name ∧
            ∃ tag ∈ carrier.categories, hierarchy.isA tag category = true := by
  obtain rfl := Lexicon.ofWords_ok h
  refine ⟨exists_assemble_iff, ?_, ?_⟩
  · intro error herror
    obtain ⟨_, hok⟩ | ⟨word, category, hword, hcategory, hnamed⟩ :=
      assemble_cases grammar hierarchy lexicon
    · cases herror.symm.trans hok
    · exact ⟨word, category, hword, hcategory, Except.error.inj (herror.symm.trans hnamed)⟩
  · intro language hok
    obtain ⟨hknown, hlanguage⟩ := assemble_ok hok
    refine ⟨by rw [hlanguage], by rw [hlanguage], by rw [hlanguage]; rfl, ?_⟩
    intro word hmem
    refine ⟨?_, fun name => mem_requirements_of_assemble hok⟩
    intro category hcategory
    rw [hlanguage]
    exact isSome_members?_of_knows (hknown word hmem category hcategory)

end Language

namespace Sample

def feed : Word :=
  { name := "feed", tag := "STV", nextWords := ["stone"], nextCategories := ["loose", "left"] }

def pantry : List Word :=
  feed :: stock

def silence : Grammar where
  parts := .ofList [("S", (⟨.start, ["END"], [1], ∅⟩ : Part)), ("END", ⟨.finish, [], [], ∅⟩)]
  sound := Option.isNone_iff_eq_none.1 (by decide +kernel)

end Sample

theorem Language.assembled_language_knows_categories_feed :
    ∃ lexicon language, Lexicon.ofWords Sample.pantry = .ok lexicon ∧
      assemble Sample.silence Sample.diamondHierarchy lexicon = .ok language ∧
      "stone" ∈ language.requirements Sample.feed ∧ "leaf" ∈ language.requirements Sample.feed ∧
      "twig" ∉ language.requirements Sample.feed := by
  obtain ⟨lexicon, hfound⟩ := Option.isSome_iff_exists.1
    (show (Lexicon.ofWords Sample.pantry).toOption.isSome = true by decide +kernel)
  have h := eq_ok_of_toOption hfound
  obtain ⟨hknown, _, hlanguage⟩ :=
    assembled_language_knows_categories Sample.silence Sample.diamondHierarchy h
  obtain ⟨language, hok⟩ := hknown.2 (by decide +kernel)
  obtain ⟨_, _, _, hwords⟩ := hlanguage language hok
  obtain ⟨_, hrequired⟩ := hwords Sample.feed List.mem_cons_self
  refine ⟨lexicon, language, h, hok, (hrequired "stone").2 (.inl ?_), (hrequired "leaf").2 ?_, ?_⟩
  · decide
  · decide +kernel
  · rw [hrequired]
    decide +kernel

end SentenceWalk
