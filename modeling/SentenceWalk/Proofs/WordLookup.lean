import Mathlib.Data.List.Basic
import SentenceWalk.Proofs.LanguageAssembly

namespace SentenceWalk

theorem find?_eq_some_iff_least {p : Entry → Bool} {entries : List Entry}
    (h : entries.Pairwise fun entry other => entry.id < other.id) {entry : Entry} :
    entries.find? p = some entry ↔ entry ∈ entries ∧ p entry = true ∧
      ∀ other ∈ entries, p other = true → entry.id ≤ other.id := by
  induction h with
  | nil => simp
  | @cons first entries hfirst _ ih =>
    rw [List.find?_cons]
    cases hp : p first with
    | true =>
      constructor
      · intro heq
        cases heq
        refine ⟨List.mem_cons_self, hp, ?_⟩
        intro other hmem _
        rcases List.mem_cons.1 hmem with rfl | hlater
        · exact Nat.le_refl _
        · exact Nat.le_of_lt (hfirst other hlater)
      · rintro ⟨hmem, _, hleast⟩
        have hle := hleast first List.mem_cons_self hp
        rcases List.mem_cons.1 hmem with rfl | hlater
        · rfl
        · exact absurd (hfirst entry hlater) (Nat.not_lt.2 hle)
    | false =>
      refine ih.trans ?_
      constructor
      · rintro ⟨hmem, hentry, hleast⟩
        refine ⟨List.mem_cons_of_mem _ hmem, hentry, ?_⟩
        intro other hother
        rcases List.mem_cons.1 hother with rfl | hlater
        · intro hfound
          rw [hp] at hfound
          cases hfound
        · exact hleast other hlater
      · rintro ⟨hmem, hentry, hleast⟩
        refine ⟨?_, hentry, fun other hother => hleast other (List.mem_cons_of_mem _ hother)⟩
        apply (List.mem_cons.1 hmem).resolve_left
        rintro rfl
        rw [hp] at hentry
        cases hentry

namespace Lexicon

variable {lexicon : Lexicon} {words : List Word} {word : Word} {entry : Entry}
variable {name tag : String} {tags : NameSet}

theorem pairwise_entries (lexicon : Lexicon) :
    lexicon.entries.Pairwise fun entry other => entry.id < other.id := by
  have hids : lexicon.entries.map Entry.id = List.range' 0 lexicon.words.length := by
    rw [entries, List.map_map, ← List.zipIdx_map_snd]
    rfl
  apply List.pairwise_map.1
  rw [hids]
  exact List.pairwise_lt_range'

theorem pairwise_withTags (lexicon : Lexicon) (tags : NameSet) :
    (lexicon.withTags tags).Pairwise fun entry other => entry.id < other.id :=
  lexicon.pairwise_entries.sublist List.filter_sublist

theorem entries_of_name (lexicon : Lexicon) (name : String) :
    (lexicon.tables.byName.getD name []).filterMap lexicon.entryAt =
      lexicon.entries.filter fun entry => entry.name == name := by
  rw [lexicon.lists_tables.byName, WordTables.placesOf, entries, List.filterMap_map,
    List.filter_map]
  apply List.filterMap_eq_map_iff_forall_eq_some.2
  intro item hmem
  have hplace := List.mk_mem_zipIdx_iff_getElem?.1 (List.mem_of_mem_filter hmem)
  simp [entryAt, hplace]

theorem find?_eq_some_iff : lexicon.find? name tags = some entry ↔
    entry ∈ lexicon.withTags tags ∧ entry.name = name ∧
      ∀ other ∈ lexicon.withTags tags, other.name = name → entry.id ≤ other.id := by
  have hscan : lexicon.find? name tags =
      (lexicon.withTags tags).find? fun entry => entry.name == name := by
    rw [find?, entries_of_name, withTags, List.find?_filter, List.find?_filter]
    simp only [and_comm]
  rw [hscan, find?_eq_some_iff_least (lexicon.pairwise_withTags tags)]
  simp only [beq_iff_eq]

theorem find?_eq_some_iff_words : lexicon.find? name tags = some entry ↔
    lexicon.words[entry.id]? = some entry.word ∧ entry.name = name ∧ entry.word.tag ∈ tags ∧
      ∀ id word, lexicon.words[id]? = some word → word.name = name → word.tag ∈ tags →
        entry.id ≤ id := by
  rw [find?_eq_some_iff]
  simp only [mem_withTags_iff]
  constructor
  · rintro ⟨⟨hplace, htag⟩, hname, hleast⟩
    refine ⟨hplace, hname, htag, ?_⟩
    intro id word hword hname' htag'
    exact hleast ⟨id, word⟩ ⟨hword, htag'⟩ hname'
  · rintro ⟨hplace, hname, htag, hleast⟩
    refine ⟨⟨hplace, htag⟩, hname, ?_⟩
    rintro other ⟨hword, htag'⟩ hname'
    exact hleast other.id other.word hword hname' htag'

end Lexicon

theorem Language.lookup_eq_some_iff {language : Language} {name code : String} {entry : Entry} :
    language.lookup name code = some entry ↔
      ∃ offered, language.wordsOf code = .ok offered ∧ entry ∈ offered ∧ entry.name = name ∧
        ∀ other ∈ offered, other.name = name → entry.id ≤ other.id := by
  rw [lookup, wordsOf]
  cases language.grammar.part code with
  | error error => simp [Except.toOption, Except.map]
  | ok part => simp [Except.toOption, Except.map, Lexicon.find?_eq_some_iff]

/-- Words make a lexicon if and only if no two of them have one name and one tag, and otherwise the
first one that has those of an earlier word is reported. The lexicon has the words in their order,
and whatever is looked up in its tables is what a search through the words comes to: the one word of
a name and a tag, the first word of a name in some classes with its place, all words of some classes
by rising place, and in every language made of it the first of a part's words with a name. -/
theorem Lexicon.tables_agree_with_words (words : List Word) :
    ((∃ lexicon, ofWords words = .ok lexicon) ↔ (words.map Word.key).Nodup) ∧
    (∀ error, ofWords words = .error error → ∃ before word after, words = before ++ word :: after ∧
      (before.map Word.key).Nodup ∧ word.key ∈ before.map Word.key ∧
      error = .duplicateWord word.name word.tag) ∧
    ∀ lexicon, ofWords words = .ok lexicon → lexicon.words = words ∧
      (∀ name tag word, lexicon.lookup name tag = some word ↔
        word ∈ words ∧ word.name = name ∧ word.tag = tag) ∧
      (∀ name tags entry, lexicon.find? name tags = some entry ↔
        words[entry.id]? = some entry.word ∧ entry.name = name ∧ entry.word.tag ∈ tags ∧
          ∀ id word, words[id]? = some word → word.name = name → word.tag ∈ tags →
            entry.id ≤ id) ∧
      (∀ tags, ((lexicon.withTags tags).map Entry.id).Pairwise (· < ·) ∧
        ∀ entry, entry ∈ lexicon.withTags tags ↔
          words[entry.id]? = some entry.word ∧ entry.word.tag ∈ tags) ∧
      ∀ grammar hierarchy language, Language.assemble grammar hierarchy lexicon = .ok language →
        ∀ name code entry, language.lookup name code = some entry ↔
          ∃ offered, language.wordsOf code = .ok offered ∧ entry ∈ offered ∧ entry.name = name ∧
            ∀ other ∈ offered, other.name = name → entry.id ≤ other.id := by
  refine ⟨?_, ?_, ?_⟩
  · exact exists_ofWords_iff_nodup
  · intro error herror
    obtain ⟨_, _, hok⟩ | ⟨before, word, after, hsplit, hbefore, hword, hreported⟩ :=
      ofWords_cases words
    · cases herror.symm.trans hok
    · cases herror.symm.trans hreported
      exact ⟨before, word, after, hsplit, hbefore, hword, rfl⟩
  · intro lexicon h
    obtain rfl := ofWords_ok h
    refine ⟨rfl, ?_, ?_, ?_, ?_⟩
    · intro name tag word
      exact lookup_eq_some_iff
    · intro name tags entry
      exact find?_eq_some_iff_words
    · intro tags
      exact ⟨List.pairwise_map.2 (lexicon.pairwise_withTags tags), fun _ => mem_withTags_iff⟩
    · intro grammar hierarchy language _ name code entry
      exact Language.lookup_eq_some_iff

namespace Sample

def homonyms : List Word :=
  [{ name := "fish", tag := "N" }, { name := "frog", tag := "N" }, { name := "fish", tag := "IV" }]

def homonymGrammar : Grammar where
  parts := .ofList [
    ("S", (⟨.start, ["ANY"], [1], ∅⟩ : Part)),
    ("ANY", ⟨.other, ["END"], [1], .ofList ["IV", "N"]⟩),
    ("END", ⟨.finish, [], [], ∅⟩)]
  sound := Option.isNone_iff_eq_none.1 (by decide +kernel)

end Sample

theorem Lexicon.tables_agree_with_words_fish :
    (∃ lexicon language, ofWords Sample.homonyms = .ok lexicon ∧
      Language.assemble Sample.homonymGrammar {} lexicon = .ok language ∧
      lexicon.lookup "fish" "IV" = some { name := "fish", tag := "IV" } ∧
      lexicon.find? "fish" (.ofList ["IV"]) = some ⟨2, { name := "fish", tag := "IV" }⟩ ∧
      language.lookup "fish" "ANY" = some ⟨0, { name := "fish", tag := "N" }⟩) ∧
    ∃ before word after, Sample.homonyms ++ Sample.homonyms = before ++ word :: after ∧
      word.key ∈ before.map Word.key ∧
      ofWords (Sample.homonyms ++ Sample.homonyms) =
        .error (.duplicateWord word.name word.tag) := by
  constructor
  · obtain ⟨hloads, _, hagree⟩ := tables_agree_with_words Sample.homonyms
    obtain ⟨lexicon, h⟩ := hloads.2 (by decide)
    obtain ⟨hwords, hlookup, hfind, _, hlanguage⟩ := hagree lexicon h
    obtain ⟨language, hok⟩ : ∃ language,
        Language.assemble Sample.homonymGrammar {} lexicon = .ok language := by
      rw [Language.exists_assemble_iff, hwords]
      decide +kernel
    refine ⟨lexicon, language, h, hok, (hlookup _ _ _).2 (by decide), (hfind _ _ _).2 ?_, ?_⟩
    · refine ⟨rfl, rfl, by decide +kernel, ?_⟩
      intro id word hplace hname htag
      match id with
      | 0 =>
        cases hplace
        exact absurd htag (by decide +kernel)
      | 1 =>
        cases hplace
        exact absurd hname (by decide)
      | id + 2 => exact Nat.le_add_left 2 id
    · apply (hlanguage _ _ _ hok _ _ _).2
      obtain ⟨_, rfl⟩ := Language.assemble_ok hok
      refine ⟨_, rfl, mem_withTags_iff.2 ⟨?_, by decide +kernel⟩, rfl, fun _ _ _ => Nat.zero_le _⟩
      exact congrArg (·[0]?) hwords
  · obtain ⟨hloads, hreported, _⟩ := tables_agree_with_words (Sample.homonyms ++ Sample.homonyms)
    cases h : ofWords (Sample.homonyms ++ Sample.homonyms) with
    | ok lexicon => exact absurd (hloads.1 ⟨lexicon, h⟩) (by decide)
    | error error =>
      obtain ⟨before, word, after, hsplit, _, hword, rfl⟩ := hreported error h
      exact ⟨before, word, after, hsplit, hword, rfl⟩

end SentenceWalk
