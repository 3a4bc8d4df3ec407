import SentenceWalk.Proofs.CategoryCarriers
import SentenceWalk.Proofs.ParallelSessions

namespace SentenceWalk

/-- The records of a language: its parts-of-speech, each under a code of its own, the edges of its
hierarchy and the words of its word table. -/
structure LanguageData where
  parts : List (String × Part)
  edges : List Edge
  words : List Word
  distinct : (parts.map Prod.fst).Nodup

namespace LanguageData

def language (data : LanguageData) : Except LanguageError Language := do
  let grammar ← (Grammar.ofParts data.parts).mapError .grammar
  let hierarchy ← (Hierarchy.ofEdges data.edges).mapError .hierarchy
  let lexicon ← (Lexicon.ofWords data.words).mapError .lexicon
  Language.assemble grammar hierarchy lexicon

/-- The same parts and the same edges in any order, edges also repeatedly, and word by word the same
but for the order and the repetition of what each of them lists. -/
structure Like (data other : LanguageData) : Prop where
  parts : data.parts.Perm other.parts
  edges : ∀ edge, edge ∈ other.edges ↔ edge ∈ data.edges
  words : List.Forall₂ Word.Like data.words other.words

end LanguageData

theorem NameMap.getElem?_ofList_iff {α : Type} {items : List (String × α)}
    (hd : (items.map Prod.fst).Nodup) {name : String} {value : α} :
    (Std.ExtTreeMap.ofList items : NameMap α)[name]? = some value ↔ (name, value) ∈ items := by
  have hdistinct : items.Pairwise fun item other => ¬ compare item.1 other.1 = .eq := by
    simpa [List.Nodup, List.pairwise_map] using hd
  have hfound {value : α} (hmem : (name, value) ∈ items) :
      (Std.ExtTreeMap.ofList items : NameMap α)[name]? = some value :=
    Std.ExtTreeMap.getElem?_ofList_of_mem Std.compare_self hdistinct hmem
  constructor
  · intro h
    by_cases hname : name ∈ items.map Prod.fst
    · obtain ⟨⟨name, other⟩, hmem, rfl⟩ := List.mem_map.1 hname
      cases h.symm.trans (hfound hmem)
      exact hmem
    · have hnone : (Std.ExtTreeMap.ofList items : NameMap α)[name]? = none :=
        Std.ExtTreeMap.getElem?_ofList_of_contains_eq_false (by simpa using hname)
      cases h.symm.trans hnone
  · exact hfound

theorem Grammar.ofParts_perm {parts others : List (String × Part)} (h : parts.Perm others)
    (hd : (parts.map Prod.fst).Nodup) (hd' : (others.map Prod.fst).Nodup) :
    ofParts others = ofParts parts := by
  have htable : (.ofList others : NameMap Part) = .ofList parts := by
    apply Std.ExtTreeMap.ext_getElem?
    intro code
    apply Option.ext
    intro part
    rw [NameMap.getElem?_ofList_iff hd, NameMap.getElem?_ofList_iff hd', h.mem_iff]
  rw [ofParts, ofParts, htable]

theorem Hierarchy.ofEdges_of_mem_iff {edges others : List Edge} {hierarchy : Hierarchy}
    (h : ∀ edge, edge ∈ others ↔ edge ∈ edges) (hok : ofEdges edges = .ok hierarchy) :
    ofEdges others = .ok hierarchy := by
  have hjoins : Edge.Joins others = Edge.Joins edges := by
    funext parent child
    rw [Edge.Joins, Edge.Joins, h]
  have hdeclared : Edge.IsDeclared others = Edge.IsDeclared edges := by
    funext name
    simp only [Edge.IsDeclared, h]
  obtain ⟨other, hother⟩ : ∃ other, ofEdges others = .ok other := by
    rw [exists_ofEdges_iff, hjoins, hdeclared, ← exists_ofEdges_iff]
    exact ⟨hierarchy, hok⟩
  -- What is below a name is described by the edges, so that the search order cannot show in it.
  have hbelow : other.below = hierarchy.below := by
    apply Std.ExtTreeMap.ext_getElem?
    intro name
    apply Option.ext
    intro below
    rw [getElem?_below_iff hother, getElem?_below_iff hok, hjoins, hdeclared]
  cases other
  cases hierarchy
  cases hbelow
  exact hother

theorem Hierarchy.ofEdges_ok_iff_of_mem_iff {edges others : List Edge} {hierarchy : Hierarchy}
    (h : ∀ edge, edge ∈ others ↔ edge ∈ edges) :
    ofEdges others = .ok hierarchy ↔ ofEdges edges = .ok hierarchy :=
  ⟨ofEdges_of_mem_iff fun edge => (h edge).symm, ofEdges_of_mem_iff h⟩

section Words

variable {words words' : List Word} {lexicon lexicon' : Lexicon}

theorem repeated?_eq_none_iff_of_like (h : List.Forall₂ Word.Like words words')
    (taken : List (String × String)) :
    Word.repeated? taken words' = none ↔ Word.repeated? taken words = none := by
  induction h generalizing taken with
  | nil => rfl
  | cons hfirst _ ih =>
    rw [Word.repeated?, Word.repeated?, hfirst.name, hfirst.tag]
    split
    · simp
    · exact ih _

theorem sameCarriers_of_like (h : List.Forall₂ Word.Like words words') :
    SameCarriers words words' := by
  intro name category
  induction h with
  | nil => rfl
  | cons hfirst _ ih =>
    simp only [Carries, List.mem_cons, exists_eq_or_imp, hfirst.name, hfirst.categories] at ih ⊢
    rw [ih]

theorem knowsAll_iff_of_like {hierarchy : Hierarchy} {listed listed' : List Word}
    (hs : SameCarriers listed listed') (h : List.Forall₂ Word.Like words words') :
    (∀ word ∈ words', Language.KnowsAll hierarchy listed' word) ↔
      ∀ word ∈ words, Language.KnowsAll hierarchy listed word := by
  induction h with
  | nil => simp
  | cons hfirst _ ih =>
    rw [List.forall_mem_cons, List.forall_mem_cons, ih, Language.knowsAll_congr hs hfirst]

theorem forall₂_zipIdx (h : List.Forall₂ Word.Like words words') (first : Nat) :
    List.Forall₂ Entry.Like ((words.zipIdx first).map fun (word, id) => ⟨id, word⟩)
      ((words'.zipIdx first).map fun (word, id) => ⟨id, word⟩) := by
  induction h generalizing first with
  | nil => exact .nil
  | cons hfirst _ ih => exact .cons ⟨rfl, hfirst⟩ (ih (first + 1))

theorem Lexicon.withTags_like (h : List.Forall₂ Word.Like lexicon.words lexicon'.words)
    (tags : NameSet) :
    List.Forall₂ Entry.Like (lexicon.withTags tags) (lexicon'.withTags tags) := by
  refine List.rel_filter ?_ (forall₂_zipIdx h 0)
  intro entry entry' hlike
  simp only [hlike.word.tag]

theorem find?_like (h : List.Forall₂ Word.Like words words') (name tag : String) :
    Option.Rel Word.Like (words.find? fun word => word.name == name && word.tag == tag)
      (words'.find? fun word => word.name == name && word.tag == tag) := by
  induction h with
  | nil => exact .none
  | cons hfirst _ ih =>
    rw [List.find?_cons, List.find?_cons, hfirst.name, hfirst.tag]
    split
    · exact .some hfirst
    · exact ih

end Words

theorem mapError_bind_eq_ok_iff {ε δ α β : Type} {result : Except ε α} {wrap : ε → δ}
    {next : α → Except δ β} {value : β} : (result.mapError wrap >>= next) = .ok value ↔
      ∃ found, result = .ok found ∧ next found = .ok value := by
  cases result with
  | error error => simp [Except.mapError, bind, Except.bind]
  | ok found => simp [Except.mapError, bind, Except.bind]

namespace LanguageData

variable {data other : LanguageData} {language language' : Language}

theorem language_ok_iff : data.language = .ok language ↔ ∃ grammar hierarchy lexicon,
    Grammar.ofParts data.parts = .ok grammar ∧ Hierarchy.ofEdges data.edges = .ok hierarchy ∧
      Lexicon.ofWords data.words = .ok lexicon ∧
      Language.assemble grammar hierarchy lexicon = .ok language := by
  simp only [LanguageData.language, mapError_bind_eq_ok_iff, exists_and_left]

theorem exists_language_iff : (∃ language, data.language = .ok language) ↔
    ∃ grammar hierarchy, Grammar.ofParts data.parts = .ok grammar ∧
      Hierarchy.ofEdges data.edges = .ok hierarchy ∧ Word.repeated? [] data.words = none ∧
      ∀ word ∈ data.words, Language.KnowsAll hierarchy data.words word := by
  constructor
  · rintro ⟨language, h⟩
    obtain ⟨grammar, hierarchy, lexicon, hgrammar, hhierarchy, hlexicon, hok⟩ :=
      language_ok_iff.1 h
    have hknown := (Language.assemble_ok hok).1
    rw [Lexicon.ofWords_ok hlexicon] at hknown
    exact ⟨grammar, hierarchy, hgrammar, hhierarchy,
      Lexicon.exists_ofWords_iff.1 ⟨lexicon, hlexicon⟩, hknown⟩
  · rintro ⟨grammar, hierarchy, hgrammar, hhierarchy, hnone, hknown⟩
    obtain ⟨lexicon, hlexicon⟩ := Lexicon.exists_ofWords_iff.2 hnone
    rw [← Lexicon.ofWords_ok hlexicon] at hknown
    obtain ⟨language, hok⟩ := Language.exists_assemble_iff.2 hknown
    exact ⟨language, language_ok_iff.2
      ⟨grammar, hierarchy, lexicon, hgrammar, hhierarchy, hlexicon, hok⟩⟩

theorem Like.exists_language_iff (h : data.Like other) :
    (∃ language, other.language = .ok language) ↔ ∃ language, data.language = .ok language := by
  simp only [LanguageData.exists_language_iff,
    Grammar.ofParts_perm h.parts data.distinct other.distinct,
    Hierarchy.ofEdges_ok_iff_of_mem_iff h.edges, repeated?_eq_none_iff_of_like h.words,
    knowsAll_iff_of_like (sameCarriers_of_like h.words) h.words]

theorem Like.alike (h : data.Like other) (hd : data.language = .ok language)
    (ho : other.language = .ok language') (config : Config) :
    Rules.Alike ⟨language, config⟩ ⟨language', config⟩ := by
  obtain ⟨grammar, hierarchy, lexicon, hgrammar, hhierarchy, hlexicon, hok⟩ :=
    language_ok_iff.1 hd
  obtain ⟨grammar', hierarchy', lexicon', hgrammar', hhierarchy', hlexicon', hok'⟩ :=
    language_ok_iff.1 ho
  rw [Grammar.ofParts_perm h.parts data.distinct other.distinct, hgrammar] at hgrammar'
  rw [Hierarchy.ofEdges_of_mem_iff h.edges hhierarchy] at hhierarchy'
  cases hgrammar'
  cases hhierarchy'
  have hwords := h.words
  rw [← Lexicon.ofWords_ok hlexicon, ← Lexicon.ofWords_ok hlexicon'] at hwords
  refine Language.alike_of_assemble hok hok' (sameCarriers_of_like hwords) ?_ ?_ config
  · intro tags _
    exact Lexicon.withTags_like hwords tags
  · intro name tag _
    rw [Lexicon.lookup_eq_find?, Lexicon.lookup_eq_find?]
    exact find?_like hwords name tag

/-- It does not matter in which order data have their parts, nor in which order and how often they
have their edges and what each word lists. If one of two such data makes a language so does the
other, and whatever the settings and the random words, sentences from the starts of both languages
give the same answer at each step and read the same. -/
theorem order_does_not_matter (h : data.Like other) :
    ((∃ language, data.language = .ok language) ↔ ∃ language, other.language = .ok language) ∧
    ∀ language language', data.language = .ok language → other.language = .ok language' →
      ∀ (config : Config) (steps : Nat) (stream : RandomStream),
        (Session.ofStart language'.grammar.start).transcript ⟨language', config⟩ steps stream =
          (Session.ofStart language.grammar.start).transcript ⟨language, config⟩ steps stream := by
  refine ⟨h.exists_language_iff.symm, ?_⟩
  intro language language' hd ho config steps stream
  exact Session.transcript_ofStart (h.alike hd ho config) steps stream

end LanguageData

namespace Sample

def sail : Word :=
  { name := "sail", tag := "V", nextWords := ["raft", "dinghy"],
    nextCategories := ["cutter", "boat"] }

def harbour : LanguageData where
  parts := [
    ("S", (⟨.start, ["V"], [1], ∅⟩ : Part)),
    ("V", ⟨.verb, ["N"], [1], .ofList ["V", "W"]⟩),
    ("N", ⟨.noun, ["END"], [1], .ofList ["N"]⟩),
    ("END", ⟨.finish, [], [], ∅⟩)]
  edges := [⟨"boat", noCategory⟩, ⟨"cutter", "boat"⟩]
  words := [sail, { name := "anchor", tag := "N" },
    { name := "yawl", tag := "N", categories := ["cutter", "boat"] }]
  distinct := by decide

/-- A word with everything that it lists read backwards and then once more. -/
def turned (word : Word) : Word :=
  { word with
    categories := word.categories.reverse ++ word.categories
    nextWords := word.nextWords.reverse ++ word.nextWords
    nextCategories := word.nextCategories.reverse ++ word.nextCategories
    flags := word.flags.reverse ++ word.flags }

def turnedHarbour : LanguageData where
  parts := harbour.parts.reverse
  edges := harbour.edges.reverse ++ harbour.edges
  words := harbour.words.map turned
  distinct := by decide

theorem like_turned (word : Word) : word.Like (turned word) := by
  constructor <;> simp [turned]

theorem like_turnedHarbour : harbour.Like turnedHarbour where
  parts := (List.reverse_perm _).symm
  edges := by simp [turnedHarbour]
  words := List.forall₂_map_right_iff.2 (List.forall₂_same.2 fun word _ => like_turned word)

end Sample

theorem LanguageData.order_does_not_matter_harbour :
    ∃ language language', Sample.harbour.language = .ok language ∧
      Sample.turnedHarbour.language = .ok language' ∧
      ((Session.ofStart language'.grammar.start).transcript ⟨language', {}⟩ 3 (.ofSeed 0)).map
        (fun item => item.2.2.1) = ["sail", "sail yawl", "sail yawl"] := by
  obtain ⟨hloads, hsame⟩ := order_does_not_matter Sample.like_turnedHarbour
  have hrun : (Sample.harbour.language.toOption.map fun language =>
      ((Session.ofStart language.grammar.start).transcript ⟨language, {}⟩ 3 (.ofSeed 0)).map
        fun item => item.2.2.1) = some ["sail", "sail yawl", "sail yawl"] := by decide +kernel
  obtain ⟨language, hfound, hsentences⟩ := Option.map_eq_some_iff.1 hrun
  have h := eq_ok_of_toOption hfound
  obtain ⟨language', h'⟩ := hloads.1 ⟨language, h⟩
  refine ⟨language, language', h, h', ?_⟩
  rw [hsame language language' h h', hsentences]

end SentenceWalk
