import SentenceWalk.Proofs.GrammarSoundness
import SentenceWalk.Proofs.HierarchyClosure
import SentenceWalk.Proofs.LexiconIndex

namespace SentenceWalk

theorem NameMap.getElem?_foldl_insert {α : Type} (value : String → α) (names : List String)
    (table : NameMap α) (name : String) :
    (names.foldl (fun table name => table.insert name (value name)) table)[name]? =
      if name ∈ names then some (value name) else table[name]? := by
  induction names generalizing table with
  | nil => simp
  | cons first names ih =>
    rw [List.foldl_cons, ih, Std.ExtTreeMap.getElem?_insert]
    by_cases heq : first = name
    · subst heq
      simp
    · have hne : name ≠ first := Ne.symm heq
      simp [heq, hne]

theorem Hierarchy.isA_iff {hierarchy : Hierarchy} {category ancestor : String} :
    hierarchy.isA category ancestor = true ↔
      category = ancestor ∨ category ∈ (hierarchy.descendants? ancestor).getD ∅ := by
  rw [isA, Bool.or_eq_true, beq_iff_eq]
  cases hierarchy.descendants? ancestor with
  | none => simp
  | some below => simp

namespace Lexicon

variable {words : List Word} {word : Word} {table : NameMap NameSet} {lexicon : Lexicon}
variable {hierarchy : Hierarchy} {category name : String}

theorem mem_addCarrier (table : NameMap NameSet) (word : Word) :
    category ∈ addCarrier table word ↔ category ∈ table ∨ category ∈ word.categories := by
  rw [addCarrier, foldl_iff (fun table : NameMap NameSet => category ∈ table)]
  · exact or_congr_right exists_eq_right
  · intro table named
    rw [Std.ExtTreeMap.mem_insert, Std.compare_eq_iff_eq, or_comm]

theorem mem_getD_addCarrier (table : NameMap NameSet) (word : Word) :
    name ∈ (addCarrier table word).getD category ∅ ↔
      name ∈ table.getD category ∅ ∨ category ∈ word.categories ∧ word.name = name := by
  have hstep (table : NameMap NameSet) (named : String) :
      name ∈ (table.insert named ((table.getD named ∅).insert word.name)).getD category ∅ ↔
        name ∈ table.getD category ∅ ∨ word.name = name ∧ category = named := by
    rw [Std.ExtTreeMap.getD_insert]
    split
    · rename_i heq
      obtain rfl := Std.compare_eq_iff_eq.1 heq
      rw [Std.ExtTreeSet.mem_insert, Std.compare_eq_iff_eq, or_comm]
      simp
    · rename_i hne
      have hne : category ≠ named := by
        rintro rfl
        simp at hne
      simp [hne]
  rw [addCarrier, foldl_iff (fun table : NameMap NameSet => name ∈ table.getD category ∅) hstep]
  simp

theorem mem_carriers : category ∈ carriers words ↔ ∃ word ∈ words, category ∈ word.categories := by
  rw [carriers, foldl_iff (fun table : NameMap NameSet => category ∈ table) mem_addCarrier,
    or_iff_right (by simp)]

theorem mem_getD_carriers : name ∈ (carriers words).getD category ∅ ↔
    ∃ word ∈ words, category ∈ word.categories ∧ word.name = name := by
  rw [carriers, foldl_iff (fun table : NameMap NameSet => name ∈ table.getD category ∅)
    mem_getD_addCarrier, or_iff_right (by simp)]

theorem mem_membersIn : name ∈ membersIn table hierarchy category ↔
    ∃ tag, hierarchy.isA tag category = true ∧ name ∈ table.getD tag ∅ := by
  have hstep (names : NameSet) (tag : String) :
      name ∈ names ∪ table.getD tag ∅ ↔ name ∈ names ∨ name ∈ table.getD tag ∅ :=
    Std.ExtTreeSet.mem_union_iff
  rw [membersIn, foldl_iff (fun names : NameSet => name ∈ names) hstep]
  simp only [Hierarchy.isA_iff, Std.ExtTreeSet.mem_toList, or_and_right, exists_or,
    exists_eq_left]

theorem carriers_foldl_enter (words : List Word) (tables : WordTables) :
    (words.foldl WordTables.enter tables).carriers = words.foldl addCarrier tables.carriers := by
  induction words generalizing tables with
  | nil => rfl
  | cons word words ih => exact ih (tables.enter word)

theorem carriers_tables (lexicon : Lexicon) : lexicon.tables.carriers = carriers lexicon.words := by
  rw [lexicon.listed]
  exact carriers_foldl_enter lexicon.words {}

theorem hasCategory_iff :
    lexicon.hasCategory category = true ↔ ∃ word ∈ lexicon.words, category ∈ word.categories := by
  rw [hasCategory, carriers_tables, Std.ExtTreeMap.contains_iff_mem, mem_carriers]

theorem members?_index (lexicon : Lexicon) (hierarchy : Hierarchy) (category : String) :
    (lexicon.index hierarchy).members? category =
      if category ∈ hierarchy.categories ∨ ∃ word ∈ lexicon.words, category ∈ word.categories then
        some (membersIn (carriers lexicon.words) hierarchy category)
      else none := by
  rw [members?, index]
  dsimp only
  rw [carriers_tables, NameMap.getElem?_foldl_insert]
  simp only [List.mem_append, Std.ExtTreeMap.mem_keys, mem_carriers, Std.ExtTreeMap.getElem?_empty]

theorem words_foldl_index (earlier : List Hierarchy) :
    (earlier.foldl index lexicon).words = lexicon.words := by
  induction earlier generalizing lexicon with
  | nil => rfl
  | cons first earlier ih =>
    rw [List.foldl_cons, ih]
    rfl

/-- However often a lexicon has been indexed before, it knows the categories that the last hierarchy
has or that a word names, and the members of one are the words that name it or a category below it.
-/
theorem members_of_category (h : ofWords words = .ok lexicon) (earlier : List Hierarchy)
    (hierarchy : Hierarchy) (category : String) :
    let indexed := (earlier.foldl index lexicon).index hierarchy
    ((indexed.members? category).isSome = true ↔
      hierarchy.contains category = true ∨ ∃ word ∈ words, category ∈ word.categories) ∧
    ∀ names, indexed.members? category = some names → ∀ name, name ∈ names ↔
      ∃ word ∈ words, word.name = name ∧
        ∃ tag ∈ word.categories, hierarchy.isA tag category = true := by
  intro indexed
  have hwords : (earlier.foldl index lexicon).words = words :=
    (words_foldl_index earlier).trans (ofWords_ok h)
  have hmembers := members?_index (earlier.foldl index lexicon) hierarchy category
  rw [hwords] at hmembers
  have hcontains : hierarchy.contains category = true ↔ category ∈ hierarchy.categories := by
    rw [Hierarchy.contains, Hierarchy.categories, Std.ExtTreeMap.mem_keys,
      Std.ExtTreeMap.contains_iff_mem]
  rw [hcontains]
  change indexed.members? category = _ at hmembers
  constructor
  · rw [hmembers]
    simp
  · intro names hnames name
    rw [hmembers] at hnames
    obtain ⟨_, hsome⟩ := Option.ite_none_right_eq_some.1 hnames
    cases hsome
    rw [mem_membersIn]
    simp only [mem_getD_carriers]
    constructor
    · rintro ⟨tag, hisA, word, hmem, htag, hname⟩
      exact ⟨word, hmem, hname, tag, htag, hisA⟩
    · rintro ⟨word, hmem, hname, tag, htag, hisA⟩
      exact ⟨tag, hisA, word, hmem, htag, hname⟩

end Lexicon

namespace Sample

def stock : List Word :=
  [{ name := "leaf", tag := "N", categories := ["bottom", "loose"] },
    { name := "twig", tag := "N", categories := ["right"] }]

def rightBelowLeft : Hierarchy where
  below := .ofList [("left", NameSet.ofList ["right"]), ("right", ∅)]

def diamondHierarchy : Hierarchy :=
  (Hierarchy.ofEdges diamond).toOption.getD {}

end Sample

theorem Lexicon.members_of_category_left :
    ∃ lexicon names, ofWords Sample.stock = .ok lexicon ∧
      (([Sample.rightBelowLeft].foldl index lexicon).index Sample.diamondHierarchy).members?
        "left" = some names ∧ "leaf" ∈ names ∧ "twig" ∉ names := by
  obtain ⟨lexicon, hfound⟩ := Option.isSome_iff_exists.1
    (show (ofWords Sample.stock).toOption.isSome = true by decide +kernel)
  have h := eq_ok_of_toOption hfound
  obtain ⟨hknown, hnames⟩ :=
    members_of_category h [Sample.rightBelowLeft] Sample.diamondHierarchy "left"
  obtain ⟨names, hmembers⟩ := Option.isSome_iff_exists.1 (hknown.2 (.inl (by decide +kernel)))
  have hiff := hnames names hmembers
  refine ⟨lexicon, names, h, hmembers, (hiff "leaf").2 (by decide +kernel), ?_⟩
  rw [hiff]
  decide +kernel

end SentenceWalk
