import Mathlib.Data.List.Forall2
import Mathlib.Data.List.Nodup
import SentenceWalk.Lint
import SentenceWalk.Proofs.ObjectCategory

namespace SentenceWalk

open Relation (TransGen)

def LintWarning.isImplied : LintWarning → Bool
  | impliedCategory .. => true
  | _ => false

def LintWarning.isUnsatisfiable : LintWarning → Bool
  | unsatisfiable .. => true
  | _ => false

namespace Hierarchy

variable {edges : List Edge} {hierarchy : Hierarchy} {categories others : List String}
variable {category ancestor first second : String}

/-! ### The order of categories -/

theorem isA_iff_joins (h : ofEdges edges = .ok hierarchy) :
    hierarchy.isA category ancestor = true ↔
      category = ancestor ∨ TransGen (Edge.Joins edges) ancestor category := by
  rw [isA_iff]
  apply or_congr_right
  by_cases hdeclared : Edge.IsDeclared edges ancestor
  · obtain ⟨below, hbelow, hmem⟩ := exists_below h hdeclared
    rw [descendants?, if_neg hdeclared.1, hbelow]
    exact hmem category
  · have hnone : hierarchy.descendants? ancestor = none := by
      rw [descendants?]
      split
      · rfl
      · exact Std.ExtTreeMap.getElem?_eq_none (mt (mem_below_iff h).1 hdeclared)
    rw [hnone, Option.getD_none]
    apply iff_of_false Std.ExtTreeSet.not_mem_empty
    intro hleads
    obtain ⟨_, hjoins, _⟩ := TransGen.head'_iff.1 hleads
    exact hdeclared (isDeclared_of_joins (ofEdges_ok h).1 hjoins)

theorem isA_antisymm (h : ofEdges edges = .ok hierarchy) (hf : hierarchy.isA first second = true)
    (hs : hierarchy.isA second first = true) : first = second := by
  rcases (isA_iff_joins h).1 hf with heq | hdown
  · exact heq
  · rcases (isA_iff_joins h).1 hs with heq | hup
    · exact heq.symm
    · exact absurd (hdown.trans hup) ((exists_ofEdges_iff.1 ⟨_, h⟩).2 second)

/-! ### Implied categories -/

def Related (hierarchy : Hierarchy) (first second : String) : Prop :=
  hierarchy.isA first second = true ∨ hierarchy.isA second first = true

instance : Decidable (hierarchy.Related first second) :=
  inferInstanceAs (Decidable (_ ∨ _))

/-- Whether a pair consists of two given categories, the implied one in front. -/
def Orders (hierarchy : Hierarchy) (first second : String) (pair : String × String) : Prop :=
  hierarchy.isA pair.2 pair.1 = true ∧ (pair = (first, second) ∨ pair = (second, first))

theorem implied?_cases (hierarchy : Hierarchy) (first second : String) :
    (¬ hierarchy.Related first second ∧ hierarchy.implied? first second = none) ∨
      (hierarchy.Related first second ∧
        ∃ pair, hierarchy.Orders first second pair ∧
          hierarchy.implied? first second = some pair) := by
  rw [implied?]
  by_cases hf : hierarchy.isA first second = true
  · exact .inr ⟨.inl hf, (second, first), ⟨hf, .inr rfl⟩, if_pos hf⟩
  · rw [if_neg hf]
    by_cases hs : hierarchy.isA second first = true
    · exact .inr ⟨.inr hs, (first, second), ⟨hs, .inl rfl⟩, if_pos hs⟩
    · exact .inl ⟨not_or.2 ⟨hf, hs⟩, if_neg hs⟩

theorem implied?_comm (h : ofEdges edges = .ok hierarchy) (first second : String) :
    hierarchy.implied? first second = hierarchy.implied? second first := by
  by_cases hf : hierarchy.isA first second = true
  · by_cases hs : hierarchy.isA second first = true
    · rw [isA_antisymm h hf hs]
    · simp [implied?, hf, hs]
  · simp [implied?, hf]

theorem implications_perm (h : ofEdges edges = .ok hierarchy) (hp : categories.Perm others) :
    (hierarchy.implications categories).Perm (hierarchy.implications others) := by
  induction hp with
  | nil => exact .refl _
  | cons category hp ih => exact (hp.filterMap _).append ih
  | swap first second rest =>
    -- The pair of the two is found from either of them, and their pairs with others change places.
    rw [implications, implications, implications, implications, List.filterMap_cons,
      List.filterMap_cons, implied?_comm h first second]
    have hrest := List.perm_append_comm_assoc (rest.filterMap (hierarchy.implied? second))
      (rest.filterMap (hierarchy.implied? first)) (hierarchy.implications rest)
    cases hierarchy.implied? second first with
    | none => exact hrest
    | some pair => exact hrest.cons pair
  | trans _ _ ih₁ ih₂ => exact ih₁.trans ih₂

def RelatedAt (hierarchy : Hierarchy) (categories : List String) (place : Nat × Nat) : Prop :=
  ∃ first second, categories[place.1]? = some first ∧ categories[place.2]? = some second ∧
    hierarchy.Related first second

/-- Whether a pair consists of the categories at two places of a list, the implied one in front. -/
def OrdersAt (hierarchy : Hierarchy) (categories : List String) (place : Nat × Nat)
    (pair : String × String) : Prop :=
  ∃ first second, categories[place.1]? = some first ∧ categories[place.2]? = some second ∧
    hierarchy.Orders first second pair

theorem exists_places_filterMap (hierarchy : Hierarchy) (category : String) (others : List String) :
    ∃ places : List Nat, places.Nodup ∧
      (∀ place, place ∈ places ↔
        ∃ other, others[place]? = some other ∧ hierarchy.Related category other) ∧
      List.Forall₂ (fun place pair =>
          ∃ other, others[place]? = some other ∧ hierarchy.Orders category other pair)
        places (others.filterMap (hierarchy.implied? category)) := by
  induction others with
  | nil => exact ⟨[], .nil, by simp, .nil⟩
  | cons other others ih =>
    obtain ⟨places, hnodup, hmem, horders⟩ := ih
    have hlater : (places.map Nat.succ).Nodup := hnodup.map fun _ _ => Nat.succ.inj
    have hshifted := List.forall₂_map_left_iff (f := Nat.succ)
      (R := fun place pair => ∃ found, (other :: others)[place]? = some found ∧
        hierarchy.Orders category found pair) |>.2 horders
    rcases hierarchy.implied?_cases category other with
      ⟨hnot, hnone⟩ | ⟨hrelated, pair, hpair, hsome⟩
    · rw [List.filterMap_cons_none hnone]
      refine ⟨places.map Nat.succ, hlater, ?_, hshifted⟩
      intro place
      cases place with
      | zero => simp [hnot]
      | succ place => simp [hmem]
    · rw [List.filterMap_cons_some hsome]
      refine ⟨0 :: places.map Nat.succ, List.nodup_cons.2 ⟨by simp, hlater⟩, ?_,
        .cons ⟨other, rfl, hpair⟩ hshifted⟩
      intro place
      cases place with
      | zero => simp [hrelated]
      | succ place => simp [hmem]

/-- The implied categories are found at the pairs of places with related categories, one at each. -/
theorem exists_places (hierarchy : Hierarchy) (categories : List String) :
    ∃ places : List (Nat × Nat), places.Nodup ∧
      (∀ place, place ∈ places ↔ place.1 < place.2 ∧ hierarchy.RelatedAt categories place) ∧
      List.Forall₂ (hierarchy.OrdersAt categories) places (hierarchy.implications categories) := by
  induction categories with
  | nil => exact ⟨[], .nil, by simp [RelatedAt], .nil⟩
  | cons category others ih =>
    obtain ⟨places, hnodup, hmem, horders⟩ := ih
    obtain ⟨first, hfirstNodup, hfirst, hfirstOrders⟩ :=
      hierarchy.exists_places_filterMap category others
    refine ⟨first.map (fun place => (0, place + 1)) ++
      places.map (fun place => (place.1 + 1, place.2 + 1)), ?_, ?_, ?_⟩
    · apply List.nodup_append'.2
      refine ⟨hfirstNodup.map ?_, hnodup.map ?_, ?_⟩
      · intro place other heq
        simpa using heq
      · intro place other heq
        simpa [Prod.ext_iff] using heq
      · simp [List.Disjoint]
    · rintro ⟨i, j⟩
      simp only [List.mem_append, List.mem_map, Prod.mk.injEq, Prod.exists, hfirst, hmem]
      cases i with
      | zero =>
        cases j with
        | zero => simp
        | succ j => simp [RelatedAt]
      | succ i =>
        cases j with
        | zero => simp
        | succ j => simp [RelatedAt]
    · apply List.rel_append
      · rw [List.forall₂_map_left_iff]
        exact hfirstOrders.imp fun _ _ ⟨other, hother, hpair⟩ =>
          ⟨category, other, rfl, hother, hpair⟩
      · rw [List.forall₂_map_left_iff]
        exact horders

end Hierarchy

/-!
Words of which one lists a category twice and another that it implies. Nothing is called "acorn",
and nothing is at the bottom.
-/

namespace Sample

def gather : Word := { name := "gather", tag := "STV", nextWords := ["acorn"] }

def shade : Word := { name := "shade", tag := "STV", nextCategories := ["bottom"] }

def moss : Word :=
  { name := "moss", tag := "N", categories := ["left", "top", "right", "left"] }

def mossReversed : Word :=
  { moss with categories := moss.categories.reverse }

def forest : Lexicon where
  words := [gather, shade, moss]

def forestRules : Rules where
  language := {
    grammar := tasteGrammar
    hierarchy := diamondHierarchy
    lexicon := forest.index diamondHierarchy }
  config := {}

end Sample

namespace Language

variable {language : Language} {grammar : Grammar} {hierarchy : Hierarchy} {lexicon : Lexicon}
variable {edges : List Edge} {word : Word}

theorem filter_lintWarnings {p : LintWarning → Bool} (hp : ∀ code, p (.unreachable code) = false) :
    language.lintWarnings.filter p =
      language.lexicon.words.flatMap fun word => (language.wordWarnings word).filter p := by
  rw [lintWarnings, List.filter_append, List.filter_flatMap]
  simp [List.filter_map, Function.comp_def, hp]

def impliedWarnings (language : Language) (word : Word) : List LintWarning :=
  (language.wordWarnings word).filter LintWarning.isImplied

theorem impliedWarnings_eq (language : Language) (word : Word) :
    language.impliedWarnings word = (language.hierarchy.implications word.categories).map
      fun pair => .impliedCategory word.name pair.1 pair.2 := by
  have hunused : (if language.usesTag word.tag then []
      else [LintWarning.unusedTag word.name word.tag]).filter LintWarning.isImplied = [] := by
    split <;> rfl
  have hunlisted (categories : List String) :
      (categories.map (LintWarning.unlistedCategory word.name)).filter LintWarning.isImplied =
        [] := by
    simp [LintWarning.isImplied]
  have himplied (pairs : List (String × String)) :
      (pairs.map fun pair => LintWarning.impliedCategory word.name pair.1 pair.2).filter
          LintWarning.isImplied =
        pairs.map fun pair => LintWarning.impliedCategory word.name pair.1 pair.2 := by
    rw [List.filter_eq_self]
    intro warning hmem
    obtain ⟨pair, _, rfl⟩ := List.mem_map.1 hmem
    rfl
  have hunmet : (if word.hasRequirements && (language.requirements word).isEmpty then
      [LintWarning.unsatisfiable word.name] else []).filter LintWarning.isImplied = [] := by
    split <;> rfl
  rw [impliedWarnings, wordWarnings, List.filter_append, List.filter_append, List.filter_append,
    hunused, hunlisted, himplied, hunmet, List.append_nil]
  rfl

/-- The warnings about implied categories are those about one word after the other, and those about
a word depend on its name, its categories in whatever order, and the hierarchy. There is one for
each pair of places at which the word lists categories of which one implies the other, and it says
which of the two does. -/
theorem implied_category_warnings (h : Hierarchy.ofEdges edges = .ok language.hierarchy) :
    language.lintWarnings.filter LintWarning.isImplied =
      language.lexicon.words.flatMap language.impliedWarnings ∧
    (∀ (other : Language) (word permuted : Word), other.hierarchy = language.hierarchy →
      permuted.name = word.name → permuted.categories.Perm word.categories →
      (other.impliedWarnings permuted).Perm (language.impliedWarnings word)) ∧
    ∀ word : Word, ∃ places : List (Nat × Nat), places.Nodup ∧
      (∀ place, place ∈ places ↔
        place.1 < place.2 ∧ language.hierarchy.RelatedAt word.categories place) ∧
      List.Forall₂ (fun place warning => ∃ broad narrow,
          language.hierarchy.OrdersAt word.categories place (broad, narrow) ∧
          warning = .impliedCategory word.name broad narrow)
        places (language.impliedWarnings word) := by
  refine ⟨filter_lintWarnings fun _ => rfl, ?_, ?_⟩
  · intro other word permuted hsame hname hperm
    rw [impliedWarnings_eq, impliedWarnings_eq, hsame, hname]
    exact (Hierarchy.implications_perm h hperm).map _
  · intro word
    obtain ⟨places, hnodup, hmem, horders⟩ := language.hierarchy.exists_places word.categories
    refine ⟨places, hnodup, hmem, ?_⟩
    rw [impliedWarnings_eq, List.forall₂_map_right_iff]
    exact horders.imp fun _ pair hpair => ⟨pair.1, pair.2, hpair, rfl⟩

theorem implied_category_warnings_moss :
    Hierarchy.ofEdges Sample.diamond = .ok Sample.diamondHierarchy ∧
    Sample.mossReversed.name = Sample.moss.name ∧
    Sample.mossReversed.categories.Perm Sample.moss.categories ∧
    (Sample.forestRules.language.impliedWarnings Sample.mossReversed).Perm
      (Sample.forestRules.language.impliedWarnings Sample.moss) ∧
    ∃ places : List (Nat × Nat), (0, 3) ∈ places ∧ (0, 2) ∉ places ∧
      places.length = (Sample.forestRules.language.impliedWarnings Sample.moss).length := by
  have h : Hierarchy.ofEdges Sample.diamond = .ok Sample.diamondHierarchy :=
    eq_ok_of_toOption (by decide +kernel)
  have hreversed : Sample.mossReversed.categories.Perm Sample.moss.categories :=
    List.reverse_perm _
  have hlanguage : Hierarchy.ofEdges Sample.diamond = .ok Sample.forestRules.language.hierarchy := h
  obtain ⟨_, hperm, hplaces⟩ := implied_category_warnings hlanguage
  obtain ⟨places, _, hmem, horders⟩ := hplaces Sample.moss
  refine ⟨h, rfl, hreversed,
    hperm Sample.forestRules.language Sample.moss Sample.mossReversed rfl rfl hreversed,
    places, ?_, ?_, horders.length_eq⟩
  · exact (hmem (0, 3)).2 ⟨by decide, "left", "left", rfl, rfl, .inl (by decide +kernel)⟩
  · intro hlisted
    obtain ⟨_, first, second, hfirst, hsecond, hrelated⟩ := (hmem (0, 2)).1 hlisted
    cases hfirst
    cases hsecond
    exact absurd hrelated (by decide +kernel)

/-! ### Requirements that no word meets -/

theorem unsatisfiable_mem_iff :
    .unsatisfiable word.name ∈ language.wordWarnings word ↔
      word.hasRequirements = true ∧ language.requirements word = ∅ := by
  simp [wordWarnings]

theorem unmet_iff (h : assemble grammar hierarchy lexicon = .ok language) :
    (∀ carrier ∈ lexicon.words, carrier.name ∉ language.requirements word) ↔
      (∀ carrier ∈ lexicon.words, carrier.name ∉ word.nextWords) ∧
        ∀ carrier ∈ lexicon.words, ¬ word.Suits hierarchy carrier := by
  simp only [mem_requirements_of_assemble h, Follows]
  constructor
  · intro hunmet
    refine ⟨fun carrier hmem hlisted => hunmet carrier hmem (.inl hlisted), ?_⟩
    rintro carrier hmem ⟨category, hcategory, hsuits⟩
    exact hunmet carrier hmem (.inr ⟨category, hcategory, carrier, hmem, rfl, hsuits⟩)
  · rintro ⟨hlisted, hsuits⟩ carrier hmem (hname | ⟨category, hcategory, other, hother, _, htag⟩)
    · exact hlisted carrier hmem hname
    · exact hsuits other hother ⟨category, hcategory, htag⟩

theorem requirements_eq_empty_iff (h : assemble grammar hierarchy lexicon = .ok language) :
    language.requirements word = ∅ ↔
      word.nextWords = [] ∧
        ∀ carrier ∈ lexicon.words, carrier.name ∉ language.requirements word := by
  constructor
  · intro hempty
    rw [hempty]
    refine ⟨?_, fun _ _ => Std.ExtTreeSet.not_mem_empty⟩
    apply List.eq_nil_iff_forall_not_mem.2
    intro name hlisted
    have hmem : name ∈ language.requirements word := mem_requirements.2 (.inl hlisted)
    rw [hempty] at hmem
    exact Std.ExtTreeSet.not_mem_empty hmem
  · rintro ⟨hlisted, hunmet⟩
    apply Std.ExtTreeSet.ext_mem
    intro name
    apply iff_of_false _ Std.ExtTreeSet.not_mem_empty
    intro hmem
    rcases (mem_requirements_of_assemble h).1 hmem with hname | ⟨_, _, carrier, hcarrier, rfl, _⟩
    · rw [hlisted] at hname
      exact List.not_mem_nil hname
    · exact hunmet carrier hcarrier hmem

/-- The warnings about requirements that no word meets are those about one word after the other. A
word with requirements is warned about if and only if it lists no words and none meets its
requirements. None does if no listed name is that of a word and no word belongs to a required
category. So a word that lists nothing but names of no words is not warned about. -/
theorem unmet_requirements_warning (h : assemble grammar hierarchy lexicon = .ok language) :
    language.lintWarnings.filter LintWarning.isUnsatisfiable =
      lexicon.words.flatMap (fun word =>
        (language.wordWarnings word).filter LintWarning.isUnsatisfiable) ∧
    ∀ word ∈ lexicon.words, word.hasRequirements = true →
      (.unsatisfiable word.name ∈ language.wordWarnings word ↔ word.nextWords = [] ∧
        ∀ carrier ∈ lexicon.words, carrier.name ∉ language.requirements word) ∧
      ((∀ carrier ∈ lexicon.words, carrier.name ∉ language.requirements word) ↔
        (∀ carrier ∈ lexicon.words, carrier.name ∉ word.nextWords) ∧
          ∀ carrier ∈ lexicon.words, ¬ word.Suits hierarchy carrier) := by
  constructor
  · obtain ⟨_, hlanguage⟩ := assemble_ok h
    rw [filter_lintWarnings fun _ => rfl, hlanguage]
    rfl
  · intro word _ hrequires
    rw [unsatisfiable_mem_iff, requirements_eq_empty_iff h]
    exact ⟨and_iff_right hrequires, unmet_iff h⟩

theorem unmet_requirements_warning_shade :
    assemble Sample.tasteGrammar Sample.diamondHierarchy Sample.forest =
      .ok Sample.forestRules.language ∧
    Sample.shade ∈ Sample.forest.words ∧ Sample.shade.hasRequirements = true ∧
    .unsatisfiable "shade" ∈ Sample.forestRules.language.wordWarnings Sample.shade := by
  have h : assemble Sample.tasteGrammar Sample.diamondHierarchy Sample.forest =
      .ok Sample.forestRules.language := assemble_eq (by decide +kernel)
  have hmem : Sample.shade ∈ Sample.forest.words := by decide
  obtain ⟨hwarned, hunmet⟩ := (unmet_requirements_warning h).2 Sample.shade hmem (by decide)
  exact ⟨h, hmem, by decide, hwarned.2 ⟨rfl, hunmet.2 (by decide +kernel)⟩⟩

/-- What may be gathered is an acorn, which is no word, but there is no warning about it. The
sentence is given up behind its first word. -/
theorem unknown_name_goes_unnoticed :
    assemble Sample.tasteGrammar Sample.diamondHierarchy Sample.forest =
      .ok Sample.forestRules.language ∧
    Sample.gather ∈ Sample.forest.words ∧ Sample.gather.hasRequirements = true ∧
    (∀ carrier ∈ Sample.forest.words,
      carrier.name ∉ Sample.forestRules.language.requirements Sample.gather) ∧
    .unsatisfiable "gather" ∉ Sample.forestRules.language.wordWarnings Sample.gather ∧
    (Session.ofStart "S").placements Sample.forestRules 3 (.ofSeed 2) =
      [⟨⟨0, Sample.gather⟩, "STV", "gather"⟩] :=
  ⟨assemble_eq (by decide +kernel), by decide, by decide, by decide +kernel, by decide +kernel,
    by decide +kernel⟩

end Language

end SentenceWalk
