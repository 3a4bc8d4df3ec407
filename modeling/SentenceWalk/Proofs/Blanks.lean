import Mathlib.Data.List.TakeWhile
import SentenceWalk.Text.Blank

namespace SentenceWalk.Text

def AllBlank (text : List Char) : Prop :=
  ∀ c ∈ text, isBlank c = true

def IsTrimmed (text : List Char) : Prop :=
  (∀ c ∈ text.head?, isBlank c = false) ∧ ∀ c ∈ text.getLast?, isBlank c = false

/-- Whether a text is another one with blanks around it. -/
def Padded (inner text : List Char) : Prop :=
  ∃ before after, AllBlank before ∧ AllBlank after ∧ text = before ++ inner ++ after

/-- Whether a text lists items with blanks between them, and perhaps around them. -/
inductive Listed : List (List Char) → List Char → Prop where
  | nil (hg : AllBlank gap) : Listed [] gap
  | cons (hg : AllBlank gap) (hs : ∀ c ∈ rest.head?, isBlank c = true) (h : Listed items rest) :
      Listed (item :: items) (gap ++ item ++ rest)

-- The instances are named since not every one that is found goes through the text alone.
instance (text : List Char) : Decidable (AllBlank text) :=
  List.decidableBAll _ text

instance (text : List Char) : Decidable (IsTrimmed text) :=
  @instDecidableAnd _ _ (Option.decidableForallMem _) (Option.decidableForallMem _)

variable {text inner gap item rest run : List Char} {items : List (List Char)} {c : Char}

theorem AllBlank.reverse (h : AllBlank text) : AllBlank text.reverse :=
  fun c hc => h c (List.mem_reverse.1 hc)

theorem AllBlank.tail (h : AllBlank (c :: text)) : AllBlank text :=
  fun d hd => h d (List.mem_cons_of_mem c hd)

theorem padded_self (text : List Char) : Padded text text := by
  refine ⟨[], [], List.forall_mem_nil _, List.forall_mem_nil _, ?_⟩
  rw [List.nil_append, List.append_nil]

theorem exists_listed (items : List (List Char)) :
    ∃ text, Listed items text ∧ ∀ c ∈ text.head?, isBlank c = true := by
  induction items with
  | nil => exact ⟨[], .nil (List.forall_mem_nil _), nofun⟩
  | cons item items ih =>
    obtain ⟨rest, hrest, hs⟩ := ih
    refine ⟨[' '] ++ item ++ rest, .cons (by decide) hs hrest, ?_⟩
    rintro c ⟨⟩
    decide

theorem dropWhile_of_head (h : ∀ c ∈ text.head?, isBlank c = false) :
    text.dropWhile isBlank = text := by
  cases text with
  | nil => rfl
  | cons c text =>
    apply List.dropWhile_cons_of_neg
    rw [h c rfl]
    exact Bool.false_ne_true

theorem dropWhile_blank (h : AllBlank gap) (text : List Char) :
    (gap ++ text).dropWhile isBlank = text.dropWhile isBlank :=
  List.dropWhile_append_of_pos h

theorem trim_blank (h : AllBlank text) : trim text = [] := by
  have hnone : text.dropWhile isBlank = [] := by
    have hall := dropWhile_blank h []
    rwa [List.append_nil] at hall
  rw [trim, hnone]
  rfl

theorem trim_padded (hi : IsTrimmed inner) (h : Padded inner text) : trim text = inner := by
  obtain ⟨before, after, hbefore, hafter, rfl⟩ := h
  -- With nothing in between, the first pass takes the blanks behind as well.
  by_cases hne : inner = []
  · subst hne
    rw [List.append_nil]
    apply trim_blank
    intro c hc
    rcases List.mem_append.1 hc with hc | hc
    · exact hbefore c hc
    · exact hafter c hc
  · have hhead : ∀ c ∈ (inner ++ after).head?, isBlank c = false := by
      obtain ⟨first, others, rfl⟩ := List.exists_cons_of_ne_nil hne
      exact hi.1
    have hlast : ∀ c ∈ inner.reverse.head?, isBlank c = false := by
      rw [List.head?_reverse]
      exact hi.2
    rw [trim, List.append_assoc, dropWhile_blank hbefore, dropWhile_of_head hhead,
      List.reverse_append, dropWhile_blank hafter.reverse, dropWhile_of_head hlast,
      List.reverse_reverse]

theorem ofList_trim {name : String} (hn : IsTrimmed name.toList) (h : Padded name.toList text) :
    String.ofList (trim text) = name := by
  rw [trim_padded hn h]
  exact String.ofList_toList

theorem Padded.head?_cases (h : Padded inner text) (hc : text.head? = some c) :
    isBlank c = true ∨ inner.head? = some c := by
  obtain ⟨before, after, hbefore, hafter, rfl⟩ := h
  rw [List.append_assoc, List.head?_append, List.head?_append, Option.or_eq_some_iff,
    Option.or_eq_some_iff] at hc
  obtain hhead | ⟨_, hinner | ⟨_, hlast⟩⟩ := hc
  · exact .inl (hbefore c (List.mem_of_head? hhead))
  · exact .inr hinner
  · exact .inl (hafter c (List.mem_of_head? hlast))

theorem allBlank_takeWhile (text : List Char) : AllBlank (text.takeWhile isBlank) :=
  fun _ hc => List.mem_takeWhile_imp hc

theorem padded_trim (text : List Char) : Padded (trim text) text := by
  let rest := text.dropWhile isBlank
  refine ⟨text.takeWhile isBlank, (rest.reverse.takeWhile isBlank).reverse, allBlank_takeWhile text,
    (allBlank_takeWhile _).reverse, ?_⟩
  have hrest : trim text ++ (rest.reverse.takeWhile isBlank).reverse = rest := by
    rw [trim, ← List.reverse_append, List.takeWhile_append_dropWhile, List.reverse_reverse]
  rw [List.append_assoc, hrest]
  exact List.takeWhile_append_dropWhile.symm

theorem head?_dropWhile (text : List Char) :
    ∀ c ∈ (text.dropWhile isBlank).head?, isBlank c = false := by
  intro c hc
  have hfirst := List.head?_dropWhile_not isBlank text
  rw [Option.mem_def.1 hc] at hfirst
  exact hfirst

theorem isTrimmed_trim (text : List Char) : IsTrimmed (trim text) := by
  constructor
  · intro c hc
    -- What is left begins as it did before the blanks at its end were taken away.
    have hstart : trim text <+: text.dropWhile isBlank := by
      rw [trim, ← List.reverse_suffix, List.reverse_reverse]
      exact List.dropWhile_suffix _
    obtain ⟨after, hafter⟩ := hstart
    apply head?_dropWhile text
    rw [← hafter, List.head?_append, Option.mem_def.1 hc]
    rfl
  · intro c hc
    rw [trim, List.getLast?_reverse] at hc
    exact head?_dropWhile _ c hc

theorem wordsFrom_blank (h : AllBlank gap) (text : List Char) :
    wordsFrom [] (gap ++ text) = wordsFrom [] text := by
  induction gap with
  | nil => rfl
  | cons c gap ih =>
    rw [List.cons_append, wordsFrom, if_pos (h c List.mem_cons_self)]
    exact ih h.tail

theorem wordsFrom_append_blank (h : AllBlank gap) (run text : List Char) :
    wordsFrom run (text ++ gap) = wordsFrom run text := by
  induction text generalizing run with
  | nil =>
    cases gap with
    | nil => rfl
    | cons c gap =>
      have hnone := wordsFrom_blank h.tail []
      rw [List.append_nil] at hnone
      rw [List.nil_append, wordsFrom.eq_2, if_pos (h c List.mem_cons_self), hnone]
      exact List.append_nil _
  | cons c text ih =>
    rw [List.cons_append, wordsFrom, wordsFrom, ih, ih]

theorem words_padded (h : Padded inner text) : words text = words inner := by
  obtain ⟨before, after, hbefore, hafter, rfl⟩ := h
  rw [words, List.append_assoc, wordsFrom_blank hbefore, wordsFrom_append_blank hafter]
  rfl

theorem words_trim (text : List Char) : words (trim text) = words text :=
  (words_padded (padded_trim text)).symm

theorem wordsFrom_item (h : ∀ c ∈ item, isBlank c = false) (run rest : List Char) :
    wordsFrom run (item ++ rest) = wordsFrom (item.reverse ++ run) rest := by
  induction item generalizing run with
  | nil => rfl
  | cons c item ih =>
    have hitem : ∀ d ∈ item, isBlank d = false := fun d hd => h d (List.mem_cons_of_mem c hd)
    rw [List.cons_append, wordsFrom, h c List.mem_cons_self, if_neg Bool.false_ne_true, ih hitem]
    simp

theorem wordsFrom_closed (hrun : run ≠ []) (h : ∀ c ∈ rest.head?, isBlank c = true) :
    wordsFrom run rest = run.reverse :: wordsFrom [] rest := by
  cases rest with
  | nil => simp [wordsFrom, closeRun, hrun]
  | cons c rest =>
    rw [wordsFrom, if_pos (h c rfl), wordsFrom, if_pos (h c rfl)]
    simp [closeRun, hrun]

theorem Listed.words_eq (h : Listed items text)
    (hi : ∀ item ∈ items, item ≠ [] ∧ ∀ c ∈ item, isBlank c = false) : words text = items := by
  induction h with
  | nil hg =>
    have hnone := wordsFrom_blank hg []
    rwa [List.append_nil] at hnone
  | cons hg hs _ ih =>
    obtain ⟨hne, hitem⟩ := hi _ List.mem_cons_self
    have hrest := ih fun other hother => hi other (List.mem_cons_of_mem _ hother)
    rw [words, List.append_assoc, wordsFrom_blank hg, wordsFrom_item hitem, List.append_nil,
      wordsFrom_closed (by simpa using hne) hs, List.reverse_reverse]
    exact congrArg _ hrest

end SentenceWalk.Text
