import Mathlib.Data.List.Forall2
import SentenceWalk.Proofs.GrammarSoundness
import SentenceWalk.Rules.PartChoice
import SentenceWalk.Rules.WordChoice

namespace SentenceWalk

theorem isEmpty_eq_of_mem_iff {α : Type} {items others : List α}
    (h : ∀ item, item ∈ others ↔ item ∈ items) : others.isEmpty = items.isEmpty := by
  rw [Bool.eq_iff_iff, List.isEmpty_iff, List.isEmpty_iff, List.eq_nil_iff_forall_not_mem,
    List.eq_nil_iff_forall_not_mem]
  simp only [h]

theorem contains_eq_of_mem_iff {items others : List String}
    (h : ∀ item, item ∈ others ↔ item ∈ items) (item : String) :
    others.contains item = items.contains item := by
  rw [Bool.eq_iff_iff, List.contains_iff_mem, List.contains_iff_mem, h]

/-- Words that differ only in the order and the repetition of what they list. -/
structure Word.Like (word other : Word) : Prop where
  name : other.name = word.name
  tag : other.tag = word.tag
  plural : other.plural = word.plural
  categories : ∀ category, category ∈ other.categories ↔ category ∈ word.categories
  nextWords : ∀ name, name ∈ other.nextWords ↔ name ∈ word.nextWords
  nextCategories : ∀ category, category ∈ other.nextCategories ↔ category ∈ word.nextCategories
  flags : ∀ flag, flag ∈ other.flags ↔ flag ∈ word.flags

namespace Word

variable {word other : Word}

theorem Like.refl (word : Word) : word.Like word := by
  constructor <;> simp

theorem Like.hasRequirements (h : word.Like other) :
    other.hasRequirements = word.hasRequirements := by
  rw [Word.hasRequirements, Word.hasRequirements, isEmpty_eq_of_mem_iff h.nextWords,
    isEmpty_eq_of_mem_iff h.nextCategories]

theorem Like.hasFlag (h : word.Like other) (flag : String) :
    other.hasFlag flag = word.hasFlag flag :=
  contains_eq_of_mem_iff h.flags flag

theorem Like.requiresCategory (h : word.Like other) (category : String) :
    other.requiresCategory category = word.requiresCategory category :=
  contains_eq_of_mem_iff h.nextCategories category

theorem Like.inflect (h : word.Like other) (role : Role) (situation : Situation) :
    other.inflect role situation = word.inflect role situation := by
  rw [Word.inflect.eq_def, Word.inflect.eq_def, pluralForm, pluralForm, h.name, h.plural]

end Word

structure Entry.Like (entry other : Entry) : Prop where
  id : other.id = entry.id
  word : entry.word.Like other.word

theorem Entry.Like.refl (entry : Entry) : entry.Like entry :=
  ⟨rfl, .refl _⟩

structure Cursor.Like (cursor other : Cursor) : Prop where
  code : other.code = cursor.code
  entry : Option.Rel Entry.Like cursor.entry other.entry

def Grammar.Draws (grammar : Grammar) (tag : String) : Prop :=
  ∃ (code : String) (part : Part), grammar.parts[code]? = some part ∧ tag ∈ part.vocabulary

instance (grammar : Grammar) (tag : String) : Decidable (grammar.Draws tag) :=
  decidable_of_iff (∃ item ∈ grammar.parts.toList, tag ∈ item.2.vocabulary) <| by
    constructor
    · rintro ⟨⟨code, part⟩, hmem, htag⟩
      exact ⟨code, part, Std.ExtTreeMap.mem_toList_iff_getElem?_eq_some.1 hmem, htag⟩
    · rintro ⟨code, part, hp, htag⟩
      exact ⟨(code, part), Std.ExtTreeMap.mem_toList_iff_getElem?_eq_some.2 hp, htag⟩

namespace RandomStream

theorem choose_cases {α β : Type} {rel : α → β → Prop} {items : List α} {others : List β}
    (h : List.Forall₂ rel items others) (stream : RandomStream) :
    (∃ rest, stream.choose items = (none, rest) ∧ stream.choose others = (none, rest)) ∨
    ∃ item other rest, rel item other ∧ stream.choose items = (some item, rest) ∧
      stream.choose others = (some other, rest) := by
  cases h with
  | nil => exact .inl ⟨stream, rfl, rfl⟩
  | @cons first second items others hfirst hrest =>
    right
    have hlength : (first :: items).length = (second :: others).length :=
      (List.Forall₂.cons hfirst hrest).length_eq
    have hlt := stream.below_lt (Nat.succ_pos items.length)
    have hlt' : (stream.below (items.length + 1)).1 < (second :: others).length := hlength ▸ hlt
    refine ⟨(first :: items)[(stream.below (items.length + 1)).1],
      (second :: others)[(stream.below (items.length + 1)).1], (stream.below (items.length + 1)).2,
      (List.Forall₂.cons hfirst hrest).get hlt hlt', ?_, ?_⟩
    · rw [choose]
      exact congrArg (·, _) (List.getElem?_eq_getElem hlt)
    · rw [choose, ← hlength]
      exact congrArg (·, _) (List.getElem?_eq_getElem hlt')

end RandomStream

/-- What a choice between alternatives alike comes to: the same error, or results that are related,
and in both cases the same for what follows. -/
inductive Coincide {α β σ : Type} (rel : α → β → Prop) :
    Except WalkError α × σ → Except WalkError β × σ → Prop where
  | error (error : WalkError) (rest : σ) : Coincide rel (.error error, rest) (.error error, rest)
  | ok {result : α} {other : β} (h : rel result other) (rest : σ) :
      Coincide rel (.ok result, rest) (.ok other, rest)

namespace Rules

def conjoins (rules : Rules) (preposition : Preposition) : Bool :=
  (rules.language.lexicon.lookup preposition.name preposition.tag).any
    (·.hasFlag rules.config.conjoinFlag)

/-- Rules of the same settings and the same grammar, under which each part offers words alike, and
words alike have the same requirements. -/
structure Alike (rules other : Rules) : Prop where
  config : other.config = rules.config
  grammar : other.language.grammar = rules.language.grammar
  offered : ∀ {code : String} {part : Part}, rules.language.grammar.parts[code]? = some part →
    List.Forall₂ Entry.Like (rules.language.lexicon.withTags part.vocabulary)
      (other.language.lexicon.withTags part.vocabulary)
  requirements : ∀ {word word' : Word}, word.Like word' →
    other.language.requirements word' = rules.language.requirements word
  conjoins : ∀ {preposition : Preposition}, rules.language.grammar.Draws preposition.tag →
    other.conjoins preposition = rules.conjoins preposition

variable {rules other : Rules} {cursor cursor' : Cursor} {history : History} {pending : Pending}
variable {used : UsedWords} {stream : RandomStream} {pool pool' : List Entry} {part : Part}
variable {entry entry' : Entry} {code target : String}

/-- The last preposition, if there is any, comes from a class that the grammar draws. -/
def Knowing (rules : Rules) (history : History) : Prop :=
  ∀ preposition, history.lastPreposition = some preposition →
    rules.language.grammar.Draws preposition.tag

theorem Alike.choices (h : rules.Alike other) (code : String) (length : Nat) :
    other.choices code length = rules.choices code length := by
  rw [Rules.choices, Rules.choices, h.grammar, h.config]

theorem Alike.allowsConjunction (h : rules.Alike other) (hk : rules.Knowing history) :
    other.allowsConjunction history = rules.allowsConjunction history := by
  rw [Rules.allowsConjunction, Rules.allowsConjunction]
  cases history.lookBack false with
  | preposition =>
    cases hlast : history.lastPreposition with
    | none => rfl
    | some preposition => exact h.conjoins (hk preposition hlast)
  | _ => rfl

theorem Alike.allows (h : rules.Alike other) (hc : cursor.Like cursor')
    (hk : rules.Knowing history) (role : Role) :
    other.allows cursor' history role = rules.allows cursor history role := by
  cases role with
  | properNoun =>
    have hentry := hc.entry
    rw [Rules.allows, Rules.allows, h.config]
    generalize cursor.entry = entry, cursor'.entry = entry' at hentry ⊢
    cases hentry with
    | some hlike => exact hlike.word.requiresCategory _
    | none => rfl
  | conjunction => exact h.allowsConjunction hk
  | _ => rfl

theorem Alike.drawPart (h : rules.Alike other) (hc : cursor.Like cursor')
    (hk : rules.Knowing history) (stream : RandomStream) :
    other.drawPart cursor' history stream = rules.drawPart cursor history stream := by
  rw [Rules.drawPart, Rules.drawPart, hc.code, h.choices, h.grammar]
  simp only [h.allows hc hk]

theorem Alike.choosePart (h : rules.Alike other) (hc : cursor.Like cursor')
    (hk : rules.Knowing history) (stream : RandomStream) :
    other.choosePart cursor' history stream = rules.choosePart cursor history stream := by
  rw [Rules.choosePart, Rules.choosePart, h.config]
  generalize rules.config.partRetryLimit = draws
  induction draws generalizing stream with
  | zero => rw [choosePartWithin, choosePartWithin, hc.code, h.config]
  | succ draws ih =>
    rw [choosePartWithin, choosePartWithin, h.drawPart hc hk]
    rcases rules.drawPart cursor history stream with ⟨error | drawn, rest⟩
    · rfl
    · cases drawn with
      | part code => rfl
      | retry => exact ih rest

theorem Alike.pendingAfter (h : rules.Alike other) (hc : cursor.Like cursor') (history : History)
    (pending : Pending) :
    other.pendingAfter cursor' history pending = rules.pendingAfter cursor history pending := by
  have hentry := hc.entry
  rw [Rules.pendingAfter, Rules.pendingAfter]
  generalize cursor.entry = entry, cursor'.entry = entry' at hentry ⊢
  cases hentry with
  | some hlike =>
    dsimp only
    rw [Rules.requirements, Rules.requirements, h.requirements hlike.word]
  | none => rfl

theorem forall₂_filter_name (h : List.Forall₂ Entry.Like pool pool') (keeps : String → Bool) :
    List.Forall₂ Entry.Like (pool.filter fun entry => keeps entry.name)
      (pool'.filter fun entry => keeps entry.name) := by
  refine List.rel_filter ?_ h
  intro entry entry' hlike
  simp only [Entry.name, hlike.word.name]

theorem forall₂_avoid (h : List.Forall₂ Entry.Like pool pool') (name : String) :
    List.Forall₂ Entry.Like (avoid pool name) (avoid pool' name) := by
  have hothers := forall₂_filter_name h (· != name)
  rw [avoid, avoid]
  generalize pool.filter _ = others, pool'.filter _ = others' at hothers ⊢
  cases hothers with
  | nil => exact h
  | cons hfirst hrest => exact .cons hfirst hrest

theorem forall₂_foldl_avoid (h : List.Forall₂ Entry.Like pool pool') (names : List String) :
    List.Forall₂ Entry.Like (names.foldl avoid pool) (names.foldl avoid pool') := by
  induction names generalizing pool pool' with
  | nil => exact h
  | cons name names ih => exact ih (forall₂_avoid h name)

theorem forall₂_withoutUsed (h : List.Forall₂ Entry.Like pool pool') (used : UsedWords)
    (history : History) :
    List.Forall₂ Entry.Like (withoutUsed pool used history) (withoutUsed pool' used history) := by
  have hunused := forall₂_foldl_avoid h used.names
  rw [withoutUsed, withoutUsed]
  cases history.lastPreposition with
  | none => exact hunused
  | some preposition => exact forall₂_filter_name hunused (· != preposition.name)

theorem Alike.offer (h : rules.Alike other) (hp : rules.language.grammar.parts[code]? = some part)
    (pending : Pending) :
    List.Forall₂ Entry.Like (rules.offer part pending).1 (other.offer part pending).1 ∧
      (other.offer part pending).2 = (rules.offer part pending).2 := by
  rw [Rules.offer, Rules.offer]
  by_cases hn : (part.role == .noun && pending.isConstrained) = true
  · rw [if_pos hn, if_pos hn]
    exact ⟨forall₂_filter_name (h.offered hp) pending.active.contains, rfl⟩
  · rw [if_neg hn, if_neg hn]
    exact ⟨h.offered hp, rfl⟩

theorem Alike.matchWithin (h : rules.Alike other) (hp : List.Forall₂ Entry.Like pool pool')
    (target : String) (pending : Pending) (draws : Nat) (stream : RandomStream) :
    Coincide Entry.Like (rules.matchWithin target pool pending draws stream)
      (other.matchWithin target pool' pending draws stream) := by
  induction draws generalizing stream with
  | zero =>
    rw [Rules.matchWithin, Rules.matchWithin, h.config]
    exact .error _ _
  | succ draws ih =>
    rw [Rules.matchWithin, Rules.matchWithin]
    obtain ⟨rest, hnone, hnone'⟩ | ⟨entry, entry', rest, hentry, hsome, hsome'⟩ :=
      RandomStream.choose_cases hp stream
    · rw [hnone, hnone']
      exact .error _ _
    · rw [hsome, hsome']
      dsimp only
      rw [hentry.word.hasRequirements, Rules.requirements, Rules.requirements,
        h.requirements hentry.word]
      by_cases hreq : entry.word.hasRequirements = true
      · rw [if_pos hreq, if_pos hreq]
        split
        · exact ih rest
        · exact .ok hentry _
      · rw [if_neg hreq, if_neg hreq]
        exact .ok hentry _

theorem Alike.pick (h : rules.Alike other) (hp : List.Forall₂ Entry.Like pool pool')
    (target : String) (role : Role) (history : History) (pending : Pending)
    (stream : RandomStream) :
    Coincide Entry.Like (rules.pick target role pool history pending stream)
      (other.pick target role pool' history pending stream) := by
  rw [Rules.pick, Rules.pick]
  split
  · rw [matchRequirements, matchRequirements, h.config]
    cases hp with
    | nil => exact .error _ _
    | cons hfirst hrest => exact h.matchWithin (.cons hfirst hrest) target _ _ stream
  · obtain ⟨rest, hnone, hnone'⟩ | ⟨entry, entry', rest, hentry, hsome, hsome'⟩ :=
      RandomStream.choose_cases hp stream
    · rw [hnone, hnone']
      exact .error _ _
    · rw [hsome, hsome']
      exact .ok hentry _

end Rules

inductive NextWord.Like : NextWord → NextWord → Prop where
  | word {entry entry' : Entry} (h : entry.Like entry') : Like (.word entry) (.word entry')
  | finish : Like .finish .finish

theorem Rules.Alike.nextWord {rules other : Rules} {cursor cursor' : Cursor}
    (h : rules.Alike other) (hc : cursor.Like cursor') (target : String) (pending : Pending)
    (history : History) (used : UsedWords) (stream : RandomStream) :
    Coincide NextWord.Like (rules.nextWord cursor target pending history used stream)
      (other.nextWord cursor' target pending history used stream) := by
  rw [Rules.nextWord, Rules.nextWord, h.grammar]
  cases hp : rules.language.grammar.parts[target]? with
  | none =>
    rw [Grammar.part, hp]
    exact .error _ _
  | some part =>
    rw [Grammar.part_eq hp]
    dsimp only
    split
    · exact .ok .finish _
    · obtain ⟨hoffered, hpending⟩ := h.offer hp (rules.pendingAfter cursor history pending)
      rw [h.pendingAfter hc, hpending]
      have hpicked := h.pick (forall₂_withoutUsed hoffered used history) target part.role history
        (rules.offer part (rules.pendingAfter cursor history pending)).2 stream
      generalize rules.pick target part.role _ history _ stream = picked at hpicked ⊢
      generalize other.pick target part.role _ history _ stream = picked' at hpicked ⊢
      cases hpicked with
      | error error rest => exact .error _ _
      | ok hentry rest => exact .ok (.word hentry) _

theorem Rules.Alike.render {rules other : Rules} {entry entry' : Entry} (h : rules.Alike other)
    (he : entry.Like entry') (code : String) (situation : Situation) :
    other.render entry' code situation = rules.render entry code situation := by
  rw [Rules.render, Rules.render, h.grammar]
  simp only [he.word.inflect]

end SentenceWalk
