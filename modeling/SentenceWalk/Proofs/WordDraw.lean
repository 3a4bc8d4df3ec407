import SentenceWalk.Proofs.LexiconIndex
import SentenceWalk.Proofs.RequirementAlgebra
import SentenceWalk.Proofs.SuccessorDraw
import SentenceWalk.Rules.WordChoice

namespace SentenceWalk

def Language.Offers (language : Language) (code : String) (entry : Entry) : Prop :=
  ∃ part, language.grammar.parts[code]? = some part ∧ part.role ≠ .finish ∧
    language.lexicon.words[entry.id]? = some entry.word ∧ entry.word.tag ∈ part.vocabulary

namespace Role

variable {role : Role}

theorem ne_noun_of_isModifier (h : role.isModifier = true) : role ≠ .noun := by
  rintro rfl
  cases h

theorem ne_finish_of_isModifier (h : role.isModifier = true) : role ≠ .finish := by
  rintro rfl
  cases h

end Role

namespace RandomStream

variable {α : Type} {items : List α} {item : α} {stream : RandomStream}

def draws (items : List α) : Nat → RandomStream → List α
  | 0, _ => []
  | count + 1, stream =>
    match stream.choose items with
    | (none, _) => []
    | (some item, rest) => item :: draws items count rest

theorem mem_of_mem_draws {count : Nat} (h : item ∈ stream.draws items count) : item ∈ items := by
  induction count generalizing stream with
  | zero => cases h
  | succ count ih =>
    rw [draws] at h
    rcases hdraw : stream.choose items with ⟨_ | first, rest⟩
    · rw [hdraw] at h
      cases h
    · rw [hdraw] at h
      rcases List.mem_cons.1 h with rfl | hlater
      · exact mem_of_choose (congrArg Prod.fst hdraw)
      · exact ih hlater

end RandomStream

namespace Rules

variable {rules : Rules} {cursor : Cursor} {target name : String} {part : Part} {role : Role}
variable {pending : Pending} {history : History} {used : UsedWords} {stream : RandomStream}
variable {pool : List Entry} {entry : Entry}

theorem mem_of_mem_avoid (h : entry ∈ avoid pool name) : entry ∈ pool := by
  rw [avoid] at h
  split at h
  · exact h
  · exact (List.mem_filter.1 h).1

theorem mem_of_mem_foldl_avoid {names : List String} (h : entry ∈ names.foldl avoid pool) :
    entry ∈ pool := by
  induction names generalizing pool with
  | nil => exact h
  | cons name names ih => exact mem_of_mem_avoid (ih h)

theorem mem_of_mem_withoutUsed (h : entry ∈ withoutUsed pool used history) : entry ∈ pool := by
  rw [withoutUsed] at h
  split at h
  · exact mem_of_mem_foldl_avoid (List.mem_filter.1 h).1
  · exact mem_of_mem_foldl_avoid h

theorem requirements_of_not_hasRequirements (h : entry.word.hasRequirements = false) :
    rules.requirements entry = ∅ := by
  simp only [Word.hasRequirements, Bool.or_eq_false_iff, Bool.not_eq_false', List.isEmpty_iff] at h
  rw [requirements, Language.requirements, h.1, h.2]
  rfl

def cursorRequirements (rules : Rules) (cursor : Cursor) : NameSet :=
  (cursor.entry.map rules.requirements).getD ∅

/-- The names that the word at the cursor and those before it leave to the noun behind them. -/
def due (rules : Rules) (cursor : Cursor) (pending : Pending) : NameSet :=
  Pending.combine pending.active (rules.cursorRequirements cursor)

theorem pendingAfter_eq (rules : Rules) (cursor : Cursor) (history : History) (pending : Pending) :
    rules.pendingAfter cursor history pending =
      if history.inConjunction then (pending.apply (rules.cursorRequirements cursor)).resume
      else pending.apply (rules.cursorRequirements cursor) := by
  rw [pendingAfter, cursorRequirements]
  cases cursor.entry with
  | none => rw [Option.map_none, Option.getD_none, Pending.apply, Pending.combine_empty_right]
  | some entry => rfl

/-- An entry without requirements, or one whose requirements leave a name of what is pending. -/
def Agrees (rules : Rules) (pending : Pending) (entry : Entry) : Prop :=
  entry.word.hasRequirements = false ∨ pending.active ∩ rules.requirements entry ≠ ∅

instance : DecidablePred (rules.Agrees pending) := fun entry =>
  inferInstanceAs (Decidable (entry.word.hasRequirements = false ∨
    pending.active ∩ rules.requirements entry ≠ ∅))

theorem Agrees.active_ne_empty (h : rules.Agrees pending entry) (ha : pending.active ≠ ∅) :
    (pending.apply (rules.requirements entry)).active ≠ ∅ := by
  intro hempty
  rcases Pending.combine_eq_empty_iff.1 hempty with ⟨hnone, _⟩ | ⟨_, hreq, hdisjoint⟩
  · exact ha hnone
  · rcases h with h | h
    · exact hreq (requirements_of_not_hasRequirements h)
    · exact h hdisjoint

theorem apply_of_not_hasRequirements (h : entry.word.hasRequirements = false) :
    pending.apply (rules.requirements entry) = pending := by
  rw [requirements_of_not_hasRequirements h, Pending.apply, Pending.combine_empty_right]

theorem apply_of_overlap (h : pending.active ∩ rules.requirements entry ≠ ∅) :
    pending.apply (rules.requirements entry) =
      { pending with active := pending.active ∩ rules.requirements entry } := by
  rw [Pending.apply, Pending.combine_of_inter_ne_empty h]

theorem matchWithin_eq (hp : pool ≠ []) (target : String) (pending : Pending) (draws : Nat)
    (stream : RandomStream) :
    ((rules.matchWithin target pool pending draws stream).1,
        (rules.matchWithin target pool pending draws stream).2.1) =
      match (stream.draws pool draws).find? fun entry => rules.Agrees pending entry with
      | some entry => (.ok entry, pending.apply (rules.requirements entry))
      | none => (.error (.exhaustedRetries target rules.config.matchRetryLimit), pending) := by
  induction draws generalizing stream with
  | zero => rfl
  | succ draws ih =>
    rw [matchWithin, RandomStream.draws]
    rcases hdraw : stream.choose pool with ⟨_ | entry, rest⟩
    · exact absurd (RandomStream.choose_eq_none_iff.1 (congrArg Prod.fst hdraw)) hp
    · dsimp only
      by_cases hreq : entry.word.hasRequirements = true
      · rw [if_pos hreq]
        by_cases hempty : (pending.active ∩ rules.requirements entry).isEmpty = true
        · have hconflict : ¬ rules.Agrees pending entry := by
            simpa [Agrees, hreq] using hempty
          rw [if_pos hempty, List.find?_cons_of_neg (by simpa using hconflict)]
          exact ih rest
        · have hoverlap : pending.active ∩ rules.requirements entry ≠ ∅ := by simpa using hempty
          have hagrees : rules.Agrees pending entry := .inr hoverlap
          rw [if_neg hempty, List.find?_cons_of_pos (by simpa using hagrees)]
          dsimp only
          rw [apply_of_overlap hoverlap]
      · have hfree : entry.word.hasRequirements = false := by simpa using hreq
        have hagrees : rules.Agrees pending entry := .inl hfree
        rw [if_neg hreq, List.find?_cons_of_pos (by simpa using hagrees)]
        dsimp only
        rw [apply_of_not_hasRequirements hfree]

/-- Drawing from a pool that is not empty runs out of draws or comes to an entry that agrees. The
requirements of that entry are then pending as well. -/
theorem matchWithin_cases (hp : pool ≠ []) (draws : Nat) (stream : RandomStream) :
    ((rules.matchWithin target pool pending draws stream).1 =
        .error (.exhaustedRetries target rules.config.matchRetryLimit) ∧
      (rules.matchWithin target pool pending draws stream).2.1 = pending) ∨
    ∃ entry ∈ pool, rules.Agrees pending entry ∧
      (rules.matchWithin target pool pending draws stream).1 = .ok entry ∧
      (rules.matchWithin target pool pending draws stream).2.1 =
        pending.apply (rules.requirements entry) := by
  have hmatch := rules.matchWithin_eq hp target pending draws stream
  split at hmatch
  · rename_i entry hfound
    have hmem := RandomStream.mem_of_mem_draws (List.mem_of_find?_eq_some hfound)
    have hagrees : rules.Agrees pending entry := by simpa using List.find?_some hfound
    exact .inr ⟨entry, hmem, hagrees, Prod.ext_iff.1 hmatch⟩
  · exact .inl (Prod.ext_iff.1 hmatch)

theorem matchRequirements_cases (hp : pool ≠ []) (target : String) (pending : Pending)
    (stream : RandomStream) :
    ((rules.matchRequirements target pool pending stream).1 =
        .error (.exhaustedRetries target rules.config.matchRetryLimit) ∧
      (rules.matchRequirements target pool pending stream).2.1 = pending.seedFromReserve) ∨
    ∃ entry ∈ pool, rules.Agrees pending.seedFromReserve entry ∧
      (rules.matchRequirements target pool pending stream).1 = .ok entry ∧
      (rules.matchRequirements target pool pending stream).2.1 =
        pending.seedFromReserve.apply (rules.requirements entry) := by
  rw [matchRequirements, if_neg (by simpa using hp)]
  exact rules.matchWithin_cases hp rules.config.matchRetryLimit stream

/-- A pick fails without words, gives up a match, or comes to an entry of the pool. Only a match
changes what is pending. -/
theorem pick_cases (target : String) (role : Role) (pool : List Entry) (history : History)
    (pending : Pending) (stream : RandomStream) :
    (pool = [] ∧ rules.pick target role pool history pending stream =
      (.error (.poolExhausted target), pending, stream)) ∨
    (pool ≠ [] ∧ (rules.pick target role pool history pending stream).1 =
        .error (.exhaustedRetries target rules.config.matchRetryLimit) ∧
      (rules.pick target role pool history pending stream).2.1 = pending.seedFromReserve) ∨
    ∃ entry ∈ pool, (rules.pick target role pool history pending stream).1 = .ok entry ∧
      ((rules.pick target role pool history pending stream).2.1 = pending ∨
        (rules.pick target role pool history pending stream).2.1 =
          pending.seedFromReserve.apply (rules.requirements entry)) := by
  by_cases hp : pool = []
  · subst hp
    refine .inl ⟨rfl, ?_⟩
    rw [pick]
    split <;> rfl
  · right
    rw [pick]
    split
    · rcases rules.matchRequirements_cases hp target pending stream with
        ⟨he, hpending⟩ | ⟨entry, hmem, _, hok, hpending⟩
      · exact .inl ⟨hp, he, hpending⟩
      · exact .inr ⟨entry, hmem, hok, .inr hpending⟩
    · rcases hdraw : stream.choose pool with ⟨_ | entry, rest⟩
      · exact absurd (RandomStream.choose_eq_none_iff.1 (congrArg Prod.fst hdraw)) hp
      · have hmem := RandomStream.mem_of_choose (congrArg Prod.fst hdraw)
        exact .inr ⟨entry, hmem, rfl, .inl rfl⟩

theorem mem_of_pick (hok : (rules.pick target role pool history pending stream).1 = .ok entry) :
    entry ∈ pool := by
  rcases rules.pick_cases target role pool history pending stream with
    ⟨_, he⟩ | ⟨_, he, _⟩ | ⟨chosen, hmem, he, _⟩
  · rw [he] at hok
    cases hok
  · cases hok.symm.trans he
  · cases hok.symm.trans he
    exact hmem

theorem pick_modifier (hr : role.isModifier = true) (ha : pending.active ≠ ∅)
    (hok : (rules.pick target role pool history pending stream).1 = .ok entry) :
    rules.Agrees pending entry ∧
      (rules.pick target role pool history pending stream).2.1 =
        pending.apply (rules.requirements entry) := by
  have hp : pool ≠ [] := List.ne_nil_of_mem (mem_of_pick hok)
  have hc : pending.isConstrained = true := Pending.isConstrained_iff.2 ha
  have hseed : pending.seedFromReserve = pending := by
    rw [Pending.seedFromReserve, if_neg (by simpa using ha)]
  rw [pick, hr, hc, Bool.true_or, Bool.and_self, if_pos rfl] at hok ⊢
  have hmatch := rules.matchRequirements_cases hp target pending stream
  rw [hseed] at hmatch
  rcases hmatch with ⟨he, _⟩ | ⟨chosen, _, hagrees, he, hpending⟩
  · cases hok.symm.trans he
  · cases hok.symm.trans he
    exact ⟨hagrees, hpending⟩

theorem pick_pending (hr : role.isModifier = false) :
    (rules.pick target role pool history pending stream).2.1 = pending := by
  rw [pick, hr, Bool.false_and, if_neg (by simp)]
  split <;> rfl

theorem offer_of_ne_noun (hr : part.role ≠ .noun) :
    rules.offer part pending = (rules.language.lexicon.withTags part.vocabulary, pending) := by
  rw [offer, beq_false_of_ne hr, Bool.false_and]
  rfl

theorem mem_withTags_of_mem_offer (h : entry ∈ (rules.offer part pending).1) :
    entry ∈ rules.language.lexicon.withTags part.vocabulary := by
  rw [offer] at h
  split at h
  · exact (List.mem_filter.1 h).1
  · exact h

theorem nextWord_terminal (hp : rules.language.grammar.parts[target]? = some part)
    (hr : part.role = .finish) :
    rules.nextWord cursor target pending history used stream = (.ok .finish, pending, stream) := by
  rw [nextWord, Grammar.part_eq hp]
  dsimp only
  rw [if_pos (by simp [Part.isTerminal, hr])]

theorem nextWord_eq_pick (hp : rules.language.grammar.parts[target]? = some part)
    (hr : part.role ≠ .finish) :
    rules.nextWord cursor target pending history used stream =
      let (pool, pending) := rules.offer part (rules.pendingAfter cursor history pending)
      let pool := withoutUsed pool used history
      let picked := rules.pick target part.role pool history pending stream
      (picked.1.map .word, picked.2) := by
  rw [nextWord, Grammar.part_eq hp]
  dsimp only
  rw [if_neg (by simp [Part.isTerminal, hr])]

theorem nextWord_of_ne_noun (hp : rules.language.grammar.parts[target]? = some part)
    (hr : part.role ≠ .finish) (hnoun : part.role ≠ .noun) :
    rules.nextWord cursor target pending history used stream =
      let pool := withoutUsed (rules.language.lexicon.withTags part.vocabulary) used history
      let picked := rules.pick target part.role pool history
        (rules.pendingAfter cursor history pending) stream
      (picked.1.map .word, picked.2) := by
  rw [nextWord_eq_pick hp hr, offer_of_ne_noun hnoun]

/-- A word that is neither a noun nor a modifier leaves pending what it finds, also if there is none
to be had. -/
theorem nextWord_pending (hp : rules.language.grammar.parts[target]? = some part)
    (hr : part.role ≠ .finish) (hnoun : part.role ≠ .noun) (hm : part.role.isModifier = false)
    (cursor : Cursor) (pending : Pending) (history : History) (used : UsedWords)
    (stream : RandomStream) :
    (rules.nextWord cursor target pending history used stream).2.1 =
      rules.pendingAfter cursor history pending := by
  rw [nextWord_of_ne_noun hp hr hnoun]
  exact pick_pending hm

/-- A choice for a part that is defined ends the sentence at a terminal part only, comes to a word
that the part offers, or fails for want of words. -/
theorem nextWord_cases (hp : rules.language.grammar.parts[target]? = some part) (cursor : Cursor)
    (pending : Pending) (history : History) (used : UsedWords) (stream : RandomStream) :
    (part.role = .finish ∧
      (rules.nextWord cursor target pending history used stream).1 = .ok .finish) ∨
    (∃ error, (rules.nextWord cursor target pending history used stream).1 = .error error ∧
      error.FromDraw) ∨
    ∃ entry, (rules.nextWord cursor target pending history used stream).1 = .ok (.word entry) ∧
      rules.language.Offers target entry := by
  by_cases hr : part.role = .finish
  · exact .inl ⟨hr, by rw [nextWord_terminal hp hr]⟩
  · right
    rw [nextWord_eq_pick hp hr]
    rcases rules.pick_cases target part.role
      (withoutUsed (rules.offer part (rules.pendingAfter cursor history pending)).1 used history)
      history (rules.offer part (rules.pendingAfter cursor history pending)).2 stream with
      ⟨_, he⟩ | ⟨_, he, _⟩ | ⟨entry, hmem, he, _⟩
    · exact .inl ⟨_, congrArg (Except.map NextWord.word ∘ Prod.fst) he, trivial⟩
    · exact .inl ⟨_, congrArg (Except.map NextWord.word) he, trivial⟩
    · have htags := mem_withTags_of_mem_offer (mem_of_mem_withoutUsed hmem)
      exact .inr ⟨entry, by simp only [he, Except.map], part, hp, hr,
        Lexicon.mem_withTags_iff.1 htags⟩

theorem part_of_word
    (hw : (rules.nextWord cursor target pending history used stream).1 = .ok (.word entry)) :
    ∃ part, rules.language.grammar.parts[target]? = some part := by
  cases hp : rules.language.grammar.parts[target]? with
  | none =>
    rw [nextWord, Grammar.part, hp] at hw
    cases hw
  | some part => exact ⟨part, rfl⟩

theorem nextWord_error (hp : rules.language.grammar.parts[target]? = some part)
    (herror : (rules.nextWord cursor target pending history used stream).1 = .error error) :
    error.FromDraw := by
  rcases nextWord_cases hp cursor pending history used stream with
    ⟨_, he⟩ | ⟨_, he, hdrawn⟩ | ⟨entry, he, _⟩
  · cases herror.symm.trans he
  · cases herror.symm.trans he
    exact hdrawn
  · cases herror.symm.trans he

theorem nextWord_ne_grammar (hp : rules.language.grammar.parts[target]? = some part)
    (fault : GrammarError) :
    (rules.nextWord cursor target pending history used stream).1 ≠ .error (.grammar fault) :=
  fun herror => nextWord_error hp herror

theorem role_of_finish (hp : rules.language.grammar.parts[target]? = some part)
    (hf : (rules.nextWord cursor target pending history used stream).1 = .ok .finish) :
    part.role = .finish := by
  rcases nextWord_cases hp cursor pending history used stream with
    ⟨hr, _⟩ | ⟨error, he, _⟩ | ⟨entry, he, _⟩
  · exact hr
  · cases hf.symm.trans he
  · cases hf.symm.trans he

section Word

variable (hp : rules.language.grammar.parts[target]? = some part)
variable (hw : (rules.nextWord cursor target pending history used stream).1 = .ok (.word entry))

include hp hw

theorem offers_of_word : rules.language.Offers target entry := by
  rcases nextWord_cases hp cursor pending history used stream with
    ⟨_, he⟩ | ⟨error, he, _⟩ | ⟨chosen, he, hoffers⟩
  · cases hw.symm.trans he
  · cases hw.symm.trans he
  · cases hw.symm.trans he
    exact hoffers

theorem role_ne_finish_of_word : part.role ≠ .finish := by
  intro hr
  rw [nextWord_terminal hp hr] at hw
  cases hw

theorem pick_of_word :
    (rules.pick target part.role
      (withoutUsed (rules.offer part (rules.pendingAfter cursor history pending)).1 used history)
      history (rules.offer part (rules.pendingAfter cursor history pending)).2 stream).1 =
        .ok entry := by
  have h := hw
  rw [nextWord_eq_pick hp (role_ne_finish_of_word hp hw)] at h
  dsimp only at h
  generalize rules.pick target part.role _ history _ stream = picked at h ⊢
  rcases picked with ⟨error | chosen, rest⟩
  · cases h
  · cases h
    rfl

theorem nextWord_modifier (hr : part.role.isModifier = true)
    (ha : (rules.pendingAfter cursor history pending).active ≠ ∅) :
    rules.Agrees (rules.pendingAfter cursor history pending) entry ∧
      (rules.nextWord cursor target pending history used stream).2.1 =
        (rules.pendingAfter cursor history pending).apply (rules.requirements entry) := by
  have hnoun := Role.ne_noun_of_isModifier hr
  have hpick := pick_of_word hp hw
  rw [offer_of_ne_noun hnoun] at hpick
  rw [nextWord_of_ne_noun hp (Role.ne_finish_of_isModifier hr) hnoun]
  exact pick_modifier hr ha hpick

end Word

end Rules

/-! A language of one phrase, "into old town but", of which only the noun can vary. -/

namespace Sample

def into : Entry :=
  ⟨0, { name := "into", tag := "P", nextWords := ["town", "hill"], flags := ["okayconj"] }⟩

def old : Entry := ⟨1, { name := "old", tag := "ADJ", nextWords := ["town", "lake"] }⟩

def town : Entry := ⟨2, { name := "town", tag := "N" }⟩

def hill : Entry := ⟨3, { name := "hill", tag := "N" }⟩

def lake : Entry := ⟨4, { name := "lake", tag := "N" }⟩

def but : Entry := ⟨5, { name := "but", tag := "CONJ" }⟩

def noun : Part := ⟨.noun, ["CONJ"], [1], .ofList ["N"]⟩

def grammar : Grammar where
  parts := .ofList [
    ("S", ⟨.start, ["P"], [1], ∅⟩),
    ("P", ⟨.preposition, ["ADJ"], [1], .ofList ["P"]⟩),
    ("ADJ", ⟨.adjective, ["N"], [1], .ofList ["ADJ"]⟩),
    ("N", noun),
    ("CONJ", ⟨.conjunction, ["END"], [1], .ofList ["CONJ"]⟩),
    ("END", ⟨.finish, [], [], ∅⟩)]
  sound := Option.isNone_iff_eq_none.1 (by decide +kernel)

def rules : Rules where
  language := {
    grammar
    hierarchy := {}
    lexicon := { words := [into.word, old.word, town.word, hill.word, lake.word, but.word] } }
  config := {}

end Sample

end SentenceWalk
