import SentenceWalk.Proofs.ChoiceEffect

namespace SentenceWalk

/-!
A language in which "or" asks for a lake, joined to the apple that "eat" asks for, with or without
an article between them.
-/

namespace Sample

def ask : Entry := ⟨2, { name := "or", tag := "CONJ", nextWords := ["lake"] }⟩

def article : Entry := ⟨3, { name := "the", tag := "SART" }⟩

def orchardGrammar : Grammar where
  parts := .ofList [
    ("S", (⟨.start, ["STV"], [1], ∅⟩ : Part)),
    ("STV", ⟨.verb, ["N"], [1], .ofList ["STV"]⟩),
    ("N", ⟨.noun, ["CONJ"], [1], .ofList ["N"]⟩),
    ("CONJ", ⟨.conjunction, ["NN", "SART"], [1, 1], .ofList ["CONJ"]⟩),
    ("SART", ⟨.singularArticle, ["NN"], [1], .ofList ["SART"]⟩),
    ("NN", ⟨.noun, ["END"], [1], .ofList ["N"]⟩),
    ("END", ⟨.finish, [], [], ∅⟩)]
  sound := Option.isNone_iff_eq_none.1 (by decide +kernel)

def orchard : Rules where
  language := {
    grammar := orchardGrammar
    hierarchy := {}
    lexicon := { words := [eat.word, apple.word, ask.word, article.word, lake.word] } }
  config := {}

def asking : Session where
  cursor := ⟨"CONJ", some ask⟩
  pending := ⟨∅, .ofList ["apple"]⟩
  history := ⟨[⟨"CONJ", .conjunction⟩, ⟨"N", .noun⟩, ⟨"STV", .verb⟩, ⟨"S", .start⟩], none⟩
  used := { names := ["eat", "apple"] }
  forms := ["eat", "apple", "or"]

end Sample

namespace Rules

open Pending (Compatible combine)

variable {rules : Rules} {cursor cursor' : Cursor} {code target : String} {part : Part}
variable {pending pending' : Pending} {history history' : History} {used : UsedWords}
variable {stream : RandomStream} {entry : Entry}

theorem nextWord_noun_congr (hp : rules.language.grammar.parts[target]? = some part)
    (hr : part.role = .noun)
    (hrestriction : rules.restriction cursor' history' pending' =
      rules.restriction cursor history pending)
    (hreserve : pending'.reserve = pending.reserve)
    (hlast : history'.lastPreposition = history.lastPreposition)
    (used : UsedWords) (stream : RandomStream) :
    rules.nextWord cursor' target pending' history' used stream =
      rules.nextWord cursor target pending history used stream := by
  rw [nextWord_noun hp hr, nextWord_noun hp hr, pendingAfter_eq_restriction,
    pendingAfter_eq_restriction, hrestriction, hreserve]
  simp only [withoutUsed, hlast]

theorem restriction_of_requirements_empty (hfree : rules.requirements entry = ∅) :
    rules.restriction ⟨code, some entry⟩ history pending =
      if history.inConjunction then combine pending.active pending.reserve
      else pending.active := by
  rw [restriction, due, cursorRequirements, Option.map_some, Option.getD_some, hfree,
    Pending.combine_empty_right]

theorem restriction_behind (hp : rules.language.grammar.parts[code]? = some part)
    (hnoun : part.role ≠ .noun) (hm : part.role.isModifier = false)
    (hc : history.inConjunction = true)
    (hw : (rules.nextWord cursor code pending history used stream).1 = .ok (.word entry))
    (hfree : rules.requirements entry = ∅) :
    rules.restriction ⟨code, some entry⟩ (history.push code part.role)
        (rules.nextWord cursor code pending history used stream).2.1 =
      if part.role = .verb then rules.restriction cursor history pending
      else combine (rules.restriction cursor history pending) pending.reserve := by
  have hfinish : part.role ≠ .finish := role_ne_finish_of_word hp hw
  have hpreposition : part.role ≠ .preposition := by
    intro hr
    rw [hr] at hm
    cases hm
  have hgoes : (history.push code part.role).inConjunction = true ↔ part.role ≠ .verb := by
    rw [History.inConjunction_cons rfl]
    constructor
    · rintro (hr | ⟨_, hverb, _⟩)
      · intro hverb
        cases hverb.symm.trans hr
      · exact hverb
    · intro hverb
      exact .inr ⟨hc, hverb, hpreposition⟩
  rw [nextWord_pending hp hfinish hnoun hm, pendingAfter_eq_restriction,
    restriction_of_requirements_empty hfree]
  by_cases hverb : part.role = .verb
  · rw [if_pos hverb, if_neg fun h => hgoes.1 h hverb]
  · rw [if_neg hverb, if_pos (hgoes.2 hverb)]

/-- While a conjunction is continued, a noun is chosen under the same restriction, and so alike,
behind a further word without requirements that is neither a noun nor a modifier as it is without
this word, if the word is a verb or if what is due is compatible with the reserve. If not, any noun
will do without the word, and behind it the noun is from the reserve. -/
theorem restriction_behind_word (hp : rules.language.grammar.parts[code]? = some part)
    (hnoun : part.role ≠ .noun) (hm : part.role.isModifier = false)
    (hc : history.inConjunction = true)
    (hw : (rules.nextWord cursor code pending history used stream).1 = .ok (.word entry))
    (hfree : rules.requirements entry = ∅) :
    let direct := rules.restriction cursor history pending
    let left := (rules.nextWord cursor code pending history used stream).2.1
    let passed := history.push code part.role
    let behind := rules.restriction ⟨code, some entry⟩ passed left
    (behind = direct ↔
      part.role = .verb ∨ Compatible (rules.due cursor pending) pending.reserve) ∧
    (behind ≠ direct → direct = ∅ ∧ behind = pending.reserve) ∧
    (behind = direct → ∀ target noun, rules.language.grammar.parts[target]? = some noun →
      noun.role = .noun → ∀ used stream,
        rules.nextWord ⟨code, some entry⟩ target left passed used stream =
          rules.nextWord cursor target pending history used stream) := by
  intro direct left passed behind
  have hbehind : behind = if part.role = .verb then direct else combine direct pending.reserve :=
    restriction_behind hp hnoun hm hc hw hfree
  have hdirect : direct = combine (rules.due cursor pending) pending.reserve := if_pos hc
  refine ⟨?same, ?other, ?choice⟩
  case same =>
    by_cases hverb : part.role = .verb
    · rw [hbehind, if_pos hverb]
      exact iff_of_true rfl (.inl hverb)
    · rw [hbehind, if_neg hverb, hdirect, Pending.combine_combine_eq_iff]
      simp [hverb]
  case other =>
    intro hne
    have hverb : part.role ≠ .verb := by
      intro hverb
      rw [if_pos hverb] at hbehind
      exact hne hbehind
    rw [if_neg hverb] at hbehind
    have hnone : direct = ∅ := by
      apply Classical.byContradiction
      intro hsome
      rw [hdirect] at hbehind hsome hne
      exact hne (hbehind.trans (Pending.combine_combine_self hsome))
    rw [hnone, Pending.combine_empty_left] at hbehind
    exact ⟨hnone, hbehind⟩
  case choice =>
    intro hsame target noun htarget hrole used stream
    have hreserve : left.reserve = pending.reserve := reserve_of_ne_noun hp hnoun
    exact nextWord_noun_congr htarget hrole hsame hreserve rfl used stream

theorem restriction_behind_word_lake :
    (Sample.orchard.nextWord Sample.asking.cursor "SART" ⟨∅, .ofList ["apple", "lake"]⟩
      Sample.asking.history Sample.asking.used (.ofSeed 0)).1 = .ok (.word Sample.article) ∧
    Sample.orchard.restriction ⟨"SART", some Sample.article⟩
        (Sample.asking.history.push "SART" .singularArticle)
        (Sample.orchard.nextWord Sample.asking.cursor "SART" ⟨∅, .ofList ["apple", "lake"]⟩
          Sample.asking.history Sample.asking.used (.ofSeed 0)).2.1 =
      .ofList ["lake"] := by
  have hp : Sample.orchard.language.grammar.parts["SART"]? =
      some ⟨.singularArticle, ["NN"], [1], .ofList ["SART"]⟩ := rfl
  have hw : (Sample.orchard.nextWord Sample.asking.cursor "SART" ⟨∅, .ofList ["apple", "lake"]⟩
      Sample.asking.history Sample.asking.used (.ofSeed 0)).1 = .ok (.word Sample.article) :=
    eq_ok_of_toOption (by decide +kernel)
  obtain ⟨hsame, _, _⟩ := restriction_behind_word hp (by decide) rfl (by decide +kernel) hw
    (by decide +kernel)
  have hlake := hsame.2 (.inr (by decide +kernel))
  exact ⟨hw, hlake.trans (by decide +kernel)⟩

/-- Behind "eat apple or" any noun will do, but behind "eat apple or the" only an apple, although
the article requires nothing, so that the apple is repeated. -/
theorem cancelled_reserve_returns :
    let chosen := Sample.orchard.nextWord Sample.asking.cursor "SART" Sample.asking.pending
      Sample.asking.history Sample.asking.used (.ofSeed 0)
    Sample.asking.history.inConjunction = true ∧
    Sample.orchard.language.grammar.role "SART" = .ok .singularArticle ∧
    chosen.1 = .ok (.word Sample.article) ∧ Sample.orchard.requirements Sample.article = ∅ ∧
    Sample.orchard.restriction Sample.asking.cursor Sample.asking.history Sample.asking.pending =
      ∅ ∧
    Sample.orchard.restriction ⟨"SART", some Sample.article⟩
        (Sample.asking.history.push "SART" .singularArticle) chosen.2.1 = .ofList ["apple"] ∧
    (Session.ofStart "S").placements Sample.orchard 7 (.ofSeed 3) =
      [⟨Sample.eat, "STV", "eat"⟩, ⟨Sample.apple, "N", "apple"⟩, ⟨Sample.ask, "CONJ", "or"⟩,
        ⟨Sample.lake, "NN", "lake"⟩] ∧
    (Session.ofStart "S").placements Sample.orchard 7 (.ofSeed 0) =
      [⟨Sample.eat, "STV", "eat"⟩, ⟨Sample.apple, "N", "apple"⟩, ⟨Sample.ask, "CONJ", "or"⟩,
        ⟨Sample.article, "SART", "the"⟩, ⟨Sample.apple, "NN", "apple"⟩] :=
  ⟨by decide +kernel, rfl, eq_ok_of_toOption (by decide +kernel), by decide +kernel,
    by decide +kernel, by decide +kernel, by decide +kernel, by decide +kernel⟩

end Rules

end SentenceWalk
