import SentenceWalk.Proofs.RequirementMatch

namespace SentenceWalk

/-! A language of one phrase, "hear bell or loud horn", in which nothing is required of "bell". -/

namespace Sample

def hear : Entry := ⟨0, { name := "hear", tag := "STV" }⟩

def bell : Entry := ⟨1, { name := "bell", tag := "N" }⟩

def either : Entry := ⟨2, { name := "or", tag := "CONJ" }⟩

def loud : Entry := ⟨3, { name := "loud", tag := "ADJ", nextWords := ["horn"] }⟩

def horn : Entry := ⟨4, { name := "horn", tag := "MN" }⟩

def adjective : Part := ⟨.adjective, ["MN"], [1], .ofList ["ADJ"]⟩

def noiseGrammar : Grammar where
  parts := .ofList [
    ("S", (⟨.start, ["STV"], [1], ∅⟩ : Part)),
    ("STV", ⟨.verb, ["N"], [1], .ofList ["STV"]⟩),
    ("N", ⟨.noun, ["CONJ"], [1], .ofList ["N"]⟩),
    ("CONJ", ⟨.conjunction, ["ADJ"], [1], .ofList ["CONJ"]⟩),
    ("ADJ", adjective),
    ("MN", ⟨.noun, ["END"], [1], .ofList ["MN"]⟩),
    ("END", ⟨.finish, [], [], ∅⟩)]
  sound := Option.isNone_iff_eq_none.1 (by decide +kernel)

def noise : Rules where
  language := {
    grammar := noiseGrammar
    hierarchy := {}
    lexicon := { words := [hear.word, bell.word, either.word, loud.word, horn.word] } }
  config := {}

def hasty : Rules :=
  { noise with config := { matchRetryLimit := 2 } }

def noisy : History where
  visits := [⟨"CONJ", .conjunction⟩, ⟨"N", .noun⟩, ⟨"STV", .verb⟩, ⟨"S", .start⟩]

end Sample

namespace Rules

variable {rules : Rules} {cursor : Cursor} {target : String} {part : Part}
variable {pending : Pending} {history : History} {used : UsedWords} {stream : RandomStream}
variable {pool : List Entry} {entry : Entry} {role : Role}

theorem agrees_empty_iff : rules.Agrees {} entry ↔ entry.word.hasRequirements = false := by
  constructor
  · rintro (hfree | hoverlap)
    · exact hfree
    · exact absurd (Std.ExtTreeSet.ext_mem (by simp)) hoverlap
  · exact .inl

theorem matchRequirements_empty (hp : pool ≠ []) (target : String) (stream : RandomStream) :
    (rules.matchRequirements target pool {} stream).1 =
      (match (stream.draws pool rules.config.matchRetryLimit).find?
          fun entry => !entry.word.hasRequirements with
        | some entry => .ok entry
        | none => .error (.exhaustedRetries target rules.config.matchRetryLimit)) ∧
    (rules.matchRequirements target pool {} stream).2.1 = {} := by
  have hagrees : (fun entry => decide (rules.Agrees {} entry)) =
      fun entry : Entry => !entry.word.hasRequirements := by
    funext entry
    rw [Bool.eq_iff_iff, decide_eq_true_iff, agrees_empty_iff, Bool.not_eq_true']
  have hmatch := rules.matchWithin_eq hp target {} rules.config.matchRetryLimit stream
  rw [hagrees] at hmatch
  rw [matchRequirements, if_neg (by simpa using hp)]
  cases hfound : (stream.draws pool rules.config.matchRetryLimit).find?
    fun entry => !entry.word.hasRequirements with
  | none =>
    rw [hfound] at hmatch
    exact Prod.ext_iff.1 hmatch
  | some entry =>
    have hfree : entry.word.hasRequirements = false := by simpa using List.find?_some hfound
    rw [hfound] at hmatch
    dsimp only at hmatch
    rw [apply_of_not_hasRequirements hfree] at hmatch
    exact Prod.ext_iff.1 hmatch

theorem pick_continued (hr : role.isModifier = true) (hc : history.inConjunction = true) :
    rules.pick target role pool history {} stream =
      rules.matchRequirements target pool {} stream := by
  rw [pick, hr, hc, Bool.or_true, Bool.and_self, if_pos rfl]

theorem pick_unrestricted (hp : pool ≠ []) (hc : history.inConjunction = false) (target : String)
    (role : Role) (stream : RandomStream) :
    ∃ entry ∈ pool, (rules.pick target role pool history {} stream).1 = .ok entry ∧
      (rules.pick target role pool history {} stream).2.1 = {} := by
  have hconstrained : Pending.isConstrained {} = false := rfl
  rw [pick, hconstrained, hc, Bool.or_false, Bool.and_false, if_neg (by simp)]
  rcases hdraw : stream.choose pool with ⟨_ | entry, rest⟩
  · exact absurd (RandomStream.choose_eq_none_iff.1 (congrArg Prod.fst hdraw)) hp
  · exact ⟨entry, RandomStream.mem_of_choose (congrArg Prod.fst hdraw), rfl, rfl⟩

/-- Where neither a requirement nor a reserve is left, a modifier is found whenever any word is
left, unless a conjunction is being continued. There it is found only if a word without requirements
comes up while draws are left. -/
theorem modifier_where_nothing_is_pending
    (hp : rules.language.grammar.parts[target]? = some part) (hr : part.role.isModifier = true)
    (hnone : rules.pendingAfter cursor history pending = {})
    (hpool : withoutUsed (rules.language.lexicon.withTags part.vocabulary) used history ≠ [])
    (stream : RandomStream) :
    let pool := withoutUsed (rules.language.lexicon.withTags part.vocabulary) used history
    let chosen := rules.nextWord cursor target pending history used stream
    (history.inConjunction = false → ∃ entry ∈ pool, chosen.1 = .ok (.word entry)) ∧
    (history.inConjunction = true →
      chosen.1 =
        match (stream.draws pool rules.config.matchRetryLimit).find?
            fun entry => !entry.word.hasRequirements with
        | some entry => .ok (.word entry)
        | none => .error (.exhaustedRetries target rules.config.matchRetryLimit)) ∧
    chosen.2.1 = {} := by
  rw [nextWord_of_ne_noun hp (Role.ne_finish_of_isModifier hr) (Role.ne_noun_of_isModifier hr),
    hnone]
  generalize withoutUsed (rules.language.lexicon.withTags part.vocabulary) used history = pool
    at hpool ⊢
  dsimp only
  by_cases hc : history.inConjunction = true
  · obtain ⟨hmatch, hpending⟩ := rules.matchRequirements_empty hpool target stream
    rw [pick_continued hr hc]
    refine ⟨fun h => absurd hc (by simp [h]), fun _ => ?_, hpending⟩
    rw [hmatch]
    split <;> rfl
  · have hfree : history.inConjunction = false := by simpa using hc
    obtain ⟨entry, hmem, hok, hpending⟩ :=
      rules.pick_unrestricted hpool hfree target part.role stream
    refine ⟨fun _ => ⟨entry, hmem, ?_⟩, fun h => absurd h hc, hpending⟩
    rw [hok]
    rfl

theorem modifier_where_nothing_is_pending_loud :
    (∃ entry, (Sample.noise.nextWord ⟨"N", some Sample.bell⟩ "ADJ" {} {} {} (.ofSeed 0)).1 =
      .ok (.word entry)) ∧
    (Sample.hasty.nextWord ⟨"CONJ", some Sample.either⟩ "ADJ" {} Sample.noisy {} (.ofSeed 0)).1 =
      .error (.exhaustedRetries "ADJ" 2) := by
  have hp : Sample.noise.language.grammar.parts["ADJ"]? = some Sample.adjective := rfl
  have hp' : Sample.hasty.language.grammar.parts["ADJ"]? = some Sample.adjective := rfl
  have hnone : Sample.noise.pendingAfter ⟨"N", some Sample.bell⟩ {} {} = {} := by decide +kernel
  have hnone' : Sample.hasty.pendingAfter ⟨"CONJ", some Sample.either⟩ Sample.noisy {} = {} := by
    decide +kernel
  have hpool : withoutUsed (Sample.noise.language.lexicon.withTags Sample.adjective.vocabulary) {}
      {} ≠ [] := by decide +kernel
  have hpool' : withoutUsed (Sample.hasty.language.lexicon.withTags Sample.adjective.vocabulary) {}
      Sample.noisy ≠ [] := by decide +kernel
  obtain ⟨hfree, _, _⟩ := modifier_where_nothing_is_pending hp rfl hnone hpool (.ofSeed 0)
  obtain ⟨_, hcontinued, _⟩ := modifier_where_nothing_is_pending hp' rfl hnone' hpool' (.ofSeed 0)
  obtain ⟨entry, _, hok⟩ := hfree rfl
  have hdraws : ((RandomStream.ofSeed 0).draws
      (withoutUsed (Sample.hasty.language.lexicon.withTags Sample.adjective.vocabulary) {}
        Sample.noisy) Sample.hasty.config.matchRetryLimit).find?
          (fun entry => !entry.word.hasRequirements) = none := by decide +kernel
  have hgiven := hcontinued rfl
  rw [hdraws] at hgiven
  exact ⟨⟨entry, hok⟩, hgiven⟩

/-- Behind "hear bell or" nothing is pending, yet "loud", the only adjective there is, is rejected
for what it requires as often as it is drawn, whatever is drawn. -/
theorem modifier_conflicts_with_nothing :
    Sample.adjective.role.isModifier = true ∧ 1 ≤ Sample.noise.config.matchRetryLimit ∧
    (Session.ofStart "S").placements Sample.noise 3 (.ofSeed 0) =
      [⟨Sample.hear, "STV", "hear"⟩, ⟨Sample.bell, "N", "bell"⟩, ⟨Sample.either, "CONJ", "or"⟩] ∧
    Sample.noisy.inConjunction = true ∧
    Sample.noise.pendingAfter ⟨"CONJ", some Sample.either⟩ Sample.noisy {} = {} ∧
    withoutUsed (Sample.noise.language.lexicon.withTags Sample.adjective.vocabulary)
      { names := ["hear", "bell"] } Sample.noisy = [Sample.loud] ∧
    ∀ stream, (Sample.noise.nextWord ⟨"CONJ", some Sample.either⟩ "ADJ" {} Sample.noisy
      { names := ["hear", "bell"] } stream).1 = .error (.exhaustedRetries "ADJ" 100) := by
  have hp : Sample.noise.language.grammar.parts["ADJ"]? = some Sample.adjective := rfl
  have hnone : Sample.noise.pendingAfter ⟨"CONJ", some Sample.either⟩ Sample.noisy {} = {} := by
    decide +kernel
  have hpool : withoutUsed (Sample.noise.language.lexicon.withTags Sample.adjective.vocabulary)
      { names := ["hear", "bell"] } Sample.noisy = [Sample.loud] := by decide +kernel
  refine ⟨rfl, by decide, by decide +kernel, rfl, hnone, hpool, ?_⟩
  intro stream
  have hconflict : ∀ entry ∈ [Sample.loud],
      ¬ Sample.noise.Agrees (Pending.seedFromReserve {}) entry := by decide +kernel
  rw [nextWord_of_ne_noun hp (by decide) (by decide), hnone, hpool]
  dsimp only
  rw [pick_continued rfl rfl]
  exact congrArg (Except.map NextWord.word) (matchRequirements_exhausted (by simp) hconflict)

end Rules

end SentenceWalk
