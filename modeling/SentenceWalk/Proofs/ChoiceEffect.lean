import SentenceWalk.Proofs.RequirementMatch
import SentenceWalk.Proofs.WordReuse

namespace SentenceWalk

namespace Pending

variable {pending : Pending}

/-- What is left is part of what was pending or, if nothing was, of the reserve, and something is
left of what was pending. -/
structure Narrows (pending left : Pending) : Prop where
  within : ∀ name ∈ left.active,
    name ∈ if pending.active = ∅ then pending.reserve else pending.active
  remains : pending.active ≠ ∅ → left.active ≠ ∅

theorem narrows_self (pending : Pending) : pending.Narrows pending where
  within := by
    intro name hmem
    by_cases ha : pending.active = ∅
    · rw [ha] at hmem
      exact absurd hmem Std.ExtTreeSet.not_mem_empty
    · rw [if_neg ha]
      exact hmem
  remains := id

theorem narrows_seedFromReserve (pending : Pending) : pending.Narrows pending.seedFromReserve where
  within := by
    intro name hmem
    rw [active_seedFromReserve] at hmem
    exact hmem
  remains := by
    intro ha
    rw [active_seedFromReserve, if_neg ha]
    exact ha

end Pending

namespace Rules

variable {rules : Rules} {cursor : Cursor} {target : String} {part : Part} {entry : Entry}
variable {pending : Pending}

/-- The names from which a noun would be chosen behind the cursor, or none if it may be any noun. -/
def restriction (rules : Rules) (cursor : Cursor) (history : History) (pending : Pending) :
    NameSet :=
  if history.inConjunction then Pending.combine (rules.due cursor pending) pending.reserve
  else rules.due cursor pending

theorem pendingAfter_eq_restriction (rules : Rules) (cursor : Cursor) (history : History)
    (pending : Pending) :
    rules.pendingAfter cursor history pending =
      ⟨rules.restriction cursor history pending, pending.reserve⟩ := by
  have hactive := rules.active_pendingAfter cursor history pending
  have hreserve := rules.reserve_pendingAfter cursor history pending
  generalize rules.pendingAfter cursor history pending = left at hactive hreserve ⊢
  obtain ⟨active, reserve⟩ := left
  rw [Pending.mk.injEq]
  exact ⟨hactive, hreserve⟩

theorem Agrees.narrows (h : rules.Agrees pending.seedFromReserve entry) :
    pending.Narrows (pending.seedFromReserve.apply (rules.requirements entry)) where
  within := by
    intro name hmem
    apply pending.narrows_seedFromReserve.within
    rcases h.active_apply with ⟨_, hsame⟩ | ⟨hnarrowed, _⟩
    · rw [hsame] at hmem
      exact hmem
    · rw [hnarrowed] at hmem
      exact (Std.ExtTreeSet.mem_inter_iff.1 hmem).1
  remains := by
    intro ha
    exact h.active_ne_empty (pending.narrows_seedFromReserve.remains ha)

theorem matchRequirements_narrows (target : String) (pool : List Entry) (pending : Pending)
    (stream : RandomStream) :
    pending.Narrows (rules.matchRequirements target pool pending stream).2.1 := by
  by_cases hp : pool = []
  · subst hp
    exact pending.narrows_self
  · rcases rules.matchRequirements_cases hp target pending stream with
      ⟨_, hpending⟩ | ⟨entry, _, hagrees, _, hpending⟩
    · rw [hpending]
      exact pending.narrows_seedFromReserve
    · rw [hpending]
      exact hagrees.narrows

theorem pick_narrows (target : String) (role : Role) (pool : List Entry) (history : History)
    (pending : Pending) (stream : RandomStream) :
    pending.Narrows (rules.pick target role pool history pending stream).2.1 := by
  rw [pick]
  split
  · exact matchRequirements_narrows target pool pending stream
  · split
    · exact pending.narrows_self
    · exact pending.narrows_self

theorem nextWord_narrows (hp : rules.language.grammar.parts[target]? = some part)
    (hm : part.role.isModifier = true) (cursor : Cursor) (pending : Pending) (history : History)
    (used : UsedWords) (stream : RandomStream) :
    (rules.pendingAfter cursor history pending).Narrows
      (rules.nextWord cursor target pending history used stream).2.1 := by
  rw [nextWord_of_ne_noun hp (Role.ne_finish_of_isModifier hm) (Role.ne_noun_of_isModifier hm)]
  exact pick_narrows target part.role _ history _ stream

/-- A choice that fails changes what is pending like one that succeeds. The end changes nothing, not
even the stream. A noun leaves nothing pending and, if there is a restriction, meets it and puts it
in reserve; nothing else changes the reserve. A modifier narrows the restriction, or the reserve if
there is none, but never to nothing, and all other words leave the restriction as it is. -/
theorem pending_behind_choice (hp : rules.language.grammar.parts[target]? = some part)
    (cursor : Cursor) (pending : Pending) (history : History) (used : UsedWords)
    (stream : RandomStream) :
    let restriction := rules.restriction cursor history pending
    let chosen := rules.nextWord cursor target pending history used stream
    let left := chosen.2.1
    (part.role = .finish → chosen = (.ok .finish, pending, stream)) ∧
    (part.role = .noun → left.active = ∅ ∧
      (restriction ≠ ∅ → left.reserve = restriction ∧
        ∀ entry, chosen.1 = .ok (.word entry) → entry.name ∈ restriction)) ∧
    (part.role ≠ .noun ∨ restriction = ∅ → left.reserve = pending.reserve) ∧
    (part.role ≠ .finish → part.role ≠ .noun → part.role.isModifier = false →
      left.active = restriction) ∧
    (part.role.isModifier = true →
      (∀ name ∈ left.active, name ∈ if restriction = ∅ then pending.reserve else restriction) ∧
        (restriction ≠ ∅ → left.active ≠ ∅)) := by
  intro restriction chosen left
  have hfound : rules.pendingAfter cursor history pending = ⟨restriction, pending.reserve⟩ :=
    rules.pendingAfter_eq_restriction cursor history pending
  have hnoun (hr : part.role = .noun) :
      left = ⟨∅, if restriction = ∅ then pending.reserve else restriction⟩ := by
    have hleft : left = _ := pending_noun hp hr
    rw [hfound] at hleft
    exact hleft
  refine ⟨fun hf => nextWord_terminal hp hf, ?noun, ?reserve, ?other, ?modifier⟩
  case noun =>
    intro hr
    rw [hnoun hr]
    refine ⟨rfl, fun hne => ⟨if_neg hne, ?_⟩⟩
    intro entry hw
    have hname := name_of_noun hp hr hw
    rw [hfound] at hname
    exact hname hne
  case reserve =>
    rintro (hr | hnone)
    · exact reserve_of_ne_noun hp hr
    · by_cases hr : part.role = .noun
      · rw [hnoun hr]
        exact if_pos hnone
      · exact reserve_of_ne_noun hp hr
  case other =>
    intro hf hr hm
    have hleft : left = _ := nextWord_pending hp hf hr hm cursor pending history used stream
    rw [hleft, hfound]
  case modifier =>
    intro hm
    have hnarrows : Pending.Narrows _ left :=
      nextWord_narrows hp hm cursor pending history used stream
    rw [hfound] at hnarrows
    exact ⟨hnarrows.within, hnarrows.remains⟩

/-- Behind "enjoy long" only a swim would do, which is no noun. The choice of a noun fails and
leaves the restriction to "swim" in reserve. -/
theorem pending_behind_choice_swim :
    (Sample.holiday.nextWord ⟨"STV", some Sample.enjoy⟩ "ADJ" {} {} {} (.ofSeed 0)).2.1.active ≠ ∅ ∧
    (Sample.holiday.nextWord ⟨"ADJ", some Sample.long⟩ "N" {} {} {} (.ofSeed 0)).1 =
      .error (.poolExhausted "N") ∧
    (Sample.holiday.nextWord ⟨"ADJ", some Sample.long⟩ "N" {} {} {} (.ofSeed 0)).2.1.reserve =
      Sample.holiday.requirements Sample.long := by
  have hadjective : Sample.holiday.language.grammar.parts["ADJ"]? =
      some ⟨.adjective, ["N"], [1], .ofList ["ADJ"]⟩ := rfl
  have hnoun : Sample.holiday.language.grammar.parts["N"]? =
      some ⟨.noun, ["END"], [1], .ofList ["N"]⟩ := rfl
  obtain ⟨_, _, _, _, hmodifier⟩ :=
    pending_behind_choice hadjective ⟨"STV", some Sample.enjoy⟩ {} {} {} (.ofSeed 0)
  obtain ⟨_, hspent, _, _, _⟩ :=
    pending_behind_choice hnoun ⟨"ADJ", some Sample.long⟩ {} {} {} (.ofSeed 0)
  obtain ⟨_, hrestricted⟩ := hspent rfl
  obtain ⟨hreserve, _⟩ := hrestricted (by decide +kernel)
  obtain ⟨_, hremains⟩ := hmodifier rfl
  refine ⟨hremains (by decide +kernel), ?_, hreserve.trans (by decide +kernel)⟩
  exact (nextWord_poolExhausted_iff hnoun (by decide)).2 (by decide +kernel)

end Rules

end SentenceWalk
