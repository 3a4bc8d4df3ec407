import SentenceWalk.Proofs.WordDraw

namespace SentenceWalk.Rules

open Pending (Compatible)

variable {rules : Rules} {cursor : Cursor} {target : String} {part : Part} {names : NameSet}
variable {pending : Pending} {history : History} {used : UsedWords} {stream : RandomStream}
variable {entry : Entry}

def meeting (rules : Rules) (part : Part) (names : NameSet) : List Entry :=
  (rules.language.lexicon.withTags part.vocabulary).filter fun entry =>
    names.isEmpty || names.contains entry.name

theorem meeting_empty : rules.meeting part ∅ = rules.language.lexicon.withTags part.vocabulary := by
  simp [meeting]

theorem name_of_mem_meeting (h : entry ∈ rules.meeting part names) (hn : names ≠ ∅) :
    entry.name ∈ names := by
  have hname := (List.mem_filter.1 h).2
  rw [Bool.or_eq_true, Std.ExtTreeSet.isEmpty_iff] at hname
  rcases hname with hname | hname
  · exact absurd hname hn
  · exact Std.ExtTreeSet.contains_iff_mem.1 hname

theorem offer_noun (hr : part.role = .noun) :
    rules.offer part pending =
      (rules.meeting part pending.active,
        if pending.isConstrained then pending.consume else pending) := by
  by_cases ha : pending.active = ∅
  · have hc : pending.isConstrained = false := by simp [Pending.isConstrained, ha]
    rw [offer, hc, Bool.and_false, ha, meeting_empty]
    rfl
  · have hc : pending.isConstrained = true := Pending.isConstrained_iff.2 ha
    have hempty : pending.active.isEmpty = false := by simpa using ha
    rw [offer, meeting, hr, hc, hempty]
    rfl

theorem nextWord_noun (hp : rules.language.grammar.parts[target]? = some part)
    (hr : part.role = .noun) :
    rules.nextWord cursor target pending history used stream =
      let pending := rules.pendingAfter cursor history pending
      let drawn := stream.choose (withoutUsed (rules.meeting part pending.active) used history)
      (match drawn.1 with
        | some entry => .ok (.word entry)
        | none => .error (.poolExhausted target),
        if pending.isConstrained then pending.consume else pending, drawn.2) := by
  rw [nextWord_eq_pick hp (by simp [hr]), offer_noun hr]
  dsimp only
  rw [pick, hr, if_neg (by simp [Role.isModifier])]
  rcases stream.choose _ with ⟨_ | entry, rest⟩ <;> rfl

theorem name_of_noun (hp : rules.language.grammar.parts[target]? = some part)
    (hr : part.role = .noun)
    (hw : (rules.nextWord cursor target pending history used stream).1 = .ok (.word entry))
    (ha : (rules.pendingAfter cursor history pending).active ≠ ∅) :
    entry.name ∈ (rules.pendingAfter cursor history pending).active := by
  rw [nextWord_noun hp hr] at hw
  dsimp only at hw
  split at hw
  · rename_i hdraw
    cases hw
    exact name_of_mem_meeting (mem_of_mem_withoutUsed (RandomStream.mem_of_choose hdraw)) ha
  · cases hw

theorem active_pendingAfter (rules : Rules) (cursor : Cursor) (history : History)
    (pending : Pending) :
    (rules.pendingAfter cursor history pending).active =
      if history.inConjunction then Pending.combine (rules.due cursor pending) pending.reserve
      else rules.due cursor pending := by
  rw [pendingAfter_eq]
  split <;> rfl

theorem noun_meets_due (hp : rules.language.grammar.parts[target]? = some part)
    (hr : part.role = .noun)
    (hw : (rules.nextWord cursor target pending history used stream).1 = .ok (.word entry))
    (hc : history.inConjunction = true → Compatible (rules.due cursor pending) pending.reserve) :
    (rules.due cursor pending ≠ ∅ → entry.name ∈ rules.due cursor pending) ∧
      (history.inConjunction = true → pending.reserve ≠ ∅ → entry.name ∈ pending.reserve) := by
  have hname := name_of_noun hp hr hw
  rw [active_pendingAfter] at hname
  by_cases h : history.inConjunction = true
  · rw [if_pos h] at hname
    obtain ⟨hdue, hreserve⟩ := (hc h).of_mem_combine hname
    exact ⟨hdue, fun _ => hreserve⟩
  · rw [if_neg h] at hname
    exact ⟨hname, fun hconjoined => absurd hconjoined h⟩

theorem withoutUsed_nil : withoutUsed [] used history = [] := by
  apply List.eq_nil_iff_forall_not_mem.2
  intro entry hmem
  exact List.not_mem_nil (mem_of_mem_withoutUsed hmem)

theorem meeting_eq_nil (hn : names ≠ ∅)
    (h : ∀ entry ∈ rules.language.lexicon.withTags part.vocabulary, entry.name ∉ names) :
    rules.meeting part names = [] := by
  apply List.eq_nil_iff_forall_not_mem.2
  intro entry hmem
  exact h entry (List.mem_filter.1 hmem).1 (name_of_mem_meeting hmem hn)

/-- A noun meets what has been pending and the requirement of the word at the cursor, unless these
conflict with each other or with what a conjunction takes up, and it meets what a conjunction takes
up, unless this conflicts with the others. The noun is drawn from those that meet what the
requirements come to, less those that have been used. If there are none, the choice fails. -/
theorem noun_meets_compatible (hp : rules.language.grammar.parts[target]? = some part)
    (hr : part.role = .noun) (cursor : Cursor) (pending : Pending) (history : History)
    (used : UsedWords) (stream : RandomStream) :
    let nouns := rules.language.lexicon.withTags part.vocabulary
    let merged := (rules.pendingAfter cursor history pending).active
    let left := withoutUsed (rules.meeting part merged) used history
    let chosen := (rules.nextWord cursor target pending history used stream).1
    (∀ entry, chosen = .ok (.word entry) →
      (Compatible pending.active (rules.cursorRequirements cursor) →
        (history.inConjunction = true → Compatible (rules.due cursor pending) pending.reserve) →
          (pending.active ≠ ∅ → entry.name ∈ pending.active) ∧
          (rules.cursorRequirements cursor ≠ ∅ → entry.name ∈ rules.cursorRequirements cursor)) ∧
      (history.inConjunction = true → Compatible (rules.due cursor pending) pending.reserve →
        pending.reserve ≠ ∅ → entry.name ∈ pending.reserve)) ∧
    (∀ entry, chosen = .ok (.word entry) ↔ (stream.choose left).1 = some entry) ∧
    (chosen = .error (.poolExhausted target) ↔ left = []) ∧
    (merged = ∅ → left = withoutUsed nouns used history) ∧
    (merged ≠ ∅ → (∀ entry ∈ left, entry.name ∈ merged) ∧
      ((∀ entry ∈ nouns, entry.name ∉ merged) → left = [])) := by
  intro nouns merged left chosen
  have hchosen : chosen = match (stream.choose left).1 with
      | some entry => .ok (.word entry)
      | none => .error (.poolExhausted target) := by
    simp only [chosen, nextWord_noun hp hr]
    rfl
  refine ⟨?_, ?_, ?_, ?_, ?_⟩
  · intro entry hw
    constructor
    · intro hown hreserve
      exact hown.of_mem_combine (noun_meets_due hp hr hw hreserve).1
    · intro hc hreserve
      exact (noun_meets_due hp hr hw fun _ => hreserve).2 hc
  · intro entry
    rw [hchosen]
    cases (stream.choose left).1 <;> simp
  · have hnone : (stream.choose left).1 = none ↔ left = [] := RandomStream.choose_eq_none_iff
    rw [hchosen, ← hnone]
    cases (stream.choose left).1 <;> simp
  · intro hm
    simp only [left, hm, meeting_empty]
    rfl
  · intro hm
    constructor
    · intro entry hleft
      exact name_of_mem_meeting (mem_of_mem_withoutUsed hleft) hm
    · intro hnone
      simp only [left, merged, meeting_eq_nil hm hnone]
      exact withoutUsed_nil

theorem noun_meets_compatible_town :
    (Sample.rules.nextWord ⟨"ADJ", some Sample.old⟩ "N" ⟨.ofList ["town", "hill"], .ofList ["town"]⟩
      ⟨[⟨"CONJ", .conjunction⟩], none⟩ {} (.ofSeed 0)).1 = .ok (.word Sample.town) ∧
    "town" ∈ NameSet.ofList ["town", "hill"] ∧ "town" ∈ Sample.rules.requirements Sample.old ∧
    "town" ∈ NameSet.ofList ["town"] := by
  have hp : Sample.rules.language.grammar.parts["N"]? = some Sample.noun := rfl
  have hw : (Sample.rules.nextWord ⟨"ADJ", some Sample.old⟩ "N"
      ⟨.ofList ["town", "hill"], .ofList ["town"]⟩ ⟨[⟨"CONJ", .conjunction⟩], none⟩ {}
      (.ofSeed 0)).1 = .ok (.word Sample.town) := eq_ok_of_toOption (by decide +kernel)
  obtain ⟨hown, hreserve⟩ := (noun_meets_compatible hp rfl _ _ _ _ _).1 _ hw
  obtain ⟨hactive, hrequired⟩ := hown (by decide +kernel) (by decide +kernel)
  refine ⟨hw, hactive (by decide +kernel), hrequired (by decide +kernel), ?_⟩
  exact hreserve (by decide +kernel) (by decide +kernel) (by decide +kernel)

/-- Requirements that conflict let a noun through that meets none of them, where a choice might be
expected to fail. -/
theorem conflicting_requirements_cancel :
    Sample.rules.language.grammar.parts["N"]? = some Sample.noun ∧ Sample.noun.role = .noun ∧
    (Sample.rules.nextWord ⟨"P", some Sample.into⟩ "N" { active := .ofList ["lake"] } {} {}
      (.ofSeed 0)).1 = .ok (.word Sample.lake) ∧
    Sample.rules.requirements Sample.into ≠ ∅ ∧
    Sample.lake.name ∉ Sample.rules.requirements Sample.into :=
  ⟨rfl, rfl, eq_ok_of_toOption (by decide +kernel), by decide +kernel, by decide +kernel⟩

end SentenceWalk.Rules
