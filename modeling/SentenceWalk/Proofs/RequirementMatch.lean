import SentenceWalk.Proofs.Reserve

namespace SentenceWalk

def Language.IsNoun (language : Language) (name : String) : Prop :=
  ∃ (code : String) (part : Part), language.grammar.parts[code]? = some part ∧ part.role = .noun ∧
    ∃ entry ∈ language.lexicon.withTags part.vocabulary, entry.name = name

theorem Language.isNoun_iff {language : Language} {name : String} :
    language.IsNoun name ↔ ∃ item ∈ language.grammar.parts.toList, item.2.role = .noun ∧
      ∃ entry ∈ language.lexicon.withTags item.2.vocabulary, entry.name = name := by
  constructor
  · rintro ⟨code, part, hp, hr, hentry⟩
    exact ⟨(code, part), Std.ExtTreeMap.mem_toList_iff_getElem?_eq_some.2 hp, hr, hentry⟩
  · rintro ⟨⟨code, part⟩, hmem, hr, hentry⟩
    exact ⟨code, part, Std.ExtTreeMap.mem_toList_iff_getElem?_eq_some.1 hmem, hr, hentry⟩

instance (language : Language) : DecidablePred language.IsNoun := fun _ =>
  decidable_of_iff _ Language.isNoun_iff.symm

/-! A language of the phrases "enjoy blue bay" and "enjoy swim". Nothing but a swim is long. -/

namespace Sample

def enjoy : Entry := ⟨0, { name := "enjoy", tag := "STV", nextWords := ["bay", "swim"] }⟩

def long : Entry := ⟨1, { name := "long", tag := "ADJ", nextWords := ["swim"] }⟩

def blue : Entry := ⟨2, { name := "blue", tag := "ADJ", nextWords := ["bay"] }⟩

def bay : Entry := ⟨3, { name := "bay", tag := "N" }⟩

def swim : Entry := ⟨4, { name := "swim", tag := "IV" }⟩

def holidayGrammar : Grammar where
  parts := .ofList [
    ("S", (⟨.start, ["STV"], [1], ∅⟩ : Part)),
    ("STV", ⟨.verb, ["ADJ", "IV"], [1, 1], .ofList ["STV"]⟩),
    ("ADJ", ⟨.adjective, ["N"], [1], .ofList ["ADJ"]⟩),
    ("N", ⟨.noun, ["END"], [1], .ofList ["N"]⟩),
    ("IV", ⟨.verb, ["END"], [1], .ofList ["IV"]⟩),
    ("END", ⟨.finish, [], [], ∅⟩)]
  sound := Option.isNone_iff_eq_none.1 (by decide +kernel)

def holiday : Rules where
  language := {
    grammar := holidayGrammar
    hierarchy := {}
    lexicon := { words := [enjoy.word, long.word, blue.word, bay.word, swim.word] } }
  config := {}

end Sample

namespace Rules

variable {rules : Rules} {target : String} {pool : List Entry} {entry : Entry}
variable {pending : Pending} {stream : RandomStream}

theorem Agrees.active_apply (h : rules.Agrees pending entry) :
    (entry.word.hasRequirements = false ∧
      (pending.apply (rules.requirements entry)).active = pending.active) ∨
    ((pending.apply (rules.requirements entry)).active =
        pending.active ∩ rules.requirements entry ∧
      (pending.apply (rules.requirements entry)).active ≠ ∅) := by
  rcases h with hfree | hoverlap
  · left
    rw [apply_of_not_hasRequirements hfree]
    exact ⟨hfree, rfl⟩
  · right
    rw [apply_of_overlap hoverlap]
    exact ⟨rfl, hoverlap⟩

theorem Agrees.apply_apply (h : rules.Agrees pending entry) :
    (pending.apply (rules.requirements entry)).apply (rules.requirements entry) =
      pending.apply (rules.requirements entry) := by
  rcases h with hfree | hoverlap
  · rw [apply_of_not_hasRequirements hfree, apply_of_not_hasRequirements hfree]
  · have hne : Pending.combine pending.active (rules.requirements entry) ≠ ∅ := by
      rw [Pending.combine_of_inter_ne_empty hoverlap]
      exact hoverlap
    rw [Pending.apply, Pending.apply, Pending.combine_combine_self hne]

theorem matchRequirements_ok
    (hok : (rules.matchRequirements target pool pending stream).1 = .ok entry) :
    entry ∈ pool ∧ rules.Agrees pending.seedFromReserve entry ∧
      (rules.matchRequirements target pool pending stream).2.1 =
        pending.seedFromReserve.apply (rules.requirements entry) := by
  by_cases hp : pool = []
  · subst hp
    cases hok
  · rcases rules.matchRequirements_cases hp target pending stream with
      ⟨he, _⟩ | ⟨chosen, hmem, hagrees, he, hpending⟩
    · cases hok.symm.trans he
    · cases hok.symm.trans he
      exact ⟨hmem, hagrees, hpending⟩

theorem matchRequirements_exhausted (hp : pool ≠ [])
    (hconflict : ∀ entry ∈ pool, ¬ rules.Agrees pending.seedFromReserve entry) :
    (rules.matchRequirements target pool pending stream).1 =
        .error (.exhaustedRetries target rules.config.matchRetryLimit) := by
  rcases rules.matchRequirements_cases hp target pending stream with
    ⟨he, _⟩ | ⟨entry, hmem, hagrees, _⟩
  · exact he
  · exact absurd hagrees (hconflict entry hmem)

/-- A match keeps the reserve. What it matches against is what is pending or, if nothing is, the
reserve, and that is what it leaves when it gives up, as it must if the whole pool is in conflict.
The entry that it comes to leaves this as it is or narrows it to what the entry requires itself, of
which some name is left, so that these requirements add nothing when they are added again. -/
theorem match_narrows_pending (rules : Rules) (target : String) (pool : List Entry)
    (pending : Pending) (stream : RandomStream) :
    let names := if pending.active = ∅ then pending.reserve else pending.active
    let matched := rules.matchRequirements target pool pending stream
    (pool = [] → matched = (.error (.poolExhausted target), pending, stream)) ∧
    (pool ≠ [] →
      matched.2.1.reserve = pending.reserve ∧
      (∀ entry, matched.1 = .ok entry →
        entry ∈ pool ∧
        (entry.word.hasRequirements = false ∧ matched.2.1.active = names ∨
          matched.2.1.active = names ∩ rules.requirements entry ∧ matched.2.1.active ≠ ∅) ∧
        matched.2.1.apply (rules.requirements entry) = matched.2.1) ∧
      ((∀ entry ∈ pool, entry.word.hasRequirements = true ∧ names ∩ rules.requirements entry = ∅) →
        matched.1 = .error (.exhaustedRetries target rules.config.matchRetryLimit)) ∧
      (∀ error, matched.1 = .error error →
        error = .exhaustedRetries target rules.config.matchRetryLimit ∧
        matched.2.1.active = names)) := by
  intro names matched
  have hnames : pending.seedFromReserve.active = names := pending.active_seedFromReserve
  refine ⟨?_, fun hp => ⟨?_, ?_, ?_, ?_⟩⟩
  · rintro rfl
    rfl
  · rcases rules.matchRequirements_cases hp target pending stream with
      ⟨_, hpending⟩ | ⟨entry, _, _, _, hpending⟩
    · exact (congrArg Pending.reserve hpending).trans pending.reserve_seedFromReserve
    · exact (congrArg Pending.reserve hpending).trans pending.reserve_seedFromReserve
  · intro entry hok
    obtain ⟨hmem, hagrees, hpending⟩ := matchRequirements_ok hok
    have hactive := hagrees.active_apply
    rw [hnames, ← hpending] at hactive
    refine ⟨hmem, hactive, ?_⟩
    have htwice := hagrees.apply_apply
    rw [← hpending] at htwice
    exact htwice
  · intro hconflict
    apply matchRequirements_exhausted hp
    intro entry hmem hagrees
    obtain ⟨hreq, hdisjoint⟩ := hconflict entry hmem
    rw [← hnames] at hdisjoint
    rcases hagrees with hfree | hoverlap
    · rw [hreq] at hfree
      cases hfree
    · exact hoverlap hdisjoint
  · intro error herror
    rcases rules.matchRequirements_cases hp target pending stream with
      ⟨he, hpending⟩ | ⟨entry, _, _, hok, _⟩
    · cases herror.symm.trans he
      exact ⟨rfl, (congrArg Pending.active hpending).trans hnames⟩
    · cases herror.symm.trans hok

theorem match_narrows_pending_blue :
    (Sample.holiday.matchRequirements "ADJ" [Sample.long, Sample.blue]
      ⟨∅, .ofList ["bay", "swim"]⟩ (.ofSeed 0)).1 = .ok Sample.blue ∧
    (Sample.holiday.matchRequirements "ADJ" [Sample.long, Sample.blue]
      ⟨∅, .ofList ["bay", "swim"]⟩ (.ofSeed 0)).2.1 = ⟨.ofList ["bay"], .ofList ["bay", "swim"]⟩ ∧
    (Sample.holiday.matchRequirements "ADJ" [Sample.long] { active := .ofList ["bay"] }
      (.ofSeed 0)).1 = .error (.exhaustedRetries "ADJ" 100) := by
  have hok : (Sample.holiday.matchRequirements "ADJ" [Sample.long, Sample.blue]
      ⟨∅, .ofList ["bay", "swim"]⟩ (.ofSeed 0)).1 = .ok Sample.blue :=
    eq_ok_of_toOption (by decide +kernel)
  obtain ⟨hreserve, haccepted, _, _⟩ := (match_narrows_pending Sample.holiday "ADJ"
    [Sample.long, Sample.blue] ⟨∅, .ofList ["bay", "swim"]⟩ (.ofSeed 0)).2 (by decide)
  obtain ⟨_, hactive, _⟩ := haccepted Sample.blue hok
  obtain ⟨_, _, hconflict, _⟩ := (match_narrows_pending Sample.holiday "ADJ" [Sample.long]
    { active := .ofList ["bay"] } (.ofSeed 0)).2 (by decide)
  refine ⟨hok, ?_, hconflict (by decide +kernel)⟩
  rcases hactive with ⟨hfree, _⟩ | ⟨hnarrowed, _⟩
  · cases hfree
  · have hbay : (if (∅ : NameSet) = ∅ then NameSet.ofList ["bay", "swim"] else ∅) ∩
        Sample.holiday.requirements Sample.blue = NameSet.ofList ["bay"] := by decide +kernel
    rw [Pending.mk.injEq]
    exact ⟨hnarrowed.trans hbay, hreserve⟩

/-- If the names that are pending include that of a noun, a modifier that is accepted leaves some of
them, but it leaves that of a noun only if it requires nothing or one of the nouns. It cannot fail
to if all of the names are those of nouns. -/
theorem modifier_leaves_noun
    (hok : (rules.matchRequirements target pool pending stream).1 = .ok entry) :
    let names := if pending.active = ∅ then pending.reserve else pending.active
    let left := (rules.matchRequirements target pool pending stream).2.1.active
    (∃ name ∈ names, rules.language.IsNoun name) →
      left ≠ ∅ ∧ (∀ name ∈ left, name ∈ names) ∧
      ((∃ name ∈ left, rules.language.IsNoun name) ↔
        entry.word.hasRequirements = false ∨
          ∃ name ∈ names, name ∈ rules.requirements entry ∧ rules.language.IsNoun name) ∧
      ((∀ name ∈ names, rules.language.IsNoun name) →
        ∃ name ∈ left, rules.language.IsNoun name) := by
  intro names left ⟨noun, hmem, hnoun⟩
  obtain ⟨_, hagrees, hpending⟩ := matchRequirements_ok hok
  have hnames : pending.seedFromReserve.active = names := pending.active_seedFromReserve
  have hleft : left = (pending.seedFromReserve.apply (rules.requirements entry)).active :=
    congrArg Pending.active hpending
  have hactive := hagrees.active_apply
  rw [hnames, ← hleft] at hactive
  rcases hactive with ⟨hfree, hsame⟩ | ⟨hnarrowed, hne⟩
  · rw [hsame]
    refine ⟨?_, fun _ h => h, iff_of_true ⟨noun, hmem, hnoun⟩ (.inl hfree),
      fun _ => ⟨noun, hmem, hnoun⟩⟩
    intro hempty
    rw [hempty] at hmem
    exact Std.ExtTreeSet.not_mem_empty hmem
  · have hboth (name : String) : name ∈ left ↔ name ∈ names ∧ name ∈ rules.requirements entry := by
      rw [hnarrowed]
      exact Std.ExtTreeSet.mem_inter_iff
    refine ⟨hne, fun name h => ((hboth name).1 h).1, ?_, ?_⟩
    · constructor
      · rintro ⟨name, hl, hn⟩
        exact .inr ⟨name, ((hboth name).1 hl).1, ((hboth name).1 hl).2, hn⟩
      · rintro (hfree | ⟨name, hin, hreq, hn⟩)
        · -- An entry without requirements would have left nothing in common.
          rw [hnarrowed, requirements_of_not_hasRequirements hfree] at hne
          exact absurd (Std.ExtTreeSet.ext_mem (by simp)) hne
        · exact ⟨name, (hboth name).2 ⟨hin, hreq⟩, hn⟩
    · intro hall
      obtain ⟨name, hl⟩ := Pending.exists_mem_of_ne_empty hne
      exact ⟨name, hl, hall name ((hboth name).1 hl).1⟩

theorem modifier_leaves_noun_bay :
    (Sample.holiday.matchRequirements "ADJ" [Sample.long, Sample.blue]
      { active := .ofList ["bay", "swim"] } (.ofSeed 0)).1 = .ok Sample.blue ∧
    ∃ name ∈ (Sample.holiday.matchRequirements "ADJ" [Sample.long, Sample.blue]
      { active := .ofList ["bay", "swim"] } (.ofSeed 0)).2.1.active,
      Sample.holiday.language.IsNoun name := by
  have hok : (Sample.holiday.matchRequirements "ADJ" [Sample.long, Sample.blue]
      { active := .ofList ["bay", "swim"] } (.ofSeed 0)).1 = .ok Sample.blue :=
    eq_ok_of_toOption (by decide +kernel)
  have hbay : Sample.holiday.language.IsNoun "bay" := by decide +kernel
  obtain ⟨_, _, hleaves, _⟩ := modifier_leaves_noun hok ⟨"bay", by decide +kernel, hbay⟩
  exact ⟨hok, hleaves.2 (.inr ⟨"bay", by decide +kernel, by decide +kernel, hbay⟩)⟩

/-- Behind "enjoy" the noun "bay" is pending, but "long" leaves no name but that of a verb, and the
sentence does not go on. -/
theorem modifier_leaves_no_noun :
    (∃ name ∈ NameSet.ofList ["bay", "swim"], Sample.holiday.language.IsNoun name) ∧
    (Sample.holiday.matchRequirements "ADJ" [Sample.long, Sample.blue]
      { active := .ofList ["bay", "swim"] } (.ofSeed 2)).1 = .ok Sample.long ∧
    (¬ ∃ name ∈ (Sample.holiday.matchRequirements "ADJ" [Sample.long, Sample.blue]
      { active := .ofList ["bay", "swim"] } (.ofSeed 2)).2.1.active,
      Sample.holiday.language.IsNoun name) ∧
    (Session.ofStart "S").placements Sample.holiday 6 (.ofSeed 1) =
      [⟨Sample.enjoy, "STV", "enjoy"⟩, ⟨Sample.long, "ADJ", "long"⟩] := by
  refine ⟨⟨"bay", by decide +kernel, by decide +kernel⟩, eq_ok_of_toOption (by decide +kernel), ?_,
    by decide +kernel⟩
  have hleft : (Sample.holiday.matchRequirements "ADJ" [Sample.long, Sample.blue]
      { active := .ofList ["bay", "swim"] } (.ofSeed 2)).2.1.active = .ofList ["swim"] := by
    decide +kernel
  rw [hleft]
  rintro ⟨name, hmem, hnoun⟩
  rw [NameSet.mem_ofList, List.mem_singleton] at hmem
  subst hmem
  exact absurd hnoun (by decide +kernel)

end Rules

end SentenceWalk
