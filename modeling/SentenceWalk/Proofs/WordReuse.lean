import SentenceWalk.Proofs.NounDraw

namespace SentenceWalk.Rules

variable {rules : Rules} {cursor : Cursor} {target name : String} {part : Part}
variable {pending : Pending} {history : History} {used : UsedWords} {stream : RandomStream}
variable {pool : List Entry} {names : List String}

/-- The words that a part has to offer under a requirement, which restricts nouns alone. -/
def candidates (rules : Rules) (part : Part) (names : NameSet) : List Entry :=
  if part.role = .noun then rules.meeting part names
  else rules.language.lexicon.withTags part.vocabulary

theorem fst_offer (rules : Rules) (part : Part) (pending : Pending) :
    (rules.offer part pending).1 = rules.candidates part pending.active := by
  rw [candidates]
  by_cases hr : part.role = .noun
  · rw [if_pos hr, offer_noun hr]
  · rw [if_neg hr, offer_of_ne_noun hr]

def unused (names : List String) (pool : List Entry) : List Entry :=
  pool.filter fun entry => entry.name ∉ names

/-- The entries whose name is listed behind those of all others, or not at all. -/
def latest (names : List String) (pool : List Entry) : List Entry :=
  pool.filter fun entry => ∀ other ∈ pool, names.idxOf other.name ≤ names.idxOf entry.name

theorem latest_eq_unused (h : unused names pool ≠ []) : latest names pool = unused names pool := by
  obtain ⟨fresh, hfresh⟩ := List.exists_mem_of_ne_nil _ h
  obtain ⟨hmem, hnew⟩ := List.mem_filter.1 hfresh
  have hend : names.idxOf fresh.name = names.length :=
    List.idxOf_eq_length (by simpa using hnew)
  apply List.filter_congr
  intro entry _
  rw [decide_eq_decide]
  constructor
  · intro hlatest hlisted
    have hbefore : names.idxOf entry.name < names.length := List.idxOf_lt_length_iff.2 hlisted
    have := hlatest fresh hmem
    omega
  · intro hfree other _
    rw [List.idxOf_eq_length hfree]
    exact List.idxOf_le_length

theorem latest_of_same_name (h : ∀ entry ∈ pool, entry.name = name) : latest names pool = pool := by
  apply List.filter_eq_self.2
  intro entry hmem
  rw [decide_eq_true_iff]
  intro other hother
  have hsame : other.name = entry.name := (h other hother).trans (h entry hmem).symm
  exact Nat.le_of_eq (congrArg names.idxOf hsame)

theorem latest_cons (h : pool.filter (fun entry => entry.name != name) ≠ []) :
    latest (name :: names) pool =
      latest names (pool.filter fun entry => entry.name != name) := by
  obtain ⟨rival, hrival⟩ := List.exists_mem_of_ne_nil _ h
  obtain ⟨hmem, hrest⟩ := List.mem_filter.1 hrival
  have hbehind {other : Entry} (hne : other.name ≠ name) :
      (name :: names).idxOf other.name = names.idxOf other.name + 1 := by
    rw [List.idxOf_cons, beq_false_of_ne (Ne.symm hne), cond_false]
  rw [latest, latest, List.filter_filter]
  apply List.filter_congr
  intro entry _
  rw [Bool.eq_iff_iff, decide_eq_true_iff, Bool.and_eq_true, decide_eq_true_iff, bne_iff_ne]
  constructor
  · intro hlatest
    have hne : entry.name ≠ name := by
      intro heq
      have hle := hlatest rival hmem
      rw [hbehind (bne_iff_ne.1 hrest), heq, List.idxOf_cons_self] at hle
      omega
    refine ⟨fun other hother => ?_, hne⟩
    obtain ⟨hin, hkept⟩ := List.mem_filter.1 hother
    have hle := hlatest other hin
    rw [hbehind (bne_iff_ne.1 hkept), hbehind hne] at hle
    omega
  · rintro ⟨hlatest, hne⟩ other hin
    rw [hbehind hne]
    by_cases heq : other.name = name
    · rw [heq, List.idxOf_cons_self]
      exact Nat.zero_le _
    · have hle := hlatest other (List.mem_filter.2 ⟨hin, bne_iff_ne.2 heq⟩)
      rw [hbehind heq]
      omega

/-- Leaving out listed names one after the other, as long as others remain, leaves the latest. -/
theorem foldl_avoid (names : List String) (pool : List Entry) :
    names.foldl avoid pool = latest names pool := by
  induction names generalizing pool with
  | nil => exact (List.filter_eq_self.2 (by simp)).symm
  | cons name names ih =>
    rw [List.foldl_cons, ih, avoid]
    by_cases hothers : pool.filter (fun entry => entry.name != name) = []
    · have hsame : ∀ entry ∈ pool, entry.name = name := by simpa using hothers
      rw [hothers, if_pos List.isEmpty_nil, latest_of_same_name hsame, latest_of_same_name hsame]
    · rw [if_neg (by simpa using hothers), latest_cons hothers]

theorem withoutUsed_eq (pool : List Entry) (used : UsedWords) (history : History) :
    withoutUsed pool used history = (latest used.names pool).filter fun entry =>
      history.lastPreposition.all fun preposition => entry.name != preposition.name := by
  rw [withoutUsed, foldl_avoid]
  cases history.lastPreposition with
  | none => exact (List.filter_eq_self.2 fun _ _ => rfl).symm
  | some preposition => rfl

theorem nextWord_poolExhausted_iff (hp : rules.language.grammar.parts[target]? = some part)
    (hr : part.role ≠ .finish) :
    (rules.nextWord cursor target pending history used stream).1 = .error (.poolExhausted target) ↔
      withoutUsed (rules.candidates part (rules.pendingAfter cursor history pending).active) used
        history = [] := by
  rw [nextWord_eq_pick hp hr, ← fst_offer]
  dsimp only
  rcases rules.pick_cases target part.role
    (withoutUsed (rules.offer part (rules.pendingAfter cursor history pending)).1 used history)
    history (rules.offer part (rules.pendingAfter cursor history pending)).2 stream with
    ⟨hpool, he⟩ | ⟨hpool, he, _⟩ | ⟨entry, hmem, he, _⟩
  · rw [he]
    exact iff_of_true rfl hpool
  · rw [he]
    exact iff_of_false (fun h => by cases h) hpool
  · rw [he]
    exact iff_of_false (fun h => by cases h) (List.ne_nil_of_mem hmem)

/-- A word is chosen from those that the part has to offer and whose names have not been used. If
there are none, it is chosen from those whose name came into use last. The last preposition is left
out of these, and the choice fails for want of words just if nothing is left then. -/
theorem used_words_are_last_resort (hp : rules.language.grammar.parts[target]? = some part)
    (hr : part.role ≠ .finish) (cursor : Cursor) (pending : Pending) (history : History)
    (used : UsedWords) (stream : RandomStream) :
    let candidates := rules.candidates part (rules.pendingAfter cursor history pending).active
    let spared :=
      if ∃ entry ∈ candidates, entry.name ∉ used.names then unused used.names candidates
      else latest used.names candidates
    let left := spared.filter fun entry =>
      history.lastPreposition.all fun preposition => entry.name != preposition.name
    let chosen := (rules.nextWord cursor target pending history used stream).1
    (chosen = .error (.poolExhausted target) ↔ left = []) ∧
    ∀ entry, chosen = .ok (.word entry) →
      entry ∈ left ∧ (entry.name ∈ used.names → ∀ other ∈ candidates, other.name ∈ used.names) := by
  intro candidates spared left chosen
  have hspared : latest used.names candidates = spared := by
    by_cases hfresh : ∃ entry ∈ candidates, entry.name ∉ used.names
    · obtain ⟨entry, hmem, hnew⟩ := hfresh
      have hunused : entry ∈ unused used.names candidates :=
        List.mem_filter.2 ⟨hmem, by simpa using hnew⟩
      rw [latest_eq_unused (List.ne_nil_of_mem hunused)]
      exact (if_pos ⟨entry, hmem, hnew⟩).symm
    · exact (if_neg hfresh).symm
  have hleft : withoutUsed candidates used history = left := by
    rw [withoutUsed_eq, hspared]
  refine ⟨?_, ?_⟩
  · rw [← hleft]
    exact nextWord_poolExhausted_iff hp hr
  · intro entry hw
    have hmem : entry ∈ left := by
      have hpick := mem_of_pick (pick_of_word hp hw)
      rw [fst_offer] at hpick
      rw [← hleft]
      exact hpick
    refine ⟨hmem, fun hlisted other hother => ?_⟩
    apply Classical.byContradiction
    intro hnew
    have hunused : spared = unused used.names candidates := if_pos ⟨other, hother, hnew⟩
    have hentry : entry ∈ spared := (List.mem_filter.1 hmem).1
    rw [hunused] at hentry
    have hfree := (List.mem_filter.1 hentry).2
    exact of_decide_eq_true hfree hlisted

theorem used_words_are_last_resort_hill :
    (Sample.rules.nextWord ⟨"P", some Sample.into⟩ "N" {} {} { names := ["lake", "town", "hill"] }
      (.ofSeed 0)).1 = .ok (.word Sample.hill) ∧
    (∀ other ∈ Sample.rules.candidates Sample.noun (Sample.rules.requirements Sample.into),
      other.name ∈ ["lake", "town", "hill"]) ∧
    (Sample.rules.nextWord ⟨"P", some Sample.into⟩ "N" {} ⟨[], some ⟨"hill", "P"⟩⟩
      { names := ["lake", "town", "hill"] } (.ofSeed 0)).1 = .error (.poolExhausted "N") := by
  have hp : Sample.rules.language.grammar.parts["N"]? = some Sample.noun := rfl
  have hr : Sample.noun.role ≠ .finish := by decide
  have hw : (Sample.rules.nextWord ⟨"P", some Sample.into⟩ "N" {} {}
      { names := ["lake", "town", "hill"] } (.ofSeed 0)).1 = .ok (.word Sample.hill) :=
    eq_ok_of_toOption (by decide +kernel)
  have hrestriction : (Sample.rules.pendingAfter ⟨"P", some Sample.into⟩ {} {}).active =
      Sample.rules.requirements Sample.into := by decide +kernel
  obtain ⟨_, hused⟩ := (used_words_are_last_resort hp hr _ _ _ _ _).2 Sample.hill hw
  rw [hrestriction] at hused
  exact ⟨hw, hused (by decide),
    (used_words_are_last_resort hp hr _ _ _ _ _).1.2 (by decide +kernel)⟩

end SentenceWalk.Rules
