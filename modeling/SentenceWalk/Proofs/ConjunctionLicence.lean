import SentenceWalk.Proofs.Chronicle

namespace SentenceWalk

theorem Landmark.ofVisits_append {conjunctions : Bool} {visits : List Visit} (others : List Visit)
    (h : ∀ visit ∈ visits, ofVisits conjunctions [visit] = .start) :
    ofVisits conjunctions (visits ++ others) = ofVisits conjunctions others := by
  induction visits with
  | nil => rfl
  | cons visit visits ih =>
    have hvisit := h visit List.mem_cons_self
    have hrest := ih fun other hmem => h other (List.mem_cons_of_mem _ hmem)
    rcases visit with ⟨code, role⟩
    cases role <;> cases conjunctions <;> simp_all [ofVisits]

variable {grammar : Grammar} {word : Placement}

theorem Placement.ofVisits_of_not_governs (h : ¬ word.Governs grammar) {visit : Visit}
    (hv : word.cursor.visit? grammar = some visit) : Landmark.ofVisits false [visit] = .start := by
  obtain ⟨role, hr, rfl⟩ := Option.map_eq_some_iff.1 hv
  have hverb : role ≠ .verb := by
    rintro rfl
    exact h (.inl hr)
  have hpreposition : role ≠ .preposition := by
    rintro rfl
    exact h (.inr hr)
  cases role with
  | verb => exact absurd rfl hverb
  | preposition => exact absurd rfl hpreposition
  | _ => rfl

theorem Placement.preposition?_of_not_governs (h : ¬ word.Governs grammar) :
    word.cursor.preposition? grammar = none :=
  if_neg fun hr => h (.inr hr)

namespace Session

variable {rules : Rules} {before between after : List Placement} {governor conjunction : Placement}
variable {session observed : Session}

theorem cursors_split (rules : Rules) (before between : List Placement) (governor : Placement) :
    cursors rules (before ++ governor :: between) =
      (between.map Placement.cursor).reverse ++ governor.cursor :: cursors rules before := by
  simp [cursors]

theorem Chronicle.last_governor
    (h : Chronicle rules (cursors rules (before ++ governor :: between)) observed)
    (hg : governor.role? rules.language.grammar = some .preposition)
    (hb : ∀ word ∈ between, ¬ word.Governs rules.language.grammar) :
    observed.history.lookBack false = .preposition ∧
      observed.history.lastPreposition =
        some ⟨governor.entry.word.name, governor.entry.word.tag⟩ := by
  have hvisit : governor.cursor.visit? rules.language.grammar =
      some ⟨governor.code, .preposition⟩ := Option.map_eq_some_iff.2 ⟨_, hg, rfl⟩
  have hpreposition : governor.cursor.preposition? rules.language.grammar =
      some ⟨governor.entry.word.name, governor.entry.word.tag⟩ := if_pos hg
  rw [h.lookBack, h.lastPreposition, cursors_split]
  constructor
  · rw [List.filterMap_append, Landmark.ofVisits_append, List.filterMap_cons, hvisit]
    · rfl
    · intro visit hmem
      obtain ⟨cursor, hcursor, hv⟩ := List.mem_filterMap.1 hmem
      rw [List.mem_reverse, List.mem_map] at hcursor
      obtain ⟨word, hword, rfl⟩ := hcursor
      exact Placement.ofVisits_of_not_governs (hb word hword) hv
  · rw [List.findSome?_append, List.findSome?_eq_none_iff.2, Option.none_or, List.findSome?_cons,
      hpreposition]
    intro cursor hcursor
    rw [List.mem_reverse, List.mem_map] at hcursor
    obtain ⟨word, hword, rfl⟩ := hcursor
    exact Placement.preposition?_of_not_governs (hb word hword)

/-- Whenever a conjunction is placed, the last verb or preposition before it, if there is one, is a
verb or a preposition whose own entry in the lexicon is flagged for conjunctions. -/
theorem conjunction_licensed {steps : Nat} {stream : RandomStream}
    (hrun : (ofStart rules.language.grammar.start).placements rules steps stream =
      before ++ governor :: between ++ conjunction :: after)
    (hc : conjunction.role? rules.language.grammar = some .conjunction)
    (hg : governor.Governs rules.language.grammar)
    (hb : ∀ word ∈ between, ¬ word.Governs rules.language.grammar) :
    governor.role? rules.language.grammar = some .verb ∨
      governor.role? rules.language.grammar = some .preposition ∧
        ∃ word, rules.language.lexicon.words[governor.entry.id]? = some word ∧
          word.hasFlag rules.config.conjoinFlag = true := by
  rcases hg with hverb | hg
  · exact .inl hverb
  right
  obtain ⟨reached, rest, hreached, hstep⟩ := Reached.start.placement hrun
  rw [List.nil_append] at hreached
  obtain ⟨observed, middle, pending, hs, hchoice, _⟩ := step_placed hstep
  obtain ⟨role, ho⟩ := observe_ok hs
  obtain ⟨hback, hlast⟩ := (hreached.recorded.observe ho).last_governor hg hb
  -- The conjunction has been allowed, which the flag of the last preposition decides.
  obtain ⟨part, hpart⟩ := (hreached.walks.observe hs).part
  obtain ⟨_, next, hnext, hallows⟩ := Rules.choosePart_ok hpart (congrArg Prod.fst hchoice)
  have hrole : next.role = .conjunction := by
    rw [Placement.role?, Grammar.role_eq hnext] at hc
    exact Option.some.inj hc
  obtain ⟨_, _, _, hword, _⟩ :=
    hreached.walks.offered governor (List.mem_append_right _ List.mem_cons_self)
  have hlookup := Lexicon.lookup_of_mem (List.mem_of_getElem? hword)
  rw [hrole, Rules.allows, Rules.allowsConjunction, hback] at hallows
  dsimp only at hallows
  rw [hlast, Option.bind_some, hlookup, Option.any_some] at hallows
  exact ⟨hg, governor.entry.word, hword, hallows⟩

theorem conjunction_licensed_into :
    (ofStart "S").placements Sample.rules 4 (.ofSeed 0) =
      [⟨Sample.into, "P", "into"⟩, ⟨Sample.old, "ADJ", "old"⟩, ⟨Sample.town, "N", "town"⟩,
        ⟨Sample.but, "CONJ", "but"⟩] ∧
    Sample.into.word.hasFlag "okayconj" = true := by
  have hrun : (ofStart Sample.rules.language.grammar.start).placements Sample.rules 4 (.ofSeed 0) =
      [] ++ ⟨Sample.into, "P", "into"⟩ ::
        [⟨Sample.old, "ADJ", "old"⟩, ⟨Sample.town, "N", "town"⟩] ++
        ⟨Sample.but, "CONJ", "but"⟩ :: [] := by decide +kernel
  have hbetween : ∀ word ∈ [(⟨Sample.old, "ADJ", "old"⟩ : Placement),
      ⟨Sample.town, "N", "town"⟩], ¬ word.Governs Sample.grammar := by
    decide +kernel
  obtain hverb | ⟨_, word, hword, hflag⟩ := conjunction_licensed hrun (by decide +kernel)
    (.inr (by decide +kernel)) hbetween
  · exact absurd hverb (by decide +kernel)
  · cases hword
    exact ⟨hrun, hflag⟩

end Session

end SentenceWalk
