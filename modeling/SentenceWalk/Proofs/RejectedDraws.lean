import SentenceWalk.Proofs.SuccessorDraw

namespace SentenceWalk

namespace RandomStream

variable {α : Type}

theorem exists_landing {items : List (α × Float)} (h : items ≠ []) (point sum : Float) :
    ∃ item, landing point sum items = some item := by
  fun_induction landing point sum items with
  | case1 => exact absurd rfl h
  | case2 _ item _ => exact ⟨item, rfl⟩
  | case3 _ _ _ _ hne _ ih => exact ih hne
  | case4 _ item _ _ _ _ => exact ⟨item, rfl⟩

theorem chooseWeighted_cases (items : List (α × Float)) :
    (∃ fault, ∀ stream : RandomStream, stream.chooseWeighted items = (.error fault, stream)) ∨
    ∀ stream : RandomStream, ∃ item, stream.chooseWeighted items = (.ok item, stream.skip 2) := by
  simp only [chooseWeighted]
  cases drawableTotal items with
  | error fault => exact .inl ⟨fault, fun _ => rfl⟩
  | ok total =>
    dsimp only
    by_cases hi : items = []
    · subst hi
      exact .inl ⟨.unusable, fun _ => rfl⟩
    · right
      intro stream
      obtain ⟨item, hitem⟩ := exists_landing hi (stream.peekPoint total) 0
      exact ⟨item, by rw [hitem]⟩

end RandomStream

/-- Whether an error says that none of the successors of a code can be drawn. -/
def WalkError.IsUndrawable (code : String) : WalkError → Prop
  | noSuccessor other | weightOverflow other => other = code
  | _ => False

namespace Rules

variable {rules : Rules} {cursor : Cursor} {history : History} {stream rest : RandomStream}
variable {code : String} {part : Part} {error : WalkError} {count draws : Nat}

/-- The draw that is made when so many others have been. Each of them takes two words. -/
def drawBehind (rules : Rules) (cursor : Cursor) (history : History) (stream : RandomStream)
    (count : Nat) : Except WalkError PartDraw × RandomStream :=
  rules.drawPart cursor history (stream.skip (2 * count))

def Rejects (rules : Rules) (cursor : Cursor) (history : History) (stream : RandomStream)
    (count : Nat) : Prop :=
  ∀ i < count, rules.drawBehind cursor history stream i = (.ok .retry, stream.skip (2 * (i + 1)))

theorem drawPart_of_chosen (h : rules.language.grammar.parts[cursor.code]? = some part)
    {items : List (String × Float)}
    (hitems : rules.choices cursor.code history.length = .ok items)
    (hsub : ∀ successor ∈ items.map Prod.fst, successor ∈ part.successors)
    (hchosen : stream.chooseWeighted items = (.ok code, rest)) :
    ∃ drawn, rules.drawPart cursor history stream = (.ok drawn, rest) := by
  have hmem : code ∈ part.successors :=
    hsub code (RandomStream.mem_of_chooseWeighted (congrArg Prod.fst hchosen))
  obtain ⟨next, hnext⟩ := Grammar.successor_defined h hmem
  simp only [drawPart, hitems, hchosen, Grammar.role_eq hnext]
  exact ⟨_, rfl⟩

/-- At a part of the grammar every draw fails in the same way, or every draw comes to a successor.
-/
theorem drawPart_steady (h : rules.language.grammar.parts[cursor.code]? = some part)
    (history : History) :
    (∃ error, error.IsUndrawable cursor.code ∧
      ∀ stream, rules.drawPart cursor history stream = (.error error, stream)) ∨
    ∀ stream, ∃ drawn, rules.drawPart cursor history stream = (.ok drawn, stream.skip 2) := by
  obtain ⟨items, hitems, hsub⟩ := choices_ok h history.length
  rcases RandomStream.chooseWeighted_cases items with ⟨fault, hfault⟩ | hchosen
  · left
    simp only [drawPart, hitems, hfault]
    cases fault with
    | unusable => exact ⟨.noSuccessor cursor.code, rfl, fun _ => rfl⟩
    | overflow => exact ⟨.weightOverflow cursor.code, rfl, fun _ => rfl⟩
  · right
    intro stream
    obtain ⟨code, hcode⟩ := hchosen stream
    exact drawPart_of_chosen h hitems hsub hcode

theorem choosePartWithin_of_rejects (h : rules.Rejects cursor history stream count) (draws : Nat) :
    rules.choosePartWithin cursor history (count + draws) stream =
      rules.choosePartWithin cursor history draws (stream.skip (2 * count)) := by
  induction count generalizing draws with
  | zero => rw [Nat.zero_add, Nat.mul_zero, RandomStream.skip_zero]
  | succ count ih =>
    have hearlier : rules.Rejects cursor history stream count :=
      fun i hi => h i (Nat.lt_succ_of_lt hi)
    have hlast : rules.drawPart cursor history (stream.skip (2 * count)) =
        (.ok .retry, stream.skip (2 * (count + 1))) := h count (Nat.lt_succ_self count)
    rw [Nat.add_right_comm, Nat.add_assoc, ih hearlier, choosePartWithin, hlast]

theorem rejects_or_accepts
    (h : ∀ stream, ∃ drawn, rules.drawPart cursor history stream = (.ok drawn, stream.skip 2))
    (stream : RandomStream) (draws : Nat) :
    rules.Rejects cursor history stream draws ∨
    ∃ count < draws, rules.Rejects cursor history stream count ∧
      ∃ code, rules.drawBehind cursor history stream count =
        (.ok (.part code), stream.skip (2 * (count + 1))) := by
  induction draws with
  | zero => exact .inl fun i hi => absurd hi (Nat.not_lt_zero i)
  | succ draws ih =>
    rcases ih with hrejects | ⟨count, hlt, haccepts⟩
    · obtain ⟨drawn, hdrawn⟩ := h (stream.skip (2 * draws))
      rw [RandomStream.skip_skip, ← Nat.mul_succ] at hdrawn
      cases drawn with
      | part code => exact .inr ⟨draws, Nat.lt_succ_self draws, hrejects, code, hdrawn⟩
      | retry =>
        left
        intro i hi
        rcases Nat.lt_succ_iff_lt_or_eq.1 hi with hlt | rfl
        · exact hrejects i hlt
        · exact hdrawn
    · exact .inr ⟨count, Nat.lt_succ_of_lt hlt, haccepts⟩

theorem choosePartWithin_accepts (h : rules.Rejects cursor history stream count)
    (hlt : count < draws)
    (hdraw : rules.drawBehind cursor history stream count = (.ok (.part code), rest)) :
    rules.choosePartWithin cursor history draws stream = (.ok code, rest) := by
  obtain ⟨left, rfl⟩ := Nat.exists_eq_add_of_lt hlt
  rw [drawBehind] at hdraw
  rw [Nat.add_assoc, choosePartWithin_of_rejects h, choosePartWithin, hdraw]

theorem choosePartWithin_exhausted (h : rules.Rejects cursor history stream draws) :
    rules.choosePartWithin cursor history draws stream =
      (.error (.partRetries cursor.code rules.config.partRetryLimit), stream.skip (2 * draws)) := by
  have hall := choosePartWithin_of_rejects h 0
  rwa [Nat.add_zero] at hall

theorem choosePartWithin_fails (hpos : 0 < draws)
    (hdraw : rules.drawPart cursor history stream = (.error error, rest)) :
    rules.choosePartWithin cursor history draws stream = (.error error, rest) := by
  obtain ⟨left, rfl⟩ := Nat.exists_eq_add_of_lt hpos
  rw [Nat.zero_add, choosePartWithin, hdraw]

/-- A choice among so many draws fails at the first of them, runs out of them, or takes the first
one that is not rejected. -/
theorem choosePartWithin_settles (h : rules.language.grammar.parts[cursor.code]? = some part)
    (history : History) (draws : Nat) (stream : RandomStream) :
    (∃ error, error.IsUndrawable cursor.code ∧ 0 < draws ∧
      rules.drawPart cursor history stream = (.error error, stream) ∧
      rules.choosePartWithin cursor history draws stream = (.error error, stream)) ∨
    (rules.Rejects cursor history stream draws ∧
      rules.choosePartWithin cursor history draws stream =
        (.error (.partRetries cursor.code rules.config.partRetryLimit),
          stream.skip (2 * draws))) ∨
    ∃ count < draws, rules.Rejects cursor history stream count ∧
      ∃ code, rules.drawBehind cursor history stream count =
          (.ok (.part code), stream.skip (2 * (count + 1))) ∧
        rules.choosePartWithin cursor history draws stream =
          (.ok code, stream.skip (2 * (count + 1))) := by
  rcases drawPart_steady h history with ⟨error, herror, hfails⟩ | hdrawn
  · rcases Nat.eq_zero_or_pos draws with rfl | hpos
    · have hnone : rules.Rejects cursor history stream 0 :=
        fun i hi => absurd hi (Nat.not_lt_zero i)
      exact .inr (.inl ⟨hnone, choosePartWithin_exhausted hnone⟩)
    · exact .inl ⟨error, herror, hpos, hfails stream, choosePartWithin_fails hpos (hfails stream)⟩
  · rcases rejects_or_accepts hdrawn stream draws with
      hrejects | ⟨count, hlt, hrejects, code, hcode⟩
    · exact .inr (.inl ⟨hrejects, choosePartWithin_exhausted hrejects⟩)
    · exact .inr (.inr ⟨count, hlt, hrejects, code, hcode,
        choosePartWithin_accepts hrejects hlt hcode⟩)

/-- A part-of-speech is chosen if and only if some draw within the limit accepts it and those before
are rejected, a choice runs out of draws if and only if as many as the limit are rejected, and both
take two words for each of these draws. A choice fails otherwise only if the first draw does,
whereupon no word has been taken. -/
theorem part_is_first_accepted_draw
    (h : rules.language.grammar.parts[cursor.code]? = some part) (history : History)
    (stream : RandomStream) :
    let limit := rules.config.partRetryLimit
    let choice := rules.choosePart cursor history stream
    (∀ code rest, choice = (.ok code, rest) ↔
      ∃ count < limit, rules.Rejects cursor history stream count ∧
        rules.drawBehind cursor history stream count = (.ok (.part code), rest) ∧
        rest = stream.skip (2 * (count + 1))) ∧
    (∀ code attempts rest, choice = (.error (.partRetries code attempts), rest) ↔
      code = cursor.code ∧ attempts = limit ∧ rules.Rejects cursor history stream limit ∧
        rest = stream.skip (2 * limit)) ∧
    (∀ error rest, error.IsUndrawable cursor.code →
      (choice = (.error error, rest) ↔
        0 < limit ∧ rules.drawPart cursor history stream = (.error error, stream) ∧
          rest = stream)) ∧
    ∀ error, choice.1 = .error error →
      error.IsUndrawable cursor.code ∨ error = .partRetries cursor.code limit := by
  intro limit choice
  have hsettles := choosePartWithin_settles h history limit stream
  refine ⟨?_, ?_, ?_, ?_⟩
  · intro code rest
    constructor
    · intro hchoice
      rcases hsettles with ⟨error, _, _, _, he⟩ | ⟨_, he⟩ | ⟨count, hlt, hrejects, _, hdraw, he⟩
      · cases hchoice.symm.trans he
      · cases hchoice.symm.trans he
      · cases hchoice.symm.trans he
        exact ⟨count, hlt, hrejects, hdraw, rfl⟩
    · rintro ⟨count, hlt, hrejects, hdraw, _⟩
      exact choosePartWithin_accepts hrejects hlt hdraw
  · intro code attempts rest
    constructor
    · intro hchoice
      rcases hsettles with ⟨error, herror, _, _, he⟩ | ⟨hrejects, he⟩ | ⟨_, _, _, _, _, he⟩
      · cases hchoice.symm.trans he
        cases herror
      · cases hchoice.symm.trans he
        exact ⟨rfl, rfl, hrejects, rfl⟩
      · cases hchoice.symm.trans he
    · rintro ⟨rfl, rfl, hrejects, rfl⟩
      exact choosePartWithin_exhausted hrejects
  · intro error rest herror
    constructor
    · intro hchoice
      rcases hsettles with ⟨_, _, hpos, hdraw, he⟩ | ⟨_, he⟩ | ⟨_, _, _, _, _, he⟩
      · cases hchoice.symm.trans he
        exact ⟨hpos, hdraw, rfl⟩
      · cases hchoice.symm.trans he
        cases herror
      · cases hchoice.symm.trans he
    · rintro ⟨hpos, hdraw, rfl⟩
      exact choosePartWithin_fails hpos hdraw
  · intro error hchoice
    rcases hsettles with ⟨_, herror, _, _, he⟩ | ⟨_, he⟩ | ⟨_, _, _, _, _, he⟩
    · cases hchoice.symm.trans (congrArg Prod.fst he)
      exact .inl herror
    · cases hchoice.symm.trans (congrArg Prod.fst he)
      exact .inr rfl
    · cases hchoice.symm.trans (congrArg Prod.fst he)

end Rules

/-!
A language whose sentences could begin with a proper noun, if there were a word in front of it.
-/

namespace Sample

def sunriseGrammar : Grammar where
  parts := .ofList [
    ("S", (⟨.start, ["PN", "IV"], [1, 1], ∅⟩ : Part)),
    ("PN", ⟨.properNoun, ["END"], [1], .ofList ["PN"]⟩),
    ("IV", ⟨.verb, ["END"], [1], .ofList ["IV"]⟩),
    ("END", ⟨.finish, [], [], ∅⟩)]
  sound := Option.isNone_iff_eq_none.1 (by decide +kernel)

def sunrise : Rules where
  language := {
    grammar := sunriseGrammar
    hierarchy := {}
    lexicon := { words := [{ name := "Venus", tag := "PN" }, { name := "shine", tag := "IV" }] } }
  config := { partRetryLimit := 4 }

end Sample

theorem Rules.part_is_first_accepted_draw_sunrise :
    Sample.sunrise.choosePart { code := "S" } {} (.ofSeed 5) =
      (.ok "IV", (RandomStream.ofSeed 5).skip 8) ∧
    Sample.sunrise.choosePart { code := "S" } {} (.ofSeed 10) =
      (.error (.partRetries "S" 4), (RandomStream.ofSeed 10).skip 8) := by
  let cursor : Cursor := { code := "S" }
  obtain ⟨part, hpart⟩ := Option.isSome_iff_exists.1
    (show (Sample.sunrise.language.grammar.parts[cursor.code]?).isSome = true by decide +kernel)
  have hrejects (seed : UInt64) (count : Nat)
      (h : ∀ i < count,
        (Sample.sunrise.drawBehind { code := "S" } {} (.ofSeed seed) i).1.toOption = some .retry ∧
        (Sample.sunrise.drawBehind { code := "S" } {} (.ofSeed seed) i).2 =
          (RandomStream.ofSeed seed).skip (2 * (i + 1))) :
      Sample.sunrise.Rejects { code := "S" } {} (.ofSeed seed) count :=
    fun i hi => Prod.ext (eq_ok_of_toOption (h i hi).1) (h i hi).2
  have haccepts : Sample.sunrise.drawBehind { code := "S" } {} (.ofSeed 5) 3 =
      (.ok (.part "IV"), (RandomStream.ofSeed 5).skip 8) :=
    Prod.ext (eq_ok_of_toOption (by decide +kernel)) (by decide +kernel)
  constructor
  · obtain ⟨hok, _⟩ := part_is_first_accepted_draw hpart {} (.ofSeed 5)
    exact (hok _ _).2 ⟨3, by decide, hrejects 5 3 (by decide +kernel), haccepts, rfl⟩
  · obtain ⟨_, hexhausted, _⟩ := part_is_first_accepted_draw hpart {} (.ofSeed 10)
    exact (hexhausted _ _ _).2 ⟨rfl, rfl, hrejects 10 4 (by decide +kernel), rfl⟩

end SentenceWalk
