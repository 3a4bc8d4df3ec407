import SentenceWalk.Proofs.NounDraw
import SentenceWalk.Proofs.Placement

namespace SentenceWalk

theorem Pending.reserve_seedFromReserve (pending : Pending) :
    pending.seedFromReserve.reserve = pending.reserve := by
  rw [seedFromReserve]
  split <;> rfl

theorem Pending.active_seedFromReserve (pending : Pending) :
    pending.seedFromReserve.active =
      if pending.active = ∅ then pending.reserve else pending.active := by
  rw [seedFromReserve]
  by_cases ha : pending.active = ∅ <;> simp [ha]

/-! A language of the phrase "eat apple see rock and apple". The word "and" joins the last noun to
"rock", on which nothing is required, but the requirement of "eat" is still in reserve. -/

namespace Sample

def eat : Entry := ⟨0, { name := "eat", tag := "STV", nextWords := ["apple"] }⟩

def apple : Entry := ⟨1, { name := "apple", tag := "N" }⟩

def see : Entry := ⟨2, { name := "see", tag := "MTV" }⟩

def rock : Entry := ⟨3, { name := "rock", tag := "MN" }⟩

def join : Entry := ⟨4, { name := "and", tag := "CONJ" }⟩

def pond : Entry := ⟨5, { name := "lake", tag := "N" }⟩

def seen : Part := ⟨.noun, ["CONJ"], [1], .ofList ["MN"]⟩

def mealGrammar : Grammar where
  parts := .ofList [
    ("S", ⟨.start, ["STV"], [1], ∅⟩),
    ("STV", ⟨.verb, ["N"], [1], .ofList ["STV"]⟩),
    ("N", ⟨.noun, ["MTV"], [1], .ofList ["N"]⟩),
    ("MTV", ⟨.verb, ["MN"], [1], .ofList ["MTV"]⟩),
    ("MN", seen),
    ("CONJ", ⟨.conjunction, ["NN"], [1], .ofList ["CONJ"]⟩),
    ("NN", ⟨.noun, ["CONJ", "END"], [1, 1], .ofList ["N"]⟩),
    ("END", ⟨.finish, [], [], ∅⟩)]
  sound := Option.isNone_iff_eq_none.1 (by decide +kernel)

def meal : Rules where
  language := {
    grammar := mealGrammar
    hierarchy := {}
    lexicon := { words := [eat.word, apple.word, see.word, rock.word, join.word, pond.word] } }
  config := {}

end Sample

namespace Rules

variable {rules : Rules} {cursor : Cursor} {target : String} {part : Part} {role : Role}
variable {pending : Pending} {history : History} {used : UsedWords} {stream : RandomStream}
variable {pool : List Entry} {entry : Entry}

theorem reserve_pendingAfter (rules : Rules) (cursor : Cursor) (history : History)
    (pending : Pending) :
    (rules.pendingAfter cursor history pending).reserve = pending.reserve := by
  rw [pendingAfter_eq]
  split <;> rfl

theorem reserve_pick :
    (rules.pick target role pool history pending stream).2.1.reserve = pending.reserve := by
  rcases rules.pick_cases target role pool history pending stream with
    ⟨_, he⟩ | ⟨_, _, hpending⟩ | ⟨entry, _, _, hpending | hpending⟩
  · rw [he]
  · rw [hpending, Pending.reserve_seedFromReserve]
  · rw [hpending]
  · rw [hpending]
    exact pending.reserve_seedFromReserve

theorem pending_noun (hp : rules.language.grammar.parts[target]? = some part)
    (hr : part.role = .noun) :
    (rules.nextWord cursor target pending history used stream).2.1 =
      ⟨∅, if (rules.pendingAfter cursor history pending).active = ∅ then pending.reserve
        else (rules.pendingAfter cursor history pending).active⟩ := by
  have hreserve := rules.reserve_pendingAfter cursor history pending
  rw [nextWord_noun hp hr]
  dsimp only
  generalize rules.pendingAfter cursor history pending = left at hreserve ⊢
  obtain ⟨active, reserve⟩ := left
  by_cases ha : active = ∅
  · subst ha
    rw [if_pos rfl, ← hreserve]
    rfl
  · rw [if_pos (Pending.isConstrained_iff.2 ha), if_neg ha]
    rfl

theorem reserve_of_ne_noun (hp : rules.language.grammar.parts[target]? = some part)
    (hr : part.role ≠ .noun) :
    (rules.nextWord cursor target pending history used stream).2.1.reserve = pending.reserve := by
  by_cases hf : part.role = .finish
  · rw [nextWord_terminal hp hf]
  · rw [nextWord_of_ne_noun hp hf hr]
    exact reserve_pick.trans (reserve_pendingAfter rules cursor history pending)

theorem reserve_nextWord (rules : Rules) (cursor : Cursor) (target : String) (pending : Pending)
    (history : History) (used : UsedWords) (stream : RandomStream) :
    (rules.nextWord cursor target pending history used stream).2.1.reserve = pending.reserve ∨
    (rules.pendingAfter cursor history pending).active ≠ ∅ ∧
      (rules.nextWord cursor target pending history used stream).2.1.reserve =
        (rules.pendingAfter cursor history pending).active := by
  cases hp : rules.language.grammar.parts[target]? with
  | none =>
    left
    rw [nextWord, Grammar.part, hp]
  | some part =>
    by_cases hr : part.role = .noun
    · rw [pending_noun hp hr]
      dsimp only
      split
      · exact .inl rfl
      · rename_i ha
        exact .inr ⟨ha, rfl⟩
    · exact .inl (reserve_of_ne_noun hp hr)

/-- Behind a noun that was restricted the reserve is its restriction. A noun that was not restricted
leaves the reserve of an earlier noun, so that the reserve is its own only if there was none. -/
theorem reserve_behind_noun (hp : rules.language.grammar.parts[target]? = some part)
    (hr : part.role = .noun)
    (hw : (rules.nextWord cursor target pending history used stream).1 = .ok (.word entry)) :
    let restriction := (rules.pendingAfter cursor history pending).active
    let left := (rules.nextWord cursor target pending history used stream).2.1
    (restriction ≠ ∅ → entry.name ∈ restriction ∧ left = ⟨∅, restriction⟩) ∧
      (restriction = ∅ → left = ⟨∅, pending.reserve⟩) ∧
      (left.reserve = restriction ↔ restriction ≠ ∅ ∨ pending.reserve = ∅) := by
  intro restriction left
  have hleft : left = ⟨∅, if restriction = ∅ then pending.reserve else restriction⟩ :=
    pending_noun hp hr
  refine ⟨?_, ?_, ?_⟩
  · intro ha
    rw [if_neg ha] at hleft
    exact ⟨name_of_noun hp hr hw ha, hleft⟩
  · intro ha
    rw [if_pos ha] at hleft
    exact hleft
  · by_cases ha : restriction = ∅
    · rw [hleft, if_pos ha, ha]
      simp
    · rw [hleft, if_neg ha]
      simp [ha]

theorem reserve_behind_noun_apple :
    (Sample.meal.nextWord ⟨"STV", some Sample.eat⟩ "N" {} {} {} (.ofSeed 0)).1 =
      .ok (.word Sample.apple) ∧
    (Sample.meal.nextWord ⟨"STV", some Sample.eat⟩ "N" {} {} {} (.ofSeed 0)).2.1.reserve =
      Sample.meal.requirements Sample.eat := by
  have hp : Sample.meal.language.grammar.parts["N"]? =
      some ⟨.noun, ["MTV"], [1], .ofList ["N"]⟩ := rfl
  have hw : (Sample.meal.nextWord ⟨"STV", some Sample.eat⟩ "N" {} {} {} (.ofSeed 0)).1 =
      .ok (.word Sample.apple) := eq_ok_of_toOption (by decide +kernel)
  obtain ⟨hrestricted, _, _⟩ := reserve_behind_noun hp rfl hw
  obtain ⟨_, hleft⟩ := hrestricted (by decide +kernel)
  rw [hleft]
  exact ⟨hw, by decide +kernel⟩

/-- Nothing restricts "rock", yet the requirement of "eat" stays in reserve, and the noun that "and"
joins to "rock" is held to it. -/
theorem unrestricted_noun_keeps_reserve :
    Sample.meal.language.grammar.parts["MN"]? = some Sample.seen ∧ Sample.seen.role = .noun ∧
    (Sample.meal.pendingAfter ⟨"MTV", some Sample.see⟩ {} ⟨∅, .ofList ["apple"]⟩).active = ∅ ∧
    (Sample.meal.nextWord ⟨"MTV", some Sample.see⟩ "MN" ⟨∅, .ofList ["apple"]⟩ {} {}
      (.ofSeed 0)).1 = .ok (.word Sample.rock) ∧
    (Sample.meal.nextWord ⟨"MTV", some Sample.see⟩ "MN" ⟨∅, .ofList ["apple"]⟩ {} {}
      (.ofSeed 0)).2.1.reserve = .ofList ["apple"] ∧
    (Session.ofStart "S").placements Sample.meal 6 (.ofSeed 1) =
      [⟨Sample.eat, "STV", "eat"⟩, ⟨Sample.apple, "N", "apple"⟩, ⟨Sample.see, "MTV", "see"⟩,
        ⟨Sample.rock, "MN", "rock"⟩, ⟨Sample.join, "CONJ", "and"⟩, ⟨Sample.apple, "NN", "apple"⟩] :=
  ⟨rfl, rfl, by decide +kernel, eq_ok_of_toOption (by decide +kernel), by decide +kernel,
    by decide +kernel⟩

end Rules

end SentenceWalk
