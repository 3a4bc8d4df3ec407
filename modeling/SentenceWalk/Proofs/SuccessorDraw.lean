import SentenceWalk.Proofs.GrammarSoundness
import SentenceWalk.Rules.PartChoice

namespace SentenceWalk

/-- Whether a draw has failed, for which neither the grammar nor the length of the sentence is to
blame. -/
def WalkError.FromDraw : WalkError → Prop
  | .grammar _ | .sentenceTooLong _ => False
  | _ => True

namespace Rules

variable {rules : Rules} {cursor : Cursor} {history : History} {stream : RandomStream}
variable {code : String} {part : Part}

def MayFollow (rules : Rules) (cursor : Cursor) (history : History) (code : String) : Prop :=
  code ∈ rules.language.grammar.successors cursor.code ∧
    ∃ part, rules.language.grammar.parts[code]? = some part ∧
      rules.allows cursor history part.role = true

theorem map_fst_raiseEnd (grammar : Grammar) (bonus : Float) (items : List (String × Float)) :
    (raiseEnd grammar bonus items).map Prod.fst = items.map Prod.fst := by
  induction items with
  | nil => rfl
  | cons item items ih =>
    obtain ⟨code, weight⟩ := item
    rw [raiseEnd]
    split
    · rfl
    · simp only [List.map_cons, ih]

theorem choices_ok (h : rules.language.grammar.parts[code]? = some part) (length : Nat) :
    ∃ items, rules.choices code length = .ok items ∧
      ∀ successor ∈ items.map Prod.fst, successor ∈ part.successors := by
  have hzip : ∀ successor ∈ part.choices.map Prod.fst, successor ∈ part.successors := by
    intro successor hs
    obtain ⟨item, hmem, rfl⟩ := List.mem_map.1 hs
    exact (List.of_mem_zip hmem).1
  rw [choices, Grammar.part_eq h]
  refine ⟨_, rfl, ?_⟩
  dsimp only
  split
  · rw [map_fst_raiseEnd]
    exact hzip
  · exact hzip

theorem drawPart_cases (h : rules.language.grammar.parts[cursor.code]? = some part)
    (history : History) (stream : RandomStream) :
    (∃ error, (rules.drawPart cursor history stream).1 = .error error ∧ error.FromDraw) ∨
    ∃ code next, code ∈ part.successors ∧ rules.language.grammar.parts[code]? = some next ∧
      (rules.drawPart cursor history stream).1 =
        .ok (if rules.allows cursor history next.role then .part code else .retry) := by
  obtain ⟨items, hitems, hsub⟩ := choices_ok h history.length
  rw [drawPart, hitems]
  dsimp only
  rcases hdraw : stream.chooseWeighted items with ⟨fault | code, rest⟩
  · cases fault with
    | unusable => exact .inl ⟨_, rfl, trivial⟩
    | overflow => exact .inl ⟨_, rfl, trivial⟩
  · have hmem : code ∈ part.successors :=
      hsub code (RandomStream.mem_of_chooseWeighted (congrArg Prod.fst hdraw))
    obtain ⟨next, hnext⟩ := Grammar.successor_defined h hmem
    dsimp only
    rw [Grammar.role_eq hnext]
    exact .inr ⟨code, next, hmem, hnext, rfl⟩

theorem choosePartWithin_cases (h : rules.language.grammar.parts[cursor.code]? = some part)
    (history : History) (draws : Nat) (stream : RandomStream) :
    (∃ error, (rules.choosePartWithin cursor history draws stream).1 = .error error ∧
      error.FromDraw) ∨
    ∃ code, (rules.choosePartWithin cursor history draws stream).1 = .ok code ∧
      rules.MayFollow cursor history code := by
  induction draws generalizing stream with
  | zero => exact .inl ⟨_, rfl, trivial⟩
  | succ draws ih =>
    have hdraw := drawPart_cases h history stream
    rw [choosePartWithin]
    rcases hresult : rules.drawPart cursor history stream with ⟨error | drawn, rest⟩
    · rw [hresult] at hdraw
      rcases hdraw with ⟨e, he, hdrawn⟩ | ⟨code, next, _, _, he⟩
      · cases he
        exact .inl ⟨_, rfl, hdrawn⟩
      · cases he
    · cases drawn with
      | retry => exact ih rest
      | part code =>
        rw [hresult] at hdraw
        rcases hdraw with ⟨e, he, _⟩ | ⟨successor, next, hmem, hnext, he⟩
        · cases he
        · split at he
          · rename_i hallows
            cases he
            rw [← Grammar.successors_eq h] at hmem
            exact .inr ⟨_, rfl, hmem, next, hnext, hallows⟩
          · cases he

theorem choosePart_cases (h : rules.language.grammar.parts[cursor.code]? = some part)
    (history : History) (stream : RandomStream) :
    (∃ error, (rules.choosePart cursor history stream).1 = .error error ∧ error.FromDraw) ∨
    ∃ code, (rules.choosePart cursor history stream).1 = .ok code ∧
      rules.MayFollow cursor history code :=
  choosePartWithin_cases h history rules.config.partRetryLimit stream

theorem choosePart_ok (h : rules.language.grammar.parts[cursor.code]? = some part)
    (hok : (rules.choosePart cursor history stream).1 = .ok code) :
    rules.MayFollow cursor history code := by
  rcases choosePart_cases h history stream with ⟨error, he, _⟩ | ⟨chosen, he, hfollow⟩
  · exact absurd (hok.symm.trans he) (by simp)
  · cases hok.symm.trans he
    exact hfollow

theorem choosePart_error (h : rules.language.grammar.parts[cursor.code]? = some part)
    (herror : (rules.choosePart cursor history stream).1 = .error error) : error.FromDraw := by
  rcases choosePart_cases h history stream with ⟨_, he, hdrawn⟩ | ⟨chosen, he, _⟩
  · cases herror.symm.trans he
    exact hdrawn
  · exact absurd (herror.symm.trans he) (by simp)

theorem choosePart_ne_grammar (h : rules.language.grammar.parts[cursor.code]? = some part)
    (fault : GrammarError) :
    (rules.choosePart cursor history stream).1 ≠ .error (.grammar fault) :=
  fun herror => choosePart_error h herror

end Rules

end SentenceWalk
