import SentenceWalk.Proofs.NonnegativeNumbers
import SentenceWalk.Proofs.RejectedDraws

namespace SentenceWalk

namespace RandomStream

variable {α : Type} {items : List (α × Float)}

theorem nonneg_totalWeight (h : ∀ item ∈ items, 0 ≤ item.2) : 0 ≤ totalWeight items :=
  List.foldlRecOn items _ (by decide) fun _ hsum item hmem => add_nonneg_number hsum (h item hmem)

theorem chooseWeighted_of_nonneg (h : ∀ item ∈ items, 0 ≤ item.2) (stream : RandomStream) :
    let total := totalWeight items
    ((total == 0) = true ∧ total.isInf = false ∧ ¬ 0 < total ∧
      stream.chooseWeighted items = (.error .unusable, stream)) ∨
    ((total == 0) = false ∧ total.isInf = true ∧ total.isFinite = false ∧
      stream.chooseWeighted items = (.error .overflow, stream)) ∨
    ((total == 0) = false ∧ total.isInf = false ∧ 0 < total ∧ total.isFinite = true ∧
      ∃ item, stream.chooseWeighted items = (.ok item, stream.skip 2)) := by
  have hall : (items.all fun item => item.2 ≥ 0) = true := by
    simpa [List.all_eq_true] using h
  have hdrawable : drawableTotal items =
      if totalWeight items == 0 then .error .unusable
      else if (totalWeight items).isInf then .error .overflow
      else .ok (totalWeight items) := by
    rw [drawableTotal, if_pos hall]
  simp only [chooseWeighted, hdrawable]
  rcases nonneg_cases (nonneg_totalWeight h) with
    ⟨hzero, hinf, hpos⟩ | ⟨hzero, hinf, hfinite⟩ | ⟨hzero, hinf, hpos, hfinite⟩
  · exact .inl ⟨hzero, hinf, hpos, by rw [if_pos hzero]⟩
  · exact .inr (.inl ⟨hzero, hinf, hfinite, by simp only [hzero, hinf]; rfl⟩)
  · have hne : items ≠ [] := by
      rintro rfl
      have hempty : totalWeight ([] : List (α × Float)) = 0 := rfl
      rw [hempty] at hzero
      exact absurd hzero (by decide)
    obtain ⟨item, hitem⟩ := exists_landing hne (stream.peekPoint (totalWeight items)) 0
    refine .inr (.inr ⟨hzero, hinf, hpos, hfinite, item, ?_⟩)
    simp only [hzero, hinf, Bool.false_eq_true, if_false, hitem]

end RandomStream

namespace Rules

variable {rules : Rules} {cursor : Cursor} {history : History} {stream : RandomStream}
variable {code : String} {part : Part}

theorem nonneg_raiseEnd {grammar : Grammar} {bonus : Float} {items : List (String × Float)}
    (hbonus : 0 ≤ bonus) (h : ∀ item ∈ items, 0 ≤ item.2) :
    ∀ item ∈ raiseEnd grammar bonus items, 0 ≤ item.2 := by
  induction items with
  | nil => exact h
  | cons first rest ih =>
    obtain ⟨code, weight⟩ := first
    rw [List.forall_mem_cons] at h
    rw [raiseEnd]
    split
    · exact List.forall_mem_cons.2 ⟨add_nonneg_number h.1 hbonus, h.2⟩
    · exact List.forall_mem_cons.2 ⟨h.1, ih h.2⟩

theorem choices_nonneg (h : rules.language.grammar.parts[code]? = some part)
    (hstep : isWeight rules.config.endWeightStep = true) (length : Nat) :
    ∃ items, rules.choices code length = .ok items ∧ items.map Prod.fst = part.successors ∧
      ∀ item ∈ items, 0 ≤ item.2 := by
  have hfst : part.choices.map Prod.fst = part.successors :=
    List.map_fst_zip (Nat.le_of_eq (Grammar.length_weights h))
  have hnonneg : ∀ item ∈ part.choices, 0 ≤ item.2 := fun item hmem =>
    (isAmount_of_isWeight (Grammar.isWeight_of_mem h (List.of_mem_zip hmem).2)).nonneg
  rw [choices, Grammar.part_eq h]
  refine ⟨_, rfl, ?_⟩
  dsimp only
  split
  · rw [map_fst_raiseEnd]
    have hbonus := (isAmount_of_isWeight hstep).mul_nonneg
      (isAmount_toFloat (.ofNat (length - rules.config.lengthThreshold)))
    exact ⟨hfst, nonneg_raiseEnd hbonus hnonneg⟩
  · exact ⟨hfst, hnonneg⟩

theorem drawPart_of_infinite_total {items : List (String × Float)}
    (hitems : rules.choices cursor.code history.length = .ok items)
    (hnonneg : ∀ item ∈ items, 0 ≤ item.2)
    (hinf : (RandomStream.totalWeight items).isInf = true) :
    rules.drawPart cursor history stream = (.error (.weightOverflow cursor.code), stream) := by
  rcases RandomStream.chooseWeighted_of_nonneg hnonneg stream with
    ⟨_, hinf', _⟩ | ⟨_, _, _, hchoose⟩ | ⟨_, hinf', _⟩
  · exact absurd (hinf.symm.trans hinf') (by decide)
  · simp only [drawPart, hitems, hchoose]
  · exact absurd (hinf.symm.trans hinf') (by decide)

/-- A draw behind a part of the grammar overflows if and only if the weights, with the end raised,
add up to infinity, finds nothing if and only if they add up to zero, and otherwise comes to a part
or has to be repeated. -/
theorem drawPart_by_total (h : rules.language.grammar.parts[cursor.code]? = some part)
    (hstep : isWeight rules.config.endWeightStep = true) (history : History)
    (stream : RandomStream) :
    ∃ items, rules.choices cursor.code history.length = .ok items ∧
      items.map Prod.fst = part.successors ∧
      (rules.drawPart cursor history stream = (.error (.weightOverflow cursor.code), stream) ↔
        (RandomStream.totalWeight items).isInf = true) ∧
      (rules.drawPart cursor history stream = (.error (.noSuccessor cursor.code), stream) ↔
        (RandomStream.totalWeight items == 0) = true) ∧
      ((∃ drawn, rules.drawPart cursor history stream = (.ok drawn, stream.skip 2)) ↔
        0 < RandomStream.totalWeight items ∧
          (RandomStream.totalWeight items).isFinite = true) := by
  obtain ⟨items, hitems, hfst, hnonneg⟩ := choices_nonneg h hstep history.length
  refine ⟨items, hitems, hfst, ?_⟩
  rcases RandomStream.chooseWeighted_of_nonneg hnonneg stream with
    ⟨hzero, hinf, hpos, hchoose⟩ | ⟨hzero, hinf, hfinite, _⟩ |
      ⟨hzero, hinf, hpos, hfinite, code, hchoose⟩
  · have hdraw : rules.drawPart cursor history stream =
        (.error (.noSuccessor cursor.code), stream) := by
      simp only [drawPart, hitems, hchoose]
    simp [hdraw, hzero, hinf, hpos]
  · simp [drawPart_of_infinite_total hitems hnonneg hinf, hzero, hinf, hfinite]
  · obtain ⟨drawn, hdraw⟩ := drawPart_of_chosen h hitems (fun _ hs => hfst ▸ hs) hchoose
    simp [hdraw, hzero, hinf, hpos, hfinite]

end Rules

/-! Weights that are in order one by one and too large together. -/

namespace Sample

def heavyParts : List (String × Part) := [
  ("S", ⟨.start, ["IV", "END"], [1e308, 1e308], ∅⟩),
  ("IV", ⟨.verb, ["IV", "END"], [1, 1], .ofList ["IV"]⟩),
  ("END", ⟨.finish, [], [], ∅⟩)]

def heavyGrammar : Grammar where
  parts := .ofList heavyParts
  sound := Option.isNone_iff_eq_none.1 (by decide +kernel)

def heavy : Rules where
  language := { grammar := heavyGrammar, hierarchy := {}, lexicon := {} }
  config := { lengthThreshold := 0, endWeightStep := 1e308 }

/-- What has been passed behind the first verb, and behind the second. -/
def shortHistory : History := { visits := [⟨"S", .start⟩] }
def longHistory : History := { visits := [⟨"IV", .verb⟩, ⟨"S", .start⟩] }

end Sample

theorem Rules.drawPart_by_total_heavy :
    Sample.heavy.drawPart { code := "S" } {} (.ofSeed 0) =
      (.error (.weightOverflow "S"), .ofSeed 0) ∧
    ∃ drawn, Sample.heavy.drawPart { code := "IV" } Sample.shortHistory (.ofSeed 0) =
      (.ok drawn, (RandomStream.ofSeed 0).skip 2) := by
  have hstep : isWeight Sample.heavy.config.endWeightStep = true := by decide +kernel
  constructor
  · let cursor : Cursor := { code := "S" }
    obtain ⟨part, hpart⟩ := Option.isSome_iff_exists.1
      (show (Sample.heavy.language.grammar.parts[cursor.code]?).isSome = true by decide +kernel)
    obtain ⟨items, hitems, _, hoverflow, _⟩ := drawPart_by_total hpart hstep {} (.ofSeed 0)
    have htotal : (Sample.heavy.choices "S" 0).toOption.map
        (fun items => (RandomStream.totalWeight items).isInf) = some true := by decide +kernel
    rw [show Sample.heavy.choices "S" 0 = .ok items from hitems] at htotal
    exact hoverflow.2 (Option.some.inj htotal)
  · let cursor : Cursor := { code := "IV" }
    obtain ⟨part, hpart⟩ := Option.isSome_iff_exists.1
      (show (Sample.heavy.language.grammar.parts[cursor.code]?).isSome = true by decide +kernel)
    obtain ⟨items, hitems, _, _, _, hdrawn⟩ :=
      drawPart_by_total hpart hstep Sample.shortHistory (.ofSeed 0)
    have htotal : (Sample.heavy.choices "IV" 1).toOption.map
        (fun items => decide (0 < RandomStream.totalWeight items ∧
          (RandomStream.totalWeight items).isFinite = true)) = some true := by decide +kernel
    rw [show Sample.heavy.choices "IV" 1 = .ok items from hitems] at htotal
    exact hdrawn.2 (of_decide_eq_true (Option.some.inj htotal))

/-- A grammar is accepted and a draw overflows nonetheless: behind the start by the weights
themselves, and behind the second verb because the end has been raised twice. -/
theorem Rules.accepted_weights_overflow :
    Grammar.ofParts Sample.heavyParts = .ok Sample.heavyGrammar ∧
    isWeight Sample.heavy.config.endWeightStep = true ∧
    Sample.heavy.drawPart { code := "S" } {} (.ofSeed 0) =
      (.error (.weightOverflow "S"), .ofSeed 0) ∧
    Sample.heavy.drawPart { code := "IV" } Sample.longHistory (.ofSeed 0) =
      (.error (.weightOverflow "IV"), .ofSeed 0) := by
  refine ⟨?_, by decide +kernel, ?_, ?_⟩
  · rw [Grammar.ofParts]
    split
    · rename_i fault hfault
      exact absurd (hfault.symm.trans Sample.heavyGrammar.sound) (by simp)
    · rfl
  · have hchoices : Sample.heavy.choices "S" 0 = .ok [("IV", 1e308), ("END", 1e308)] :=
      eq_ok_of_toOption (by decide +kernel)
    exact drawPart_of_infinite_total hchoices (by decide +kernel) (by decide +kernel)
  · have hchoices : Sample.heavy.choices "IV" 2 = .ok [("IV", 1), ("END", 1 + 1e308 * 2)] :=
      eq_ok_of_toOption (by decide +kernel)
    exact drawPart_of_infinite_total hchoices (by decide +kernel) (by decide +kernel)

end SentenceWalk
