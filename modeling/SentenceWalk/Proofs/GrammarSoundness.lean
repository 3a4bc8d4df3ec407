import SentenceWalk.Grammar

namespace SentenceWalk

theorem eq_ok_of_toOption {ε α : Type} {result : Except ε α} {value : α}
    (h : result.toOption = some value) : result = .ok value := by
  cases result with
  | error error => cases h
  | ok found => exact congrArg Except.ok (Option.some.inj h)

namespace Grammar

variable {grammar : Grammar} {code : String} {part : Part} {role : Role}

theorem part_eq (h : grammar.parts[code]? = some part) : grammar.part code = .ok part := by
  rw [Grammar.part, h]

theorem role_eq (h : grammar.parts[code]? = some part) : grammar.role code = .ok part.role := by
  rw [Grammar.role, part_eq h]
  rfl

theorem successors_eq (h : grammar.parts[code]? = some part) :
    grammar.successors code = part.successors := by
  rw [successors, h]
  rfl

theorem mem_keys_of_part (h : grammar.parts[code]? = some part) : code ∈ grammar.parts.keys := by
  rw [Std.ExtTreeMap.mem_keys, ← Std.ExtTreeMap.isSome_getElem?_iff_mem, h]
  rfl

theorem part_of_role (h : grammar.role code = .ok role) :
    ∃ part, grammar.parts[code]? = some part ∧ part.role = role := by
  cases hp : grammar.parts[code]? with
  | none => simp [Grammar.role, Grammar.part, hp, Except.map] at h
  | some part =>
    rw [role_eq hp] at h
    exact ⟨part, rfl, Except.ok.inj h⟩

theorem fault?_of_part (h : grammar.parts[code]? = some part) :
    part.fault? grammar.parts code = none := by
  have hsound := grammar.sound
  rw [fault?] at hsound
  split at hsound
  · cases hsound
  · rename_i hnone
    rw [List.findSome?_eq_none_iff] at hnone
    exact hnone (code, part) (Std.ExtTreeMap.mem_toList_iff_getElem?_eq_some.2 h)

theorem length_weights (h : grammar.parts[code]? = some part) :
    part.successors.length = part.weights.length := by
  have hfault := fault?_of_part h
  rw [Part.fault?] at hfault
  split at hfault
  · cases hfault
  · rename_i hlength
    exact Decidable.not_not.1 hlength

theorem isWeight_of_mem (h : grammar.parts[code]? = some part) {weight : Float}
    (hw : weight ∈ part.weights) : isWeight weight = true := by
  have hfault := fault?_of_part h
  rw [Part.fault?] at hfault
  split at hfault
  · cases hfault
  · split at hfault
    · cases hfault
    · rename_i hnone
      simpa using List.find?_eq_none.1 hnone weight hw

theorem successor_defined (h : grammar.parts[code]? = some part) {successor : String}
    (hs : successor ∈ part.successors) : ∃ next, grammar.parts[successor]? = some next := by
  have hfault := fault?_of_part h
  rw [Part.fault?] at hfault
  split at hfault
  · cases hfault
  · split at hfault
    · cases hfault
    · rw [Option.map_eq_none_iff, List.find?_eq_none] at hfault
      have hdefined : grammar.parts.contains successor = true := by
        simpa using hfault successor hs
      rw [Std.ExtTreeMap.contains_eq_isSome_getElem?] at hdefined
      exact Option.isSome_iff_exists.1 hdefined

theorem exists_role (hr : role = .start ∨ role = .finish) :
    ∃ (code : String) (part : Part), grammar.parts[code]? = some part ∧ part.role = role := by
  have hsound := grammar.sound
  rw [fault?] at hsound
  split at hsound
  · cases hsound
  · rw [Option.map_eq_none_iff, List.find?_eq_none] at hsound
    have hrole : hasRole grammar.parts role = true := by
      rcases hr with rfl | rfl <;> simpa using hsound _ (by simp)
    obtain ⟨⟨code, part⟩, hmem, hpart⟩ := List.any_eq_true.1 hrole
    exact ⟨code, part, Std.ExtTreeMap.mem_toList_iff_getElem?_eq_some.1 hmem, by simpa using hpart⟩

theorem isStart_start : grammar.isStart grammar.start = true := by
  rw [start]
  split
  · assumption
  · obtain ⟨code, part, hp, hr⟩ := grammar.exists_role (.inl rfl)
    have hstart : grammar.isStart code = true := by simp [isStart, hp, hr]
    cases hf : grammar.parts.keys.find? grammar.isStart with
    | none => exact absurd hstart (List.find?_eq_none.1 hf code (mem_keys_of_part hp))
    | some first => exact List.find?_some hf

theorem part_start :
    ∃ part, grammar.parts[grammar.start]? = some part ∧ part.role = .start := by
  have h := grammar.isStart_start
  rw [isStart] at h
  obtain ⟨part, hp, hr⟩ := (Option.any_eq_true ..).1 h
  exact ⟨part, hp, by simpa using hr⟩

end Grammar

end SentenceWalk
