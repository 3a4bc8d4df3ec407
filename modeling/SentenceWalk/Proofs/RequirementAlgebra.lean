import SentenceWalk.Pending

namespace SentenceWalk.Pending

variable {current incoming : NameSet} {name : String} {pending : Pending}

theorem isConstrained_iff : pending.isConstrained = true ↔ pending.active ≠ ∅ := by
  simp [isConstrained]

theorem combine_of_ne_empty (hc : current ≠ ∅) (hi : incoming ≠ ∅) :
    combine current incoming = current ∩ incoming := by
  rw [combine, if_neg (by simpa using hi), if_neg (by simpa using hc)]

theorem combine_of_inter_ne_empty (h : current ∩ incoming ≠ ∅) :
    combine current incoming = current ∩ incoming := by
  apply combine_of_ne_empty
  · rintro rfl
    exact h (Std.ExtTreeSet.ext_mem (by simp))
  · rintro rfl
    exact h (Std.ExtTreeSet.ext_mem (by simp))

theorem of_mem_combine (h : name ∈ combine current incoming) :
    (current ≠ ∅ → name ∈ current) ∧ (incoming ≠ ∅ → name ∈ incoming) := by
  by_cases hi : incoming = ∅
  · subst hi
    rw [combine_empty_right] at h
    exact ⟨fun _ => h, fun hne => absurd rfl hne⟩
  · by_cases hc : current = ∅
    · subst hc
      rw [combine_empty_left] at h
      exact ⟨fun hne => absurd rfl hne, fun _ => h⟩
    · rw [combine_of_ne_empty hc hi] at h
      obtain ⟨hcurrent, hincoming⟩ := Std.ExtTreeSet.mem_inter_iff.1 h
      exact ⟨fun _ => hcurrent, fun _ => hincoming⟩

/-- Two requirements of which one requires nothing or some name meets both. -/
def Compatible (current incoming : NameSet) : Prop :=
  current = ∅ ∨ incoming = ∅ ∨ current ∩ incoming ≠ ∅

instance : Decidable (Compatible current incoming) :=
  inferInstanceAs (Decidable (current = ∅ ∨ incoming = ∅ ∨ current ∩ incoming ≠ ∅))

theorem not_compatible_iff :
    ¬ Compatible current incoming ↔ current ≠ ∅ ∧ incoming ≠ ∅ ∧ current ∩ incoming = ∅ := by
  simp [Compatible]

theorem combine_eq_empty_iff :
    combine current incoming = ∅ ↔
      (current = ∅ ∧ incoming = ∅) ∨
        (current ≠ ∅ ∧ incoming ≠ ∅ ∧ current ∩ incoming = ∅) := by
  by_cases hi : incoming = ∅
  · subst hi
    simp
  · by_cases hc : current = ∅
    · subst hc
      simp [hi]
    · simp [combine_of_ne_empty hc hi, hc, hi]

theorem Compatible.combine_eq_empty_iff (h : Compatible current incoming) :
    combine current incoming = ∅ ↔ current = ∅ ∧ incoming = ∅ := by
  rw [Pending.combine_eq_empty_iff]
  constructor
  · rintro (hnone | ⟨hc, hi, hdisjoint⟩)
    · exact hnone
    · rcases h with h | h | h
      · exact absurd h hc
      · exact absurd h hi
      · exact absurd hdisjoint h
  · exact .inl

theorem Compatible.of_mem_combine (h : Compatible current incoming)
    (hmem : combine current incoming ≠ ∅ → name ∈ combine current incoming) :
    (current ≠ ∅ → name ∈ current) ∧ (incoming ≠ ∅ → name ∈ incoming) := by
  constructor
  · intro hne
    have hboth : combine current incoming ≠ ∅ :=
      fun hempty => hne (h.combine_eq_empty_iff.1 hempty).1
    exact (Pending.of_mem_combine (hmem hboth)).1 hne
  · intro hne
    have hboth : combine current incoming ≠ ∅ :=
      fun hempty => hne (h.combine_eq_empty_iff.1 hempty).2
    exact (Pending.of_mem_combine (hmem hboth)).2 hne

theorem exists_mem_of_ne_empty {names : NameSet} (h : names ≠ ∅) : ∃ name, name ∈ names := by
  apply Classical.byContradiction
  intro hnone
  apply h
  apply Std.ExtTreeSet.ext_mem
  intro name
  exact iff_of_false (fun hmem => hnone ⟨name, hmem⟩) Std.ExtTreeSet.not_mem_empty

theorem inter_eq_left (h : ∀ name ∈ current, name ∈ incoming) : current ∩ incoming = current := by
  apply Std.ExtTreeSet.ext_mem
  intro name
  rw [Std.ExtTreeSet.mem_inter_iff]
  constructor
  · intro hmem
    exact hmem.1
  · intro hmem
    exact ⟨hmem, h name hmem⟩

theorem combine_combine_self (h : combine current incoming ≠ ∅) :
    combine (combine current incoming) incoming = combine current incoming := by
  by_cases hi : incoming = ∅
  · subst hi
    rw [combine_empty_right, combine_empty_right]
  · rw [combine_of_ne_empty h hi]
    apply inter_eq_left
    intro name hmem
    exact (of_mem_combine hmem).2 hi

/-- Adding a requirement again changes nothing, unless it has been cancelled at first: then it is
adopted. -/
theorem combine_combine (current incoming : NameSet) :
    combine (combine current incoming) incoming =
      if combine current incoming = ∅ then incoming else combine current incoming := by
  by_cases hnone : combine current incoming = ∅
  · rw [if_pos hnone, hnone, combine_empty_left]
  · rw [if_neg hnone]
    exact combine_combine_self hnone

theorem combine_combine_eq_iff :
    combine (combine current incoming) incoming = combine current incoming ↔
      Compatible current incoming := by
  rw [combine_combine]
  constructor
  · intro htwice
    apply Classical.byContradiction
    intro hconflict
    obtain ⟨hc, hi, hdisjoint⟩ := not_compatible_iff.1 hconflict
    have hnone : combine current incoming = ∅ :=
      Pending.combine_eq_empty_iff.2 (.inr ⟨hc, hi, hdisjoint⟩)
    rw [if_pos hnone, hnone] at htwice
    exact hi htwice
  · intro h
    split
    · rename_i hnone
      rw [hnone]
      exact (h.combine_eq_empty_iff.1 hnone).2
    · rfl

end SentenceWalk.Pending
