import Std.Data.ExtTreeMap
import Std.Data.ExtTreeSet

/-!
Sets of names and tables keyed by name. Both are listed in code point order, and two of them are
equal as soon as they agree on every name.
-/

namespace SentenceWalk

abbrev NameSet := Std.ExtTreeSet String

abbrev NameMap (α : Type) := Std.ExtTreeMap String α

instance : DecidableEq NameSet := fun s t =>
  decidable_of_iff (s.toList = t.toList) <| by
    constructor
    · intro h
      apply Std.ExtTreeSet.ext_mem
      intro name
      rw [← Std.ExtTreeSet.mem_toList, ← Std.ExtTreeSet.mem_toList, h]
    · rintro rfl
      rfl

def NameSet.ofList (names : List String) : NameSet :=
  Std.ExtTreeSet.ofList names

@[simp]
theorem NameSet.mem_ofList {names : List String} {name : String} :
    name ∈ NameSet.ofList names ↔ name ∈ names := by
  simp [NameSet.ofList]

theorem NameSet.erase_insert {set : NameSet} {name : String} (hfresh : name ∉ set) :
    (set.insert name).erase name = set := by
  apply Std.ExtTreeSet.ext_mem
  intro other
  rw [Std.ExtTreeSet.mem_erase, Std.ExtTreeSet.mem_insert, ne_eq, Std.compare_eq_iff_eq]
  constructor
  · rintro ⟨hne, heq | hmem⟩
    · exact absurd heq hne
    · exact hmem
  · intro hmem
    have hne : name ≠ other := fun heq => hfresh (heq ▸ hmem)
    exact ⟨hne, .inr hmem⟩

def NameSet.missing (set : NameSet) (names : List String) : Nat :=
  names.countP (· ∉ set)

theorem NameSet.missing_insert_le (set : NameSet) (names : List String) (name : String) :
    NameSet.missing (set.insert name) names ≤ NameSet.missing set names := by
  refine List.countP_mono_left fun other _ h => ?_
  simp_all

theorem NameSet.missing_insert_lt {set : NameSet} {names : List String} {name : String}
    (hlisted : name ∈ names) (hfresh : name ∉ set) :
    NameSet.missing (set.insert name) names < NameSet.missing set names := by
  induction names with
  | nil => simp at hlisted
  | cons first rest ih =>
    have hle : NameSet.missing (set.insert name) rest ≤ NameSet.missing set rest :=
      NameSet.missing_insert_le set rest name
    unfold NameSet.missing at hle ih ⊢
    rw [List.countP_cons, List.countP_cons]
    by_cases hsame : first = name
    · subst hsame
      rw [if_neg (by simp), if_pos (by simpa using hfresh)]
      omega
    · have := ih ((List.mem_cons.1 hlisted).resolve_left (Ne.symm hsame))
      simp only [Std.ExtTreeSet.mem_insert, Std.compare_eq_iff_eq, Ne.symm hsame, false_or]
        at this ⊢
      omega

end SentenceWalk
