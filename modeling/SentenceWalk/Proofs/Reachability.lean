import Mathlib.Data.List.Chain
import SentenceWalk.Proofs.DeadEnds

namespace SentenceWalk

open Relation (ReflTransGen)

structure Search where
  seen : NameSet := ∅
  pending : List String

namespace Search

def ofStart (grammar : Grammar) : Search where
  pending := [grammar.start]

/-- What a search may do next. It takes up any of the pending codes and, if it has not seen this
one, puts the successors anywhere among the others. -/
inductive Moves (grammar : Grammar) : Search → Search → Prop where
  | again {taken : String} {known : NameSet} (ht : listed.Perm (taken :: others))
      (hs : taken ∈ known) :
      Moves grammar ⟨known, listed⟩ ⟨known, others⟩
  | first {taken : String} {known : NameSet} (ht : listed.Perm (taken :: others))
      (hf : taken ∉ known) (hp : next.Perm (grammar.successors taken ++ others)) :
      Moves grammar ⟨known, listed⟩ ⟨known.insert taken, next⟩

end Search

variable {grammar : Grammar} {search before after : Search} {seen : NameSet} {code : String}

namespace Grammar

def successorCount (grammar : Grammar) : Nat :=
  (grammar.parts.keys.flatMap grammar.successors).length

theorem isStart_iff : grammar.isStart code = true ↔ grammar.role code = .ok .start := by
  constructor
  · intro h
    rw [isStart, Option.any_eq_true] at h
    obtain ⟨part, hp, hr⟩ := h
    rw [role_eq hp, eq_of_beq hr]
  · intro h
    obtain ⟨part, hp, hr⟩ := part_of_role h
    simp [isStart, hp, hr]

theorem start_le (hs : ¬ grammar.isStart "S" = true) (h : grammar.isStart code = true) :
    grammar.start ≤ code := by
  obtain ⟨part, hp, _⟩ := part_of_role (isStart_iff.1 h)
  have hlisted := mem_keys_of_part hp
  rw [start, if_neg hs]
  cases hfound : grammar.parts.keys.find? grammar.isStart with
  | none => exact absurd h (List.find?_eq_none.1 hfound code hlisted)
  | some first =>
    obtain ⟨_, smaller, larger, hkeys, hsmaller⟩ := List.find?_eq_some_iff_append.1 hfound
    have hordered := grammar.parts.ordered_keys
    rw [hkeys] at hlisted hordered
    rcases List.mem_append.1 hlisted with hmem | hmem
    · have hnot := hsmaller code hmem
      rw [h] at hnot
      cases hnot
    · rcases List.mem_cons.1 hmem with rfl | hlater
      · exact String.le_refl _
      · have hlt := List.rel_of_pairwise_cons (List.pairwise_append.1 hordered).2.1 hlater
        exact Std.le_of_lt (compareOfLessAndEq_eq_lt.1 hlt)

theorem unseenWork_insert_add_le (grammar : Grammar) (hf : code ∉ seen) :
    (grammar.unseenWork (seen.insert code) grammar.parts.keys).length +
        (grammar.successors code).length ≤
      (grammar.unseenWork seen grammar.parts.keys).length := by
  by_cases hlisted : code ∈ grammar.parts.keys
  · exact Nat.le_of_lt (grammar.unseenWork_insert hlisted hf)
  · rw [successors_eq_nil hlisted]
    exact grammar.unseenWork_insert_le seen code grammar.parts.keys

theorem length_unseenWork_empty (grammar : Grammar) :
    (grammar.unseenWork ∅ grammar.parts.keys).length = grammar.size + grammar.successorCount := by
  rw [size, ← Std.ExtTreeMap.length_keys, successorCount, unseenWork]
  induction grammar.parts.keys with
  | nil => rfl
  | cons code codes ih =>
    rw [List.flatMap_cons, List.flatMap_cons, List.length_append, ih]
    simp
    omega

end Grammar

namespace Search

def stepsLeft (grammar : Grammar) (search : Search) : Nat :=
  (grammar.unseenWork search.seen grammar.parts.keys).length + search.pending.length

theorem Moves.stepsLeft_lt (h : Moves grammar before after) :
    after.stepsLeft grammar < before.stepsLeft grammar := by
  cases h with
  | again ht hs =>
    have hlength := ht.length_eq
    simp only [stepsLeft, List.length_cons] at hlength ⊢
    omega
  | first ht hf hp =>
    have hbefore := ht.length_eq
    have hafter := hp.length_eq
    have hwork := grammar.unseenWork_insert_add_le hf
    simp only [stepsLeft, List.length_cons, List.length_append] at hbefore hafter ⊢
    omega

theorem length_le_stepsLeft {trail : List Search}
    (h : List.IsChain (Moves grammar) (search :: trail)) :
    trail.length ≤ search.stepsLeft grammar := by
  induction trail generalizing search with
  | nil => exact Nat.zero_le _
  | cons next trail ih =>
    obtain ⟨hstep, hrest⟩ := List.isChain_cons_cons.1 h
    have hlt := hstep.stepsLeft_lt
    have hle := ih hrest
    rw [List.length_cons]
    omega

theorem exists_step (hp : search.pending ≠ []) : ∃ next, Moves grammar search next := by
  obtain ⟨seen, pending⟩ := search
  obtain ⟨taken, others, rfl⟩ := List.exists_cons_of_ne_nil hp
  by_cases hs : taken ∈ seen
  · exact ⟨_, .again (.refl _) hs⟩
  · exact ⟨_, .first (.refl _) hs (.refl _)⟩

/-- Whether a search has come across a code. -/
def Meets (search : Search) (code : String) : Prop :=
  code ∈ search.seen ∨ code ∈ search.pending

/-- A step adds a code that the search has met to those that it has seen. What it meets in addition
are successors of this code, of which it has met all before if it had seen the code already. -/
theorem Moves.meets (h : Moves grammar before after) :
    ∃ taken, before.Meets taken ∧
      (∀ code, code ∈ after.seen ↔ code = taken ∨ code ∈ before.seen) ∧
      ∀ code, after.Meets code ↔
        before.Meets code ∨ taken ∉ before.seen ∧ code ∈ grammar.successors taken := by
  cases h with
  | @again listed others taken known ht hs =>
    refine ⟨taken, .inl hs, ?_, ?_⟩
    · intro code
      rw [or_iff_right_of_imp]
      rintro rfl
      exact hs
    · intro code
      rw [Meets, Meets, ht.mem_iff, List.mem_cons,
        or_iff_left (not_and_of_not_left _ (not_not.2 hs))]
      refine or_congr_right' fun hcode => (or_iff_right ?_).symm
      rintro rfl
      exact hcode hs
  | @first listed others next taken known ht hf hp =>
    have htaken : taken ∈ listed := ht.mem_iff.2 List.mem_cons_self
    have hinsert (code : String) : code ∈ known.insert taken ↔ code = taken ∨ code ∈ known := by
      rw [Std.ExtTreeSet.mem_insert, Std.compare_eq_iff_eq, eq_comm]
    refine ⟨taken, .inr htaken, hinsert, ?_⟩
    intro code
    simp only [Meets, hinsert, ht.mem_iff, hp.mem_iff, List.mem_append, List.mem_cons]
    tauto

/-- What holds of a search at any time: all that it has met lies on the way from the start, and it
has met the start and all successors of what it has seen. -/
structure Sound (grammar : Grammar) (search : Search) : Prop where
  comes : ∀ code, search.Meets code → grammar.Comes code
  start : search.Meets grammar.start
  closed : ∀ code ∈ search.seen, ∀ successor ∈ grammar.successors code, search.Meets successor

theorem sound_ofStart (grammar : Grammar) : Sound grammar (Search.ofStart grammar) := by
  have hstart (code : String) : (Search.ofStart grammar).Meets code ↔ code = grammar.start := by
    simp [Meets, ofStart]
  refine ⟨?_, (hstart _).2 rfl, ?_⟩
  · intro code hcode
    rw [(hstart code).1 hcode]
    exact .refl
  · intro code hcode
    exact absurd hcode Std.ExtTreeSet.not_mem_empty

theorem Sound.step (h : Sound grammar before) (hs : Moves grammar before after) :
    Sound grammar after := by
  obtain ⟨taken, htaken, hseen, hmeets⟩ := hs.meets
  refine ⟨?_, (hmeets _).2 (.inl h.start), ?_⟩
  · intro code hcode
    rcases (hmeets code).1 hcode with hbefore | ⟨_, hsuccessor⟩
    · exact h.comes code hbefore
    · exact (h.comes taken htaken).tail hsuccessor
  · intro code hcode successor hsuccessor
    apply (hmeets successor).2
    by_cases hknown : code ∈ before.seen
    · exact .inl (h.closed code hknown successor hsuccessor)
    · obtain rfl := ((hseen code).1 hcode).resolve_right hknown
      exact .inr ⟨hknown, hsuccessor⟩

theorem Sound.run (h : Sound grammar before) (hr : ReflTransGen (Moves grammar) before after) :
    Sound grammar after := by
  induction hr with
  | refl => exact h
  | tail _ hs ih => exact ih.step hs

theorem Sound.mem_seen_iff (h : Sound grammar search) (hd : search.pending = []) :
    code ∈ search.seen ↔ grammar.Comes code := by
  have hseen (code : String) : search.Meets code ↔ code ∈ search.seen := by
    rw [Meets, hd]
    exact or_iff_left List.not_mem_nil
  constructor
  · intro hcode
    exact h.comes code (.inl hcode)
  · intro hcomes
    induction hcomes with
    | refl => exact (hseen _).1 h.start
    | tail _ hsuccessor ih => exact (hseen _).1 (h.closed _ ih _ hsuccessor)

/-- One way to search is to take up the code that is listed first and to list its successors first.
-/
theorem run_reachFrom (grammar : Grammar) (seen : NameSet) (pending : List String) :
    ReflTransGen (Moves grammar) ⟨seen, pending⟩ ⟨grammar.reachFrom seen pending, []⟩ := by
  induction seen, pending using Grammar.reachFrom.induct grammar with
  | case1 seen =>
    rw [Grammar.reachFrom]
  | case2 seen code pending hs ih =>
    rw [Grammar.reachFrom, if_pos hs]
    exact ih.head (.again (.refl _) hs)
  | case3 seen code pending hf ih =>
    rw [Grammar.reachFrom, if_neg hf]
    exact ih.head (.first (.refl _) hf (.refl _))

end Search

namespace Grammar

theorem mem_reachable_iff : code ∈ grammar.reachable ↔ grammar.Comes code :=
  have hrun := Search.run_reachFrom grammar ∅ [grammar.start]
  ((Search.sound_ofStart grammar).run hrun).mem_seen_iff rfl

/-- Sentences begin at a part that begins sentences: at `S` if this does, else at the least code
that does. A search from there has no more steps to make than there are parts and successors and
one, and wherever it has come to, it goes on or has found the reachable codes. These are the codes
that successors lead to from the start in any number of steps, and all of them are defined. -/
theorem start_and_reachable (grammar : Grammar) :
    grammar.role grammar.start = .ok .start ∧
    (grammar.role "S" = .ok .start → grammar.start = "S") ∧
    (grammar.role "S" ≠ .ok .start →
      ∀ code, grammar.role code = .ok .start → grammar.start ≤ code) ∧
    (∀ trail, List.IsChain (Search.Moves grammar) ((Search.ofStart grammar) :: trail) →
      trail.length ≤ grammar.size + grammar.successorCount + 1) ∧
    (∀ search, ReflTransGen (Search.Moves grammar) (Search.ofStart grammar) search →
      (∃ next, Search.Moves grammar search next) ∨ search = ⟨grammar.reachable, []⟩) ∧
    ∀ code, (code ∈ grammar.reachable ↔
        ReflTransGen (fun code successor => successor ∈ grammar.successors code)
          grammar.start code) ∧
      (code ∈ grammar.reachable → ∃ part, grammar.parts[code]? = some part) := by
  refine ⟨isStart_iff.1 grammar.isStart_start, ?_, ?_, ?_, ?_, ?_⟩
  · intro hs
    exact if_pos (isStart_iff.2 hs)
  · intro hs code hcode
    exact start_le (mt isStart_iff.1 hs) (isStart_iff.2 hcode)
  · intro trail htrail
    rw [← length_unseenWork_empty]
    exact Search.length_le_stepsLeft htrail
  · intro search hrun
    by_cases hdone : search.pending = []
    · right
      obtain ⟨seen, pending⟩ := search
      obtain rfl : pending = [] := hdone
      have hsound := (Search.sound_ofStart grammar).run hrun
      rw [Search.mk.injEq]
      refine ⟨Std.ExtTreeSet.ext_mem fun code => ?_, rfl⟩
      rw [hsound.mem_seen_iff rfl, mem_reachable_iff]
    · exact .inl (Search.exists_step hdone)
  · intro code
    exact ⟨mem_reachable_iff, fun hcode => (mem_reachable_iff.1 hcode).part⟩

-- Sentences of this grammar can begin anew, and the part where they do is reached from the next.
example : Sample.refrainLanguage.grammar.reachable = .ofList ["AGAIN", "END", "IV", "S"] := by
  decide +kernel

end Grammar

end SentenceWalk
