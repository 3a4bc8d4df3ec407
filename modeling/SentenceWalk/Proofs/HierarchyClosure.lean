import SentenceWalk.Hierarchy
import SentenceWalk.Proofs.Descent
import SentenceWalk.Proofs.GrammarSoundness

namespace SentenceWalk

open Relation (TransGen)

/-- What holds behind a fold held before it or is due to one of the items, if that is so for each
step. -/
theorem foldl_iff {α β : Type} (holds : β → Prop) {step : β → α → β} {adds : α → Prop}
    (h : ∀ state item, holds (step state item) ↔ holds state ∨ adds item) (items : List α)
    (state : β) : holds (items.foldl step state) ↔ holds state ∨ ∃ item ∈ items, adds item := by
  induction items generalizing state with
  | nil => simp
  | cons item items ih =>
    rw [List.foldl_cons, ih, h, or_assoc]
    simp only [List.mem_cons, exists_eq_or_imp]

/-- Whether one of the edges puts `child` right below `parent`. The name that stands for no category
is put nowhere and has nothing below it. -/
def Edge.Joins (edges : List Edge) (parent child : String) : Prop :=
  ⟨child, parent⟩ ∈ edges ∧ child ≠ noCategory ∧ parent ≠ noCategory

def Edge.IsDeclared (edges : List Edge) (name : String) : Prop :=
  name ≠ noCategory ∧ ∃ edge ∈ edges, edge.child = name

theorem Edge.declares_iff {edge : Edge} : edge.declares = true ↔ edge.child ≠ noCategory := by
  simp [declares]

theorem Edge.links_iff {edge : Edge} :
    edge.links = true ↔ edge.child ≠ noCategory ∧ edge.parent ≠ noCategory := by
  simp [links, declares]

theorem Edge.joins_iff {edges : List Edge} {parent child : String} :
    Joins edges parent child ↔
      ∃ edge ∈ edges, edge.links = true ∧ edge.parent = parent ∧ edge.child = child := by
  constructor
  · rintro ⟨hmem, hends⟩
    exact ⟨_, hmem, links_iff.2 hends, rfl, rfl⟩
  · rintro ⟨edge, hmem, hl, rfl, rfl⟩
    exact ⟨hmem, links_iff.1 hl⟩

namespace Links

variable {links : Links} {edge : Edge} {edges : List Edge} {name parent child : String}

theorem child_insertIfNew :
    Child (links.insertIfNew name []) parent child ↔ links.Child parent child := by
  rw [Child, Child, Std.ExtTreeMap.getD_insertIfNew]
  split
  · rename_i hnew
    obtain ⟨heq, hnew⟩ := hnew
    obtain rfl := Std.compare_eq_iff_eq.1 heq
    rw [Std.ExtTreeMap.getD_eq_fallback hnew]
  · rfl

theorem child_insert (new : String) {children : List String}
    (h : ∀ listed, listed ∈ children ↔ links.Child name listed ∨ listed = new) :
    Child (links.insert name children) parent child ↔
      links.Child parent child ∨ name = parent ∧ new = child := by
  rw [Child, Std.ExtTreeMap.getD_insert]
  split
  · rename_i heq
    obtain rfl := Std.compare_eq_iff_eq.1 heq
    rw [h, eq_comm]
    simp
  · rename_i hne
    have hne : name ≠ parent := by simpa using hne
    simp [hne, Child]

theorem child_addEdge (links : Links) (edge : Edge) :
    (links.addEdge edge).Child parent child ↔
    links.Child parent child ∨
      edge.links = true ∧ edge.parent = parent ∧ edge.child = child := by
  by_cases hd : edge.declares = true
  · rw [addEdge, if_pos hd]
    dsimp only
    by_cases hl : edge.links = true
    · rw [if_pos hl, child_insert edge.child, child_insertIfNew]
      · simp [hl]
      · intro listed
        split
        · rename_i hlisted
          have hchild : Child (links.insertIfNew edge.child []) edge.parent edge.child :=
            List.contains_iff_mem.1 hlisted
          constructor
          · exact .inl
          · rintro (hmem | rfl)
            · exact hmem
            · exact hchild
        · rw [List.mem_append, List.mem_singleton]
          rfl
    · rw [if_neg hl, child_insertIfNew]
      simp [hl]
  · have hl : ¬ edge.links = true := fun hl => hd (Edge.declares_iff.2 (Edge.links_iff.1 hl).1)
    rw [addEdge, if_neg hd]
    simp [hl]

theorem mem_addEdge (links : Links) (edge : Edge) : name ∈ links.addEdge edge ↔
    name ∈ links ∨ edge.declares = true ∧ edge.child = name ∨
      edge.links = true ∧ edge.parent = name := by
  by_cases hd : edge.declares = true
  · rw [addEdge, if_pos hd]
    dsimp only
    by_cases hl : edge.links = true
    · rw [if_pos hl, Std.ExtTreeMap.mem_insert, Std.ExtTreeMap.mem_insertIfNew]
      simp [hd, hl, or_comm, or_assoc, or_left_comm]
    · rw [if_neg hl, Std.ExtTreeMap.mem_insertIfNew]
      simp [hd, hl, or_comm]
  · have hl : ¬ edge.links = true := fun hl => hd (Edge.declares_iff.2 (Edge.links_iff.1 hl).1)
    rw [addEdge, if_neg hd]
    simp [hd, hl]

theorem child_foldl_addEdge : Child (edges.foldl addEdge links) parent child ↔
    links.Child parent child ∨ Edge.Joins edges parent child := by
  rw [Edge.joins_iff]
  exact foldl_iff (fun links => Child links parent child) child_addEdge edges links

theorem mem_foldl_addEdge : name ∈ edges.foldl addEdge links ↔
    name ∈ links ∨ ∃ edge ∈ edges, edge.declares = true ∧ edge.child = name ∨
      edge.links = true ∧ edge.parent = name :=
  foldl_iff (fun links => name ∈ links) mem_addEdge edges links

theorem child_ofEdges : Child (edges.foldl addEdge ∅) parent child ↔
    Edge.Joins edges parent child := by
  rw [child_foldl_addEdge, or_iff_right]
  exact not_child (by simp)

theorem above_ofEdges : Above (edges.foldl addEdge ∅) parent child ↔
    TransGen (Edge.Joins edges) parent child := by
  have hsame : Child (edges.foldl addEdge ∅) = Edge.Joins edges := by
    funext parent child
    exact propext child_ofEdges
  rw [Above, hsame]

end Links

namespace Hierarchy

variable {edges : List Edge} {hierarchy : Hierarchy} {name category parent child : String}

theorem ofEdges_ok (h : ofEdges edges = .ok hierarchy) :
    undeclared? edges = none ∧ (edges.foldl Links.addEdge ∅).close = .ok hierarchy.below := by
  rw [ofEdges] at h
  split at h
  · cases h
  · rename_i hnone
    split at h
    · rename_i below hclose
      cases h
      exact ⟨hnone, hclose⟩
    · cases h

theorem isDeclared_of_joins (h : undeclared? edges = none) (hj : Edge.Joins edges parent child) :
    Edge.IsDeclared edges parent := by
  rw [undeclared?, List.find?_eq_none] at h
  have hl : (⟨child, parent⟩ : Edge).links = true := Edge.links_iff.2 hj.2
  have hany := h _ hj.1
  rw [hl, Bool.true_and, Bool.not_eq_true', Bool.not_eq_false, List.any_eq_true] at hany
  obtain ⟨edge, hmem, hdeclares⟩ := hany
  rw [Bool.and_eq_true, beq_iff_eq] at hdeclares
  exact ⟨hj.2.2, edge, hmem, hdeclares.2⟩

theorem mem_links_iff (h : undeclared? edges = none) :
    name ∈ edges.foldl Links.addEdge ∅ ↔ Edge.IsDeclared edges name := by
  rw [Links.mem_foldl_addEdge, or_iff_right (by simp)]
  constructor
  · rintro ⟨edge, hmem, ⟨hd, rfl⟩ | ⟨hl, rfl⟩⟩
    · exact ⟨Edge.declares_iff.1 hd, edge, hmem, rfl⟩
    · exact isDeclared_of_joins h (Edge.joins_iff.2 ⟨edge, hmem, hl, rfl, rfl⟩)
  · rintro ⟨hne, edge, hmem, rfl⟩
    exact ⟨edge, hmem, .inl ⟨Edge.declares_iff.2 hne, rfl⟩⟩

theorem isDeclared_of_above (h : TransGen (Edge.Joins edges) parent child) :
    Edge.IsDeclared edges child := by
  obtain ⟨_, _, hj⟩ := TransGen.tail'_iff.1 h
  exact ⟨hj.2.1, _, hj.1, rfl⟩

theorem mem_below_iff (h : ofEdges edges = .ok hierarchy) :
    name ∈ hierarchy.below ↔ Edge.IsDeclared edges name := by
  obtain ⟨hnone, hclose⟩ := ofEdges_ok h
  obtain ⟨_, hall, honly⟩ := Links.close_ok hclose
  constructor
  · intro hmem
    obtain ⟨first, hfirst, hleads⟩ := honly name hmem
    rcases Links.leads_iff.1 hleads with rfl | habove
    · exact (mem_links_iff hnone).1 hfirst
    · exact isDeclared_of_above (Links.above_ofEdges.1 habove)
  · intro hdeclared
    exact hall name ((mem_links_iff hnone).2 hdeclared)

theorem exists_ofEdges_iff : (∃ hierarchy, ofEdges edges = .ok hierarchy) ↔
    (∀ parent child, Edge.Joins edges parent child → Edge.IsDeclared edges parent) ∧
      ∀ name, ¬ TransGen (Edge.Joins edges) name name := by
  constructor
  · rintro ⟨hierarchy, h⟩
    refine ⟨fun _ _ => isDeclared_of_joins (ofEdges_ok h).1, ?_⟩
    intro name hself
    have hmem : name ∈ hierarchy.below := (mem_below_iff h).2 (isDeclared_of_above hself)
    obtain ⟨below, hbelow⟩ := Option.isSome_iff_exists.1
      (Std.ExtTreeMap.isSome_getElem?_iff_mem.2 hmem)
    exact (Links.close_ok (ofEdges_ok h).2).1.not_self hbelow (Links.above_ofEdges.2 hself)
  · rintro ⟨hdeclared, hacyclic⟩
    have hnone : undeclared? edges = none := by
      rw [undeclared?, List.find?_eq_none]
      intro edge hmem
      rw [Bool.and_eq_true, Bool.not_eq_true', not_and, Bool.not_eq_false, List.any_eq_true]
      intro hl
      obtain ⟨hne, other, hother, hchild⟩ :=
        hdeclared _ _ (Edge.joins_iff.2 ⟨edge, hmem, hl, rfl, rfl⟩)
      refine ⟨other, hother, Bool.and_eq_true_iff.2 ⟨Edge.declares_iff.2 ?_, beq_iff_eq.2 hchild⟩⟩
      rwa [hchild]
    rw [ofEdges, hnone]
    obtain ⟨below, hclose, _⟩ | ⟨back, _, hback⟩ :=
      Links.closeFrom_cases (Links.exact_empty (edges.foldl Links.addEdge ∅))
        (edges.foldl Links.addEdge ∅).keys
    · rw [Links.close, hclose]
      exact ⟨_, rfl⟩
    · exact absurd (Links.above_ofEdges.1 hback) (hacyclic back)

theorem exists_below (h : ofEdges edges = .ok hierarchy) (hd : Edge.IsDeclared edges name) :
    ∃ below, hierarchy.below[name]? = some below ∧
      ∀ other, other ∈ below ↔ TransGen (Edge.Joins edges) name other := by
  obtain ⟨below, hbelow⟩ := Option.isSome_iff_exists.1
    (Std.ExtTreeMap.isSome_getElem?_iff_mem.2 ((mem_below_iff h).2 hd))
  refine ⟨below, hbelow, fun other => ?_⟩
  rw [(Links.close_ok (ofEdges_ok h).2).1.mem_iff hbelow, Links.above_ofEdges]

theorem getElem?_below_iff (h : ofEdges edges = .ok hierarchy) {below : NameSet} :
    hierarchy.below[name]? = some below ↔
      Edge.IsDeclared edges name ∧
        ∀ other, other ∈ below ↔ TransGen (Edge.Joins edges) name other := by
  constructor
  · intro hbelow
    have hdeclared : Edge.IsDeclared edges name :=
      (mem_below_iff h).1 (Std.ExtTreeMap.isSome_getElem?_iff_mem.1 (by simp [hbelow]))
    obtain ⟨found, hfound, hmem⟩ := exists_below h hdeclared
    cases hfound.symm.trans hbelow
    exact ⟨hdeclared, hmem⟩
  · rintro ⟨hdeclared, hmem⟩
    obtain ⟨found, hfound, hiff⟩ := exists_below h hdeclared
    rw [hfound]
    refine congrArg some (Std.ExtTreeSet.ext_mem fun other => ?_)
    rw [hiff, hmem]

/-- The categories are the names that edges declare, and below each of them lie exactly the names to
which edges lead down from it, itself not among them. -/
theorem descendants_of_edges (h : ofEdges edges = .ok hierarchy) :
    (∀ name, name ∈ hierarchy.categories ↔
      name ≠ noCategory ∧ ∃ edge ∈ edges, edge.child = name) ∧
    ∀ category ∈ hierarchy.categories, ∃ below, hierarchy.descendants? category = some below ∧
      (∀ name, name ∈ below ↔ TransGen (Edge.Joins edges) category name) ∧ category ∉ below := by
  have hcategories : ∀ name, name ∈ hierarchy.categories ↔ Edge.IsDeclared edges name := by
    intro name
    rw [categories, Std.ExtTreeMap.mem_keys, mem_below_iff h]
  refine ⟨hcategories, ?_⟩
  intro category hmem
  obtain ⟨hexact, _, _⟩ := Links.close_ok (ofEdges_ok h).2
  obtain ⟨below, hbelow⟩ := Option.isSome_iff_exists.1
    (Std.ExtTreeMap.isSome_getElem?_iff_mem.2 (Std.ExtTreeMap.mem_keys.1 hmem))
  refine ⟨below, ?_, ?_, ?_⟩
  · rw [descendants?, if_neg ((hcategories category).1 hmem).1, hbelow]
  · intro name
    rw [hexact.mem_iff hbelow, Links.above_ofEdges]
  · rw [hexact.mem_iff hbelow]
    exact hexact.not_self hbelow

end Hierarchy

/-! A category with two parents that have one parent themselves. -/

namespace Sample

def diamond : List Edge :=
  [⟨"top", noCategory⟩, ⟨"left", "top"⟩, ⟨"right", "top"⟩, ⟨"bottom", "left"⟩, ⟨"bottom", "right"⟩]

end Sample

theorem Hierarchy.descendants_of_edges_diamond :
    ∃ hierarchy, ofEdges Sample.diamond = .ok hierarchy ∧ "bottom" ∈ hierarchy.categories ∧
      ∃ below, hierarchy.descendants? "top" = some below ∧ "bottom" ∈ below ∧ "top" ∉ below := by
  obtain ⟨hierarchy, hfound⟩ := Option.isSome_iff_exists.1
    (show (ofEdges Sample.diamond).toOption.isSome = true by decide +kernel)
  have h := eq_ok_of_toOption hfound
  obtain ⟨hcategories, hbelow⟩ := descendants_of_edges h
  obtain ⟨below, hfound, hiff, hself⟩ :=
    hbelow "top" ((hcategories "top").2 (by decide +kernel))
  have hleft : Edge.Joins Sample.diamond "top" "left" := ⟨by decide, by decide, by decide⟩
  have hbottom : Edge.Joins Sample.diamond "left" "bottom" := ⟨by decide, by decide, by decide⟩
  refine ⟨hierarchy, h, (hcategories "bottom").2 (by decide +kernel), below, hfound, ?_, hself⟩
  exact (hiff "bottom").2 (.tail (.single hleft) hbottom)

end SentenceWalk
