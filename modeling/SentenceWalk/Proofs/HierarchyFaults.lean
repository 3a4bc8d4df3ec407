import SentenceWalk.Proofs.HierarchyClosure
import SentenceWalk.Proofs.LanguageAssembly

namespace SentenceWalk

open Relation (TransGen)

/-- Whether an edge puts a category below a parent of which no edge makes a category. -/
def Edge.Strays (edges : List Edge) (edge : Edge) : Prop :=
  edge.child ≠ noCategory ∧ edge.parent ≠ noCategory ∧ ∀ other ∈ edges, other.child ≠ edge.parent

namespace Hierarchy

variable {edges : List Edge} {edge : Edge} {child parent : String}

theorem strays_iff :
    (edge.links && !edges.any fun other => other.declares && other.child == edge.parent) = true ↔
      Edge.Strays edges edge := by
  rw [Bool.and_eq_true, Edge.links_iff, Bool.not_eq_true', List.any_eq_false, Edge.Strays,
    and_assoc]
  refine and_congr_right fun _ => and_congr_right fun hparent => forall₂_congr fun other _ => ?_
  rw [Bool.and_eq_true, Edge.declares_iff, beq_iff_eq]
  refine not_congr ⟨And.right, ?_⟩
  intro hchild
  exact ⟨hchild ▸ hparent, hchild⟩

theorem undeclared?_eq_some_iff :
    undeclared? edges = some edge ↔ IsFirst (Edge.Strays edges) edges edge := by
  rw [undeclared?, find?_eq_some_iff_isFirst]
  simp only [strays_iff]

theorem undeclared?_eq_none_iff :
    undeclared? edges = none ↔ ∀ edge ∈ edges, ¬ Edge.Strays edges edge := by
  rw [undeclared?, List.find?_eq_none]
  simp only [strays_iff]

theorem ofEdges_cases (edges : List Edge) :
    (∃ edge, undeclared? edges = some edge ∧
      ofEdges edges = .error (.undefinedCategory edge.child edge.parent)) ∨
    (undeclared? edges = none ∧ ∃ name, TransGen (Edge.Joins edges) name name ∧
      ofEdges edges = .error (.cycle name)) ∨
    (undeclared? edges = none ∧ (∀ name, ¬ TransGen (Edge.Joins edges) name name) ∧
      ∃ hierarchy, ofEdges edges = .ok hierarchy) := by
  cases hfound : undeclared? edges with
  | some edge => exact .inl ⟨edge, rfl, by rw [ofEdges, hfound]⟩
  | none =>
    right
    obtain ⟨below, hclose, _⟩ | ⟨back, hclose, hback⟩ :=
      Links.closeFrom_cases (Links.exact_empty (edges.foldl Links.addEdge ∅))
        (edges.foldl Links.addEdge ∅).keys
    · have hok : ofEdges edges = .ok ⟨below⟩ := by rw [ofEdges, hfound, Links.close, hclose]
      exact .inr ⟨rfl, (exists_ofEdges_iff.1 ⟨_, hok⟩).2, _, hok⟩
    · refine .inl ⟨rfl, back, Links.above_ofEdges.1 hback, ?_⟩
      rw [ofEdges, hfound, Links.close, hclose]

theorem ofEdges_eq_undefinedCategory_iff :
    ofEdges edges = .error (.undefinedCategory child parent) ↔
      undeclared? edges = some ⟨child, parent⟩ := by
  obtain ⟨edge, hfound, h⟩ | ⟨hnone, name, _, h⟩ | ⟨hnone, _, hierarchy, h⟩ := ofEdges_cases edges
  · obtain ⟨found, above⟩ := edge
    simp [h, hfound]
  · simp [h, hnone]
  · simp [h, hnone]

/-- Edges stray if and only if a parent is reported to be undefined, and the edge that is reported
is the first that strays. If none does, a cycle is reported if and only if some name lies below
itself, and then the name that is reported does. Edges of which neither is true make a hierarchy. -/
theorem faults_of_edges (edges : List Edge) :
    (∀ child parent, ofEdges edges = .error (.undefinedCategory child parent) ↔
      IsFirst (Edge.Strays edges) edges ⟨child, parent⟩) ∧
    ((∃ child parent, ofEdges edges = .error (.undefinedCategory child parent)) ↔
      ∃ edge ∈ edges, Edge.Strays edges edge) ∧
    ((∃ name, ofEdges edges = .error (.cycle name)) ↔
      (∀ edge ∈ edges, ¬ Edge.Strays edges edge) ∧
        ∃ name, TransGen (Edge.Joins edges) name name) ∧
    (∀ name, ofEdges edges = .error (.cycle name) → TransGen (Edge.Joins edges) name name) ∧
    ((∃ hierarchy, ofEdges edges = .ok hierarchy) ↔
      (∀ edge ∈ edges, ¬ Edge.Strays edges edge) ∧
        ∀ name, ¬ TransGen (Edge.Joins edges) name name) := by
  have hfirst : ∀ child parent, ofEdges edges = .error (.undefinedCategory child parent) ↔
      IsFirst (Edge.Strays edges) edges ⟨child, parent⟩ := by
    intro child parent
    rw [ofEdges_eq_undefinedCategory_iff, undeclared?_eq_some_iff]
  refine ⟨hfirst, ?_⟩
  rw [← undeclared?_eq_none_iff]
  have hstrays : (∃ edge ∈ edges, Edge.Strays edges edge) ↔ undeclared? edges ≠ none := by
    rw [Ne, undeclared?_eq_none_iff]
    simp
  rw [hstrays]
  obtain ⟨edge, hfound, h⟩ | ⟨hnone, name, hcycle, h⟩ | ⟨hnone, hacyclic, hierarchy, h⟩ :=
    ofEdges_cases edges
  · simp [h, hfound]
  · simp only [h, hnone]
    refine ⟨by simp, by simpa using ⟨name, hcycle⟩, ?_, ?_⟩
    · intro other heq
      cases heq
      exact hcycle
    · simpa using ⟨name, hcycle⟩
  · simp [h, hnone, hacyclic]

end Hierarchy

end SentenceWalk
