import Mathlib.Control.Monad.Basic
import SentenceWalk.Proofs.Descent

namespace SentenceWalk

namespace Links

/-- Whether the search below one name, with a path, is started right inside the search below
another. -/
def Nests (links : Links) (inner outer : NameSet × String) : Prop :=
  outer.2 ∉ outer.1 ∧ links.Child outer.2 inner.2 ∧ inner.1 = outer.1.insert outer.2

variable {links : Links} {known : Descendants} {parent child : String}
variable {inner outer : NameSet × String}

theorem mem_keys_of_child (h : links.Child parent child) : parent ∈ links.keys := by
  rw [Std.ExtTreeMap.mem_keys]
  exact Classical.byContradiction fun hn => not_child (Std.ExtTreeMap.getElem?_eq_none hn) h

theorem Nests.missing_lt (h : links.Nests inner outer) :
    NameSet.missing inner.1 links.keys < NameSet.missing outer.1 links.keys := by
  obtain ⟨hfresh, hchild, hpath⟩ := h
  rw [hpath]
  exact NameSet.missing_insert_lt (mem_keys_of_child hchild) hfresh

theorem wellFounded_nests (links : Links) : WellFounded links.Nests :=
  Subrelation.wf Nests.missing_lt
    (measure fun search : NameSet × String => NameSet.missing search.1 links.keys).wf

/-- A search ends with exactly the names below the given one, the path being as it was, or at a name
that is on the path by then, to which links lead back. Either way it keeps what was known and adds
only what is exact. -/
theorem search_below_name (he : links.Exact known) (path : NameSet) (name : String) :
    let search := links.descend path known name
    Acc links.Nests (path, name) ∧
    links.Exact search.known ∧
    (∀ (other : String) (below : NameSet), known[other]? = some below →
      search.known[other]? = some below) ∧
    ((∃ below, search.result = .ok below ∧ search.path = path ∧
        (∀ other, other ∈ below ↔ links.Above name other) ∧ search.known[name]? = some below) ∨
      ∃ back, search.result = .error back ∧ back ∈ search.path ∧
        links.LeadsBack path search.path name back) := by
  intro search
  have hdescent : Descent links path known name search := descent he path name
  refine ⟨(wellFounded_nests links).apply _, hdescent.exact, ?_, ?_⟩
  · intro other below hknown
    cases hdescent with
    | complete _ hg _ _ => exact hg.kept hknown
    | cyclic _ hg _ => exact hg.kept hknown
  · cases hdescent with
    | @complete below hr hg hf _ =>
      exact .inl ⟨below, hr, search.restored below hr, hg.exact.mem_iff hf, hf⟩
    | @cyclic back hr _ hb => exact .inr ⟨back, hr, hb.mem.1, hb⟩

end Links

/-! Links that lead from food to fruit and around between food and meals. -/

namespace Sample

def meals : Links :=
  .ofList [("fruit", ["apple"]), ("food", ["fruit", "meal"]), ("meal", ["food"])]

end Sample

/-- What is known of fruit is kept when the search below food comes back to food. -/
theorem Links.search_below_name_food :
    let fruit := Sample.meals.descend ∅ ∅ "fruit"
    let food := Sample.meals.descend (.ofList ["kitchen"]) fruit.known "food"
    fruit.result = .ok (.ofList ["apple"]) ∧ fruit.path = ∅ ∧
      food.result = .error "food" ∧ "food" ∈ food.path ∧
      food.known["fruit"]? = some (.ofList ["apple"]) := by
  intro fruit food
  obtain ⟨_, hexact, _, hfruit⟩ := search_below_name (exact_empty Sample.meals) ∅ "fruit"
  obtain ⟨_, _, hkept, hfood⟩ := search_below_name hexact (.ofList ["kitchen"]) "food"
  have hok : fruit.result = .ok (.ofList ["apple"]) := by decide +kernel
  have herror : food.result = .error "food" := by decide +kernel
  obtain ⟨below, hbelow, hpath, _, hknown⟩ | ⟨back, hback, _⟩ := hfruit
  · cases hok.symm.trans hbelow
    obtain ⟨below, hbelow, _⟩ | ⟨back, hback, hmem, _⟩ := hfood
    · cases herror.symm.trans hbelow
    · cases herror.symm.trans hback
      exact ⟨hok, hpath, herror, hmem, hkept _ _ hknown⟩
  · cases hok.symm.trans hback

end SentenceWalk
