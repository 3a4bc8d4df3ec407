import SentenceWalk.Names

/-!
The names below each name of a graph, found depth first. Sets that have been completed are kept
and used again, also where the search runs into a cycle.
-/

namespace SentenceWalk

abbrev Links := NameMap (List String)

abbrev Descendants := NameMap NameSet

namespace Links

def count (links : Links) : Nat :=
  (links.toList.flatMap fun (_, children) => children).length

theorem length_le_count {links : Links} {name : String} {children : List String}
    (h : links[name]? = some children) : children.length ≤ links.count := by
  have hlisted : (name, children) ∈ links.toList :=
    Std.ExtTreeMap.mem_toList_iff_getElem?_eq_some.2 h
  unfold count
  generalize links.toList = rows at hlisted ⊢
  induction rows with
  | nil => simp at hlisted
  | cons first rest ih =>
    rw [List.flatMap_cons, List.length_append]
    rcases List.mem_cons.1 hlisted with rfl | hlater
    · exact Nat.le_add_right ..
    · exact Nat.le_trans (ih hlater) (Nat.le_add_left ..)

/-- A bound on the steps of a search that has come to the end of `path` and has `left` children to
look at there. -/
def stepsLeft (links : Links) (path : NameSet) (left : Nat) : Nat :=
  NameSet.missing path links.keys * (links.count + 1) + left

theorem stepsLeft_insert_lt {links : Links} {path : NameSet} {name : String}
    {children : List String} (hfresh : name ∉ path) (hfound : links[name]? = some children) :
    links.stepsLeft (path.insert name) children.length < links.stepsLeft path 0 := by
  have hlisted : name ∈ links.keys := by
    rw [Std.ExtTreeMap.mem_keys, ← Std.ExtTreeMap.isSome_getElem?_iff_mem, hfound]
    rfl
  have hfewer := NameSet.missing_insert_lt hlisted hfresh
  have hshort := length_le_count hfound
  calc NameSet.missing (path.insert name) links.keys * (links.count + 1) + children.length
      < (NameSet.missing (path.insert name) links.keys + 1) * (links.count + 1) := by
        rw [Nat.succ_mul]
        omega
    _ ≤ NameSet.missing path links.keys * (links.count + 1) := Nat.mul_le_mul_right _ hfewer

/-- What a search comes to: the names that it finds, or a name of the path to which a link leads
back, with what is known behind it and the path as it leaves it. The path is as it was before,
unless the search fails. -/
structure Search (before : NameSet) where
  result : Except String NameSet
  known : Descendants
  path : NameSet
  restored : ∀ below, result = .ok below → path = before

/-- Ends the search below a name, of which the children have been searched. It is taken off the path
unless they have failed. -/
def Search.leave {path : NameSet} {name : String} (hfresh : name ∉ path) :
    Search (path.insert name) → Search path
  | { result := .ok below, known, path := trail, restored } =>
    { result := .ok below
      known := known.insert name below
      path := trail.erase name
      restored := fun _ _ => by rw [restored below rfl, NameSet.erase_insert hfresh] }
  | { result := .error back, known, path := trail, .. } =>
    { result := .error back, known, path := trail, restored := nofun }

mutual

/-- The names below `name`, or a name of `path` to which a link leads back. The path holds the
names on the way to `name`. -/
def descend (links : Links) (path : NameSet) (known : Descendants) (name : String) : Search path :=
  match known[name]? with
  | some below => { result := .ok below, known, path, restored := fun _ _ => rfl }
  | none =>
    if hfresh : name ∈ path then
      { result := .error name, known, path, restored := nofun }
    else
      match _hfound : links[name]? with
      | none =>
        Search.leave hfresh
          { result := .ok ∅, known, path := path.insert name, restored := fun _ _ => rfl }
      | some children => Search.leave hfresh (descendAll links (path.insert name) known ∅ children)
termination_by links.stepsLeft path 0
decreasing_by exact stepsLeft_insert_lt hfresh _hfound

/-- The given children of a name and all below them, together with `below`. -/
def descendAll (links : Links) (path : NameSet) (known : Descendants) (below : NameSet) :
    List String → Search path
  | [] => { result := .ok below, known, path, restored := fun _ _ => rfl }
  | child :: children =>
    match descend links path known child with
    | { result := .ok further, known, path := trail, restored } =>
      let rest := descendAll links trail known (below.insert child ∪ further) children
      { rest with
        restored := fun below h => (rest.restored below h).trans (restored further rfl) }
    | { result := .error back, known, path := trail, .. } =>
      { result := .error back, known, path := trail, restored := nofun }
termination_by children => links.stepsLeft path children.length
decreasing_by
  · exact Nat.lt_add_of_pos_right (Nat.succ_pos _)
  · rw [restored further rfl]
    exact Nat.lt_succ_self _

end

def closeFrom (links : Links) (known : Descendants) : List String → Except String Descendants
  | [] => .ok known
  | name :: names =>
    match links.descend ∅ known name with
    | { result := .ok _, known, .. } => closeFrom links known names
    | { result := .error back, .. } => .error back

def close (links : Links) : Except String Descendants :=
  links.closeFrom ∅ links.keys

end Links

end SentenceWalk
