import Mathlib.Logic.Relation
import SentenceWalk.Hierarchy.Closure

namespace SentenceWalk.Links

open Relation (ReflTransGen TransGen)

def Child (links : Links) (parent child : String) : Prop :=
  child ∈ links.getD parent []

def Leads (links : Links) : String → String → Prop :=
  ReflTransGen links.Child

def Above (links : Links) : String → String → Prop :=
  TransGen links.Child

/-- What is known below a name is all that there is, and no known name lies below itself. -/
structure Exact (links : Links) (known : Descendants) : Prop where
  mem_iff : ∀ {name : String} {below : NameSet}, known[name]? = some below →
    ∀ other, other ∈ below ↔ links.Above name other
  not_self : ∀ {name : String} {below : NameSet}, known[name]? = some below →
    ¬ links.Above name name

/-- What a search from the given names makes of what is known: it keeps all of it and adds names to
which links lead from there. -/
structure Grows (links : Links) (names : List String) (known later : Descendants) : Prop where
  exact : links.Exact later
  kept : ∀ {name : String} {below : NameSet}, known[name]? = some below →
    later[name]? = some below
  gained : ∀ {name : String}, name ∈ later →
    name ∈ known ∨ ∃ first ∈ names, links.Leads first name

/-- Whether no name of the path lies on a cycle with one of the given names. -/
def Clear (links : Links) (path : NameSet) (names : List String) : Prop :=
  ∀ name ∈ names, ∀ other ∈ path, links.Leads name other → ¬ links.Above other name

/-- Whether links lead from `name` to `back`, where they come to the path for the first time. The
trail is the path with all names on the way there. -/
inductive LeadsBack (links : Links) : NameSet → NameSet → String → String → Prop where
  | here {path : NameSet} {back : String} (hb : back ∈ path) : LeadsBack links path path back back
  | further {path trail : NameSet} {name child back : String} (hn : name ∉ path)
      (hc : links.Child name child) (h : LeadsBack links (path.insert name) trail child back) :
      LeadsBack links path trail name back

/-- What comes of a search below a name. -/
inductive Descent (links : Links) (path : NameSet) (known : Descendants) (name : String) :
    Search path → Prop where
  | complete {search : Search path} {below : NameSet} (hr : search.result = .ok below)
      (hg : links.Grows [name] known search.known) (hf : search.known[name]? = some below)
      (hc : links.Clear path [name]) : Descent links path known name search
  | cyclic {search : Search path} {back : String} (hr : search.result = .error back)
      (hg : links.Grows [name] known search.known)
      (hb : links.LeadsBack path search.path name back) : Descent links path known name search

/-- What comes of searches below the names of a list, which are added to a set with all that is
below them. -/
inductive DescentAll (links : Links) (path : NameSet) (known : Descendants) (base : NameSet)
    (names : List String) : Search path → Prop where
  | complete {search : Search path} {below : NameSet} (hr : search.result = .ok below)
      (hg : links.Grows names known search.known)
      (hf : ∀ other, other ∈ below ↔ other ∈ base ∨ ∃ name ∈ names, links.Leads name other)
      (hc : links.Clear path names) : DescentAll links path known base names search
  | cyclic {search : Search path} {back first : String} (hr : search.result = .error back)
      (hg : links.Grows names known search.known) (hfirst : first ∈ names)
      (hb : links.LeadsBack path search.path first back) :
      DescentAll links path known base names search

variable {links : Links} {path trail base below : NameSet} {known middle later : Descendants}
variable {name other child back : String} {names children others : List String}

theorem above_iff : links.Above name other ↔ ∃ child, links.Child name child ∧
    links.Leads child other :=
  TransGen.head'_iff

theorem leads_iff : links.Leads name other ↔ other = name ∨ links.Above name other :=
  Relation.reflTransGen_iff_eq_or_transGen

theorem child_iff (h : links[name]? = some children) :
    links.Child name child ↔ child ∈ children := by
  rw [Child, Std.ExtTreeMap.getD_eq_getD_getElem?, h, Option.getD_some]

theorem not_child (h : links[name]? = none) : ¬ links.Child name child := by
  rw [Child, Std.ExtTreeMap.getD_eq_getD_getElem?, h, Option.getD_none]
  exact List.not_mem_nil

theorem exact_empty (links : Links) : links.Exact ∅ where
  mem_iff := by simp
  not_self := by simp

theorem Exact.grows (h : links.Exact known) (names : List String) :
    links.Grows names known known where
  exact := h
  kept := id
  gained := .inl

theorem Grows.trans (h : links.Grows names known middle)
    (hlater : links.Grows others middle later) :
    links.Grows (names ++ others) known later where
  exact := hlater.exact
  kept := hlater.kept ∘ h.kept
  gained := by
    intro name hmem
    rcases hlater.gained hmem with hmiddle | ⟨first, hfirst, hleads⟩
    · rcases h.gained hmiddle with hknown | ⟨first, hfirst, hleads⟩
      · exact .inl hknown
      · exact .inr ⟨first, List.mem_append_left _ hfirst, hleads⟩
    · exact .inr ⟨first, List.mem_append_right _ hfirst, hleads⟩

theorem Grows.of_children (h : links.Grows children known later)
    (hc : ∀ child ∈ children, links.Child name child) : links.Grows [name] known later where
  exact := h.exact
  kept := h.kept
  gained := by
    intro other hmem
    rcases h.gained hmem with hknown | ⟨child, hchild, hleads⟩
    · exact .inl hknown
    · exact .inr ⟨name, List.mem_singleton_self _, .head (hc child hchild) hleads⟩

theorem Grows.insert (h : links.Grows children known middle)
    (hc : ∀ child, links.Child name child ↔ child ∈ children) (hn : known[name]? = none)
    (hb : ∀ other, other ∈ below ↔ links.Above name other) (hs : ¬ links.Above name name) :
    links.Grows [name] known (middle.insert name below) where
  exact := by
    constructor
    · intro first set hfound
      rw [Std.ExtTreeMap.getElem?_insert] at hfound
      split at hfound
      · rename_i heq
        obtain rfl := Std.compare_eq_iff_eq.1 heq
        cases hfound
        exact hb
      · exact h.exact.mem_iff hfound
    · intro first set hfound
      rw [Std.ExtTreeMap.getElem?_insert] at hfound
      split at hfound
      · rename_i heq
        obtain rfl := Std.compare_eq_iff_eq.1 heq
        exact hs
      · exact h.exact.not_self hfound
  kept := by
    intro first set hfound
    have hne : name ≠ first := by
      rintro rfl
      rw [hn] at hfound
      cases hfound
    rw [Std.ExtTreeMap.getElem?_insert, if_neg (by simpa using hne)]
    exact h.kept hfound
  gained := by
    intro first hmem
    rcases Std.ExtTreeMap.mem_insert.1 hmem with heq | hmiddle
    · obtain rfl := Std.compare_eq_iff_eq.1 heq
      exact .inr ⟨name, List.mem_singleton_self _, .refl⟩
    · exact (h.of_children fun child hchild => (hc child).2 hchild).gained hmiddle

theorem LeadsBack.mem (h : links.LeadsBack path trail name back) :
    back ∈ trail ∧ ∀ other ∈ path, other ∈ trail := by
  induction h with
  | here hb => exact ⟨hb, fun _ => id⟩
  | further _ _ _ ih => exact ⟨ih.1, fun other hmem => ih.2 other (by simp [hmem])⟩

theorem LeadsBack.leads (h : links.LeadsBack path trail name back) : links.Leads name back := by
  induction h with
  | here => exact .refl
  | further _ hc _ ih => exact .head hc ih

theorem LeadsBack.on_path_or_cycle (h : links.LeadsBack path trail name back) :
    back ∈ path ∨ links.Above back back := by
  induction h with
  | here hb => exact .inl hb
  | further _ hc h ih =>
    rcases ih with hpath | habove
    · rcases Std.ExtTreeSet.mem_insert.1 hpath with heq | hpath
      · obtain rfl := Std.compare_eq_iff_eq.1 heq
        exact .inr (above_iff.2 ⟨_, hc, h.leads⟩)
      · exact .inl hpath
    · exact .inr habove

theorem Descent.exact {search : Search path} (h : Descent links path known name search) :
    links.Exact search.known := by
  cases h with
  | complete _ hg _ _ => exact hg.exact
  | cyclic _ hg _ => exact hg.exact

theorem descent_known (he : links.Exact known) (h : known[name]? = some below) :
    Descent links path known name
      { result := .ok below, known, path, restored := fun _ _ => rfl } := by
  refine .complete rfl (he.grows _) h ?_
  intro first hfirst other _ hleads habove
  obtain rfl := List.mem_singleton.1 hfirst
  exact he.not_self h (TransGen.trans_right hleads habove)

theorem descent_back (he : links.Exact known) (h : name ∈ path) :
    Descent links path known name { result := .error name, known, path, restored := nofun } :=
  .cyclic rfl (he.grows _) (.here h)

theorem descent_leave {search : Search (path.insert name)}
    (hc : ∀ child, links.Child name child ↔ child ∈ children) (hn : known[name]? = none)
    (hp : name ∉ path) (h : DescentAll links (path.insert name) known ∅ children search) :
    Descent links path known name (search.leave hp) := by
  rcases search with ⟨result, middle, trail, restored⟩
  cases h with
  | @complete below hr hg hf hclear =>
    obtain rfl : result = .ok below := hr
    have hbelow : ∀ other, other ∈ below ↔ links.Above name other := by
      intro other
      rw [hf, above_iff]
      simp [hc]
    have hself : ¬ links.Above name name := by
      intro habove
      obtain ⟨child, hchild, hleads⟩ := above_iff.1 habove
      exact hclear child ((hc child).1 hchild) name (by simp) hleads (.single hchild)
    refine .complete rfl (hg.insert hc hn hbelow hself) Std.ExtTreeMap.getElem?_insert_self ?_
    intro first hfirst other hother hleads habove
    obtain rfl := List.mem_singleton.1 hfirst
    -- The name itself is not on the path, so that the cycle goes through one of its children.
    rcases ReflTransGen.cases_head hleads with rfl | ⟨child, hchild, hrest⟩
    · exact hp hother
    · exact hclear child ((hc child).1 hchild) other (by simp [hother]) hrest (habove.tail hchild)
  | @cyclic back child hr hg hchild hb =>
    obtain rfl : result = .error back := hr
    exact .cyclic rfl (hg.of_children fun child hmem => (hc child).2 hmem)
      (.further hp ((hc child).2 hchild) hb)

theorem descentAll_nil (he : links.Exact known) :
    DescentAll links path known base []
      { result := .ok base, known, path, restored := fun _ _ => rfl } :=
  .complete rfl (he.grows _) (by simp) (by simp [Clear])

theorem descentAll_cons {first rest : Search path} (hr : first.result = .ok below)
    (h : Descent links path known name first)
    (hrest : DescentAll links path first.known (base.insert name ∪ below) names rest) :
    DescentAll links path known base (name :: names) rest := by
  cases h with
  | complete hr' hg hf hclear =>
    cases hr.symm.trans hr'
    cases hrest with
    | complete hrest hg' hf' hclear' =>
      refine .complete hrest (hg.trans hg') ?_ ?_
      · intro other
        have hfirst : other ∈ base.insert name ∪ below ↔ other ∈ base ∨ links.Leads name other := by
          rw [Std.ExtTreeSet.mem_union_iff, Std.ExtTreeSet.mem_insert, Std.compare_eq_iff_eq,
            hg.exact.mem_iff hf, leads_iff, eq_comm, or_assoc, or_left_comm]
        rw [hf', hfirst, or_assoc]
        simp only [List.mem_cons, exists_eq_or_imp]
      · intro first hfirst
        rcases List.mem_cons.1 hfirst with rfl | hfirst
        · exact hclear first (List.mem_singleton_self _)
        · exact hclear' first hfirst
    | cyclic hrest hg' hfirst hb =>
      exact .cyclic hrest (hg.trans hg') (List.mem_cons_of_mem _ hfirst) hb
  | cyclic hr' => cases hr.symm.trans hr'

theorem descentAll_of_cycle {search : Search path} (hr : search.result = .error back)
    (h : Descent links path known name search) :
    DescentAll links path known base (name :: names) search := by
  cases h with
  | complete hr' => cases hr.symm.trans hr'
  | cyclic hr' hg hb =>
    have hnames : links.Grows (name :: names) known search.known := hg.trans (hg.exact.grows names)
    exact .cyclic hr' hnames List.mem_cons_self hb

theorem descend_leaf (hn : known[name]? = none) (hp : name ∉ path) (hl : links[name]? = none) :
    links.descend path known name = Search.leave hp
      { result := .ok ∅, known, path := path.insert name, restored := fun _ _ => rfl } := by
  rw [descend, hn]
  dsimp only
  rw [dif_neg hp]
  split
  · rfl
  · rename_i hfound
    cases hl.symm.trans hfound

theorem descend_parent (hn : known[name]? = none) (hp : name ∉ path)
    (hl : links[name]? = some children) :
    links.descend path known name =
      (links.descendAll (path.insert name) known ∅ children).leave hp := by
  rw [descend, hn]
  dsimp only
  rw [dif_neg hp]
  split
  · rename_i hfound
    cases hl.symm.trans hfound
  · rename_i hfound
    cases hl.symm.trans hfound
    rfl

/-- Whatever is on the path and whatever is known, if only that is exact, a search ends in one of
the two ways. -/
theorem descent_and_descentAll (links : Links) :
    (∀ path known name, links.Exact known →
      Descent links path known name (links.descend path known name)) ∧
    ∀ path known base names, links.Exact known →
      DescentAll links path known base names (links.descendAll path known base names) := by
  apply descend.mutual_induct links
    (fun path known name => links.Exact known →
      Descent links path known name (links.descend path known name))
    (fun path known base names => links.Exact known →
      DescentAll links path known base names (links.descendAll path known base names))
  case case1 =>
    intro path known name below hk he
    rw [descend, hk]
    exact descent_known he hk
  case case2 =>
    intro path known name hk hp he
    rw [descend, hk]
    dsimp only
    rw [dif_pos hp]
    exact descent_back he hp
  case case3 =>
    intro path known name hk hp hl he
    rw [descend_leaf hk hp hl]
    exact descent_leave (by simp [not_child hl]) hk hp (descentAll_nil he)
  case case4 =>
    intro path known name hk hp children hl ih he
    rw [descend_parent hk hp hl]
    exact descent_leave (fun child => child_iff hl) hk hp (ih he)
  case case5 =>
    intro path known base he
    rw [descendAll]
    exact descentAll_nil he
  case case6 =>
    intro path known base child children further middle trail restored hfirst ih ihrest he
    have hchild := ih he
    rw [hfirst] at hchild
    -- The search below the child has not failed, so that the path is again what it was.
    obtain rfl := restored further rfl
    rw [descendAll, hfirst]
    exact descentAll_cons rfl hchild (ihrest hchild.exact)
  case case7 =>
    intro path known base child children back middle trail restored hfirst ih he
    have hchild := ih he
    rw [hfirst] at hchild
    rw [descendAll, hfirst]
    exact descentAll_of_cycle rfl hchild

theorem descent (he : links.Exact known) (path : NameSet) (name : String) :
    Descent links path known name (links.descend path known name) :=
  (descent_and_descentAll links).1 path known name he

theorem closeFrom_cases (he : links.Exact known) (names : List String) :
    (∃ later, links.closeFrom known names = .ok later ∧ links.Grows names known later ∧
      ∀ name ∈ names, name ∈ later) ∨
    ∃ back, links.closeFrom known names = .error back ∧ links.Above back back := by
  induction names generalizing known with
  | nil => exact .inl ⟨known, rfl, he.grows _, by simp⟩
  | cons name names ih =>
    have hdescent := descent he ∅ name
    rw [closeFrom]
    generalize links.descend ∅ known name = search at hdescent ⊢
    rcases search with ⟨result, middle, trail, restored⟩
    cases hdescent with
    | @complete below hr hg hf _ =>
      obtain rfl : result = .ok below := hr
      rcases ih hg.exact with ⟨later, hlater, hgrows, hall⟩ | hback
      · refine .inl ⟨later, hlater, hg.trans hgrows, ?_⟩
        intro other hmem
        rcases List.mem_cons.1 hmem with rfl | hmem
        · exact Std.ExtTreeMap.mem_iff_isSome_getElem?.2 (by rw [hgrows.kept hf]; rfl)
        · exact hall other hmem
      · exact .inr hback
    | @cyclic back hr _ hb =>
      obtain rfl : result = .error back := hr
      rcases hb.on_path_or_cycle with hpath | habove
      · exact absurd hpath (by simp)
      · exact .inr ⟨back, rfl, habove⟩

theorem close_ok (h : links.close = .ok known) :
    links.Exact known ∧ (∀ name ∈ links, name ∈ known) ∧
      ∀ name ∈ known, ∃ first ∈ links, links.Leads first name := by
  rcases closeFrom_cases links.exact_empty links.keys with ⟨later, hlater, hg, hall⟩ | ⟨_, hb, _⟩
  · obtain rfl := Except.ok.inj (h.symm.trans hlater)
    refine ⟨hg.exact, fun name hmem => hall name (Std.ExtTreeMap.mem_keys.2 hmem), ?_⟩
    intro name hmem
    rcases hg.gained hmem with hknown | ⟨first, hfirst, hleads⟩
    · exact absurd hknown (by simp)
    · exact ⟨first, Std.ExtTreeMap.mem_keys.1 hfirst, hleads⟩
  · cases h.symm.trans hb

end SentenceWalk.Links
