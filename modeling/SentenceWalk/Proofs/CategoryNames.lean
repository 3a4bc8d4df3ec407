import SentenceWalk.Proofs.HierarchyClosure
import SentenceWalk.Proofs.HierarchyTable

namespace SentenceWalk.Hierarchy

open Text Table

/-- Whether a field has a name, in front of which there may be marks that do not belong to it. -/
def Gives (field name : String) : Prop :=
  ∃ marks, (∀ c ∈ marks, c = encodingMark) ∧ field.toList = marks ++ name.toList ∧
    name.toList.head? ≠ some encodingMark

variable {hierarchy : Hierarchy} {edge : Edge} {edges : List Edge} {name field : String}
variable {row : List String} {rows : List (List String)} {text : List Char} {number : Nat}

theorem gives_iff :
    Gives field name ↔ String.ofList (field.toList.dropWhile (· == encodingMark)) = name := by
  constructor
  · rintro ⟨marks, hmarks, hfield, hfirst⟩
    rw [hfield, dropWhile_marks hmarks hfirst, String.ofList_toList]
  · rintro rfl
    refine ⟨field.toList.takeWhile (· == encodingMark), ?_, ?_, ?_⟩
    · intro c hc
      exact beq_iff_eq.1 (List.mem_takeWhile_imp (p := (· == encodingMark)) hc)
    · rw [String.toList_ofList, List.takeWhile_append_dropWhile]
    · intro hmark
      have hfirst := List.head?_dropWhile_not (· == encodingMark) field.toList
      rw [String.toList_ofList] at hmark
      rw [hmark] at hfirst
      cases hfirst

theorem edgeOfRow?_eq_some (h : edgeOfRow? row = some edge) :
    ∃ field, row.head? = some field ∧ field ≠ "" ∧ Gives field edge.child := by
  rw [edgeOfRow?.eq_def] at h
  split at h
  · split at h
    · cases h
    · rename_i child parent _ hfilled
      cases h
      refine ⟨child, rfl, ?_, gives_iff.2 rfl⟩
      rintro rfl
      exact hfilled rfl
  · cases h

theorem exists_edge_iff (h : edgesOfRows number rows = .ok edges) :
    (∃ edge ∈ edges, edge.child = name) ↔
      ∃ row ∈ rows, ∃ field ∈ row.head?, field ≠ "" ∧ Gives field name := by
  induction rows generalizing number edges with
  | nil =>
    cases h
    simp
  | cons row rows ih =>
    rw [edgesOfRows] at h
    split at h
    · rename_i hblank
      have hnone : ¬ ∃ field ∈ row.head?, field ≠ "" ∧ Gives field name := by
        rintro ⟨field, hfield, hfilled, _⟩
        have hempty := List.all_eq_true.1 hblank field (List.mem_of_mem_head? hfield)
        exact hfilled (String.isEmpty_iff.1 hempty)
      simp only [ih h, List.mem_cons, exists_eq_or_imp, or_iff_right hnone]
    · split at h
      · cases h
      · rename_i first hfirst
        obtain ⟨field, hfield, hfilled, hgives⟩ := edgeOfRow?_eq_some hfirst
        have hrow : (∃ other ∈ row.head?, other ≠ "" ∧ Gives other name) ↔ first.child = name := by
          rw [hfield]
          simp only [Option.mem_some_iff, exists_eq_left', hfilled, ne_eq, not_false_eq_true,
            true_and]
          rw [gives_iff, gives_iff.1 hgives]
        cases hrest : edgesOfRows (number + 1) rows with
        | error error =>
          rw [hrest] at h
          cases h
        | ok others =>
          rw [hrest] at h
          cases h
          simp only [List.mem_cons, exists_eq_or_imp, hrow, ih hrest]

theorem ofTable_ok {table : Table} (h : ofTable table = .ok hierarchy) :
    ∃ edges, edgesOfRows 1 table.rows = .ok edges ∧ ofEdges edges = .ok hierarchy := by
  rw [ofTable] at h
  cases hedges : edgesOfRows 1 table.rows with
  | error error =>
    rw [hedges] at h
    cases h
  | ok edges =>
    rw [hedges] at h
    refine ⟨edges, rfl, ?_⟩
    change (if table.broken = true then _ else ofEdges edges) = _ at h
    split at h
    · cases h
    · exact h

theorem mem_categories_iff (h : ofEdges edges = .ok hierarchy) :
    name ∈ hierarchy.categories ↔ name ≠ noCategory ∧ ∃ edge ∈ edges, edge.child = name := by
  rw [categories, Std.ExtTreeMap.mem_keys, mem_below_iff h]
  rfl

/-- The categories that are read from a table have the names that its rows give, apart from the one
that stands for no category. -/
theorem mem_categories_of_table {table : Table} (h : ofTable table = .ok hierarchy) :
    name ∈ hierarchy.categories ↔ name ≠ noCategory ∧
      ∃ row ∈ table.rows, ∃ field ∈ row.head?, field ≠ "" ∧ Gives field name := by
  obtain ⟨edges, hedges, hhierarchy⟩ := ofTable_ok h
  rw [mem_categories_iff hhierarchy, exists_edge_iff hedges]

theorem isTrimmed_of_mem_rows (hrow : row ∈ (Table.ofText text).rows) (hfield : field ∈ row) :
    IsTrimmed field.toList := by
  obtain ⟨raw, _, rfl⟩ := List.mem_map.1 hrow
  obtain ⟨letters, _, rfl⟩ := List.mem_map.1 hfield
  rw [String.toList_ofList]
  exact isTrimmed_trim letters

theorem Gives.getLast?_not_blank (h : Gives field name) (ht : IsTrimmed field.toList) :
    ∀ c ∈ name.toList.getLast?, isBlank c = false := by
  obtain ⟨marks, _, hfield, _⟩ := h
  intro c hc
  apply ht.2
  rw [hfield, List.getLast?_append, Option.mem_def.1 hc]
  rfl

theorem not_trimmed_iff (hlast : ∀ c ∈ name.toList.getLast?, isBlank c = false) :
    ¬ (name ≠ "" ∧ IsTrimmed name.toList) ↔ ∀ c ∈ name.toList.head?, isBlank c = true := by
  rw [Ne, ← String.toList_eq_nil_iff]
  cases htext : name.toList with
  | nil => simp
  | cons c letters =>
    rw [htext] at hlast
    have htrimmed : IsTrimmed (c :: letters) ↔ isBlank c = false := by
      refine ⟨fun h => h.1 c rfl, fun hc => ⟨?_, hlast⟩⟩
      rintro d ⟨⟩
      exact hc
    simp [htrimmed]

/-- What the names of categories can be that are read from a text. None stands for no category,
begins with a mark or ends with a blank. But a name is empty or begins with a blank if and only if
it is what follows marks at the beginning of a row and is like that. -/
theorem names_of_text (h : ofText text = .ok hierarchy) :
    (∀ name ∈ hierarchy.categories, name ≠ noCategory ∧
      name.toList.head? ≠ some encodingMark ∧ ∀ c ∈ name.toList.getLast?, isBlank c = false) ∧
    ∀ name, name ∈ hierarchy.categories ∧ ¬ (name ≠ "" ∧ IsTrimmed name.toList) ↔
      ∃ row ∈ (Table.ofText text).rows, ∃ field ∈ row.head?, ∃ marks ≠ [],
        (∀ c ∈ marks, c = encodingMark) ∧ field.toList = marks ++ name.toList ∧
          ∀ c ∈ name.toList.head?, isBlank c = true := by
  have hnames (name : String) : name ∈ hierarchy.categories ↔ name ≠ noCategory ∧
      ∃ row ∈ (Table.ofText text).rows, ∃ field ∈ row.head?, field ≠ "" ∧ Gives field name :=
    mem_categories_of_table h
  have hlast {row : List String} {field name : String} (hrow : row ∈ (Table.ofText text).rows)
      (hfield : field ∈ row.head?) (hgives : Gives field name) :
      ∀ c ∈ name.toList.getLast?, isBlank c = false :=
    hgives.getLast?_not_blank (isTrimmed_of_mem_rows hrow (List.mem_of_mem_head? hfield))
  refine ⟨?_, fun name => ⟨?_, ?_⟩⟩
  · intro name hmem
    obtain ⟨hne, row, hrow, field, hfield, _, hgives⟩ := (hnames name).1 hmem
    obtain ⟨_, _, _, hfirst⟩ := id hgives
    exact ⟨hne, hfirst, hlast hrow hfield hgives⟩
  · rintro ⟨hmem, hunfit⟩
    obtain ⟨_, row, hrow, field, hfield, hfilled, hgives⟩ := (hnames name).1 hmem
    have hblank := (not_trimmed_iff (hlast hrow hfield hgives)).1 hunfit
    obtain ⟨marks, hmarks, hsplit, _⟩ := hgives
    refine ⟨row, hrow, field, hfield, marks, ?_, hmarks, hsplit, hblank⟩
    -- Without marks the name would be the field, which is trimmed and not empty.
    rintro rfl
    obtain rfl : field = name := String.toList_inj.1 hsplit
    exact hunfit ⟨hfilled, isTrimmed_of_mem_rows hrow (List.mem_of_mem_head? hfield)⟩
  · rintro ⟨row, hrow, field, hfield, marks, hne, hmarks, hsplit, hblank⟩
    have hgives : Gives field name := by
      refine ⟨marks, hmarks, hsplit, ?_⟩
      intro hmark
      exact absurd (hblank encodingMark hmark) (by decide)
    have hfilled : field ≠ "" := by
      rintro rfl
      exact hne (List.append_eq_nil_iff.1 hsplit.symm).1
    have hcategory : name ≠ noCategory := by
      rintro rfl
      exact absurd (hblank '(' rfl) (by decide)
    exact ⟨(hnames name).2 ⟨hcategory, row, hrow, field, hfield, hfilled, hgives⟩,
      (not_trimmed_iff (hlast hrow hfield hgives)).2 hblank⟩

/-- Two rows that have marks in front of the category, in the one with a blank and in the other with
nothing behind them. -/
def Sample.markedText : List Char :=
  "food;(none)\n\ufeff fruit;food\n\ufeff;food\n".toList

theorem names_of_text_marked : ∃ hierarchy, ofText Sample.markedText = .ok hierarchy ∧
    " fruit" ∈ hierarchy.categories ∧ noCategory ∉ hierarchy.categories := by
  obtain ⟨hierarchy, hfound⟩ := Option.isSome_iff_exists.1
    (show (ofText Sample.markedText).toOption.isSome = true by decide +kernel)
  have h := eq_ok_of_toOption hfound
  obtain ⟨hfit, hunfit⟩ := names_of_text h
  refine ⟨hierarchy, h, ((hunfit " fruit").2 ?_).1, fun hmem => (hfit noCategory hmem).1 rfl⟩
  refine ⟨["\ufeff fruit", "food"], by decide +kernel, "\ufeff fruit", rfl, [encodingMark],
    List.cons_ne_nil _ _, by simp, rfl, ?_⟩
  intro c hc
  cases hc
  rfl

/-- A row with a mark for its category makes one without a name. -/
theorem mark_makes_nameless_category : ∃ hierarchy, ofText Sample.markedText = .ok hierarchy ∧
    hierarchy.categories = ["", " fruit", "food"] := by
  have hread : (ofText Sample.markedText).toOption.map categories =
      some ["", " fruit", "food"] := by
    decide +kernel
  obtain ⟨hierarchy, hfound, hcategories⟩ := Option.map_eq_some_iff.1 hread
  exact ⟨hierarchy, eq_ok_of_toOption hfound, hcategories⟩

end SentenceWalk.Hierarchy
