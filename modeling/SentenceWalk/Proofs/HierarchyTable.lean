import SentenceWalk.Hierarchy.Reading
import SentenceWalk.Proofs.TableLayout

namespace SentenceWalk.Hierarchy

open Text Table

/-- Whether a name can be told from the blanks and the marks that may stand before it. -/
structure IsWritable (name : String) : Prop where
  filled : name ≠ ""
  trimmed : IsTrimmed name.toList
  unmarked : name.toList.head? ≠ some encodingMark

/-- Which rows say what edges say. Fields behind the two names say nothing, whatever is in them. -/
inductive Says : List Edge → List (List (List Char)) → Prop where
  | nil : Says [] []
  | blank {rows : List (List (List Char))} (hb : ∀ field ∈ row, AllBlank field)
      (h : Says edges rows) : Says edges (row :: rows)
  | edge {rows : List (List (List Char))} (hc : Padded edge.child.toList child)
      (hp : Padded edge.parent.toList parent) (h : Says edges rows) :
      Says (edge :: edges) ((child :: parent :: more) :: rows)

def Written (edges : List Edge) (text : List Char) : Prop :=
  ∃ rows, Says edges rows ∧ Writes rows text

variable {edge : Edge} {edges : List Edge} {name : String} {child parent text : List Char}
variable {marks rest : List Char} {row : List (List Char)} {rows : List (List (List Char))}

theorem exists_written (edges : List Edge) : ∃ text, Written edges text := by
  let rows := edges.map fun edge => [edge.child.toList, edge.parent.toList]
  have hs : Says edges rows := by
    induction edges with
    | nil => exact .nil
    | cons edge edges ih => exact .edge (padded_self _) (padded_self _) ih
  have hne : ∀ row ∈ rows, row ≠ [] := by
    intro row hrow
    obtain ⟨edge, _, rfl⟩ := List.mem_map.1 hrow
    exact List.cons_ne_nil _ _
  obtain ⟨text, htext⟩ := exists_lays hne
  exact ⟨text, rows, hs, .inl htext⟩

theorem IsWritable.isEmpty (h : IsWritable name) : name.isEmpty = false := by
  rw [Bool.eq_false_iff]
  intro hnone
  exact h.filled (String.isEmpty_iff.1 hnone)

theorem dropWhile_marks (hm : ∀ c ∈ marks, c = encodingMark)
    (hr : rest.head? ≠ some encodingMark) :
    (marks ++ rest).dropWhile (· == encodingMark) = rest := by
  rw [List.dropWhile_append_of_pos fun c hc => beq_iff_eq.2 (hm c hc)]
  cases rest with
  | nil => rfl
  | cons c rest =>
    apply List.dropWhile_cons_of_neg
    intro hmark
    rw [eq_of_beq hmark] at hr
    exact hr rfl

theorem IsWritable.dropWhile (h : IsWritable name) :
    String.ofList (name.toList.dropWhile (· == '\ufeff')) = name := by
  have hkept : name.toList.dropWhile (· == '\ufeff') = name.toList :=
    dropWhile_marks (List.forall_mem_nil _) h.unmarked
  rw [hkept, String.ofList_toList]

theorem all_isEmpty_trimRow (hb : ∀ field ∈ row, AllBlank field) :
    (trimRow row).all String.isEmpty = true := by
  rw [trimRow, List.all_map, List.all_eq_true]
  intro field hfield
  rw [Function.comp_apply, trim_blank (hb field hfield)]
  rfl

theorem not_all_isEmpty_trimRow (hn : IsWritable name) (h : Padded name.toList child)
    (more : List (List Char)) : ¬ (trimRow (child :: more)).all String.isEmpty = true := by
  rw [trimRow, List.map_cons, ofList_trim hn.trimmed h, List.all_cons, hn.isEmpty]
  exact Bool.false_ne_true

theorem edgeOfRow?_trimRow (hchild : IsWritable edge.child) (hparent : IsWritable edge.parent)
    (hc : Padded edge.child.toList child) (hp : Padded edge.parent.toList parent)
    (more : List (List Char)) : edgeOfRow? (trimRow (child :: parent :: more)) = some edge := by
  rw [trimRow, List.map_cons, List.map_cons, ofList_trim hchild.trimmed hc,
    ofList_trim hparent.trimmed hp, edgeOfRow?, hchild.isEmpty, hparent.isEmpty, hchild.dropWhile]
  rfl

theorem edgesOfRows_of_says (h : Says edges rows)
    (hw : ∀ edge ∈ edges, IsWritable edge.child ∧ IsWritable edge.parent) (number : Nat) :
    edgesOfRows number (rows.map trimRow) = .ok edges := by
  induction h generalizing number with
  | nil => rfl
  | blank hb _ ih =>
    rw [List.map_cons, edgesOfRows, if_pos (all_isEmpty_trimRow hb)]
    exact ih hw (number + 1)
  | edge hc hp _ ih =>
    obtain ⟨hchild, hparent⟩ := hw _ List.mem_cons_self
    have hrest := ih (fun other hother => hw other (List.mem_cons_of_mem _ hother)) (number + 1)
    rw [List.map_cons, edgesOfRows, if_neg (not_all_isEmpty_trimRow hchild hc _),
      edgeOfRow?_trimRow hchild hparent hc hp, hrest]
    rfl

theorem Says.head?_ne (h : Says edges rows)
    (hw : ∀ edge ∈ edges, IsWritable edge.child ∧ IsWritable edge.parent) :
    ∀ row ∈ rows.head?, ∀ field ∈ row.head?, field.head? ≠ some encodingMark := by
  cases h with
  | nil => nofun
  | blank hb =>
    rintro row ⟨⟩ field hfield hmark
    have hblank := hb field (List.mem_of_head? hfield) _ (List.mem_of_head? hmark)
    exact absurd hblank (by decide)
  | edge hc =>
    rintro row ⟨⟩ field ⟨⟩
    exact unmarked_of_padded hc (hw _ List.mem_cons_self).1.unmarked

/-- Any text in which edges are written gets the answer that the edges get. How its lines end, how
many lines are empty or blank, how fields are padded and what is in further columns make no
difference. -/
theorem ofText_eq_ofEdges (hw : ∀ edge ∈ edges, IsWritable edge.child ∧ IsWritable edge.parent)
    (ht : Written edges text) : ofText text = ofEdges edges := by
  obtain ⟨rows, hs, hwrites⟩ := ht
  rw [ofText, ofText_of_writes hwrites (hs.head?_ne hw), ofTable, edgesOfRows_of_says hs hw]
  rfl

def Sample.fruitEdges : List Edge :=
  [⟨"fruit", "food"⟩, ⟨"food", "(none)"⟩]

def Sample.fruitRows : List (List (List Char)) :=
  [["fruit ".toList, " food".toList, "ripe".toList], [" ".toList, "\t".toList],
    ["food".toList, "(none)".toList]]

def Sample.fruitText : List Char :=
  "\ufefffruit ; food;ripe\r\n\n ;\t\rfood;(none)".toList

theorem Sample.fruitText_written : Written fruitEdges fruitText := by
  have hsays : Says fruitEdges fruitRows := by
    apply Says.edge ⟨[], [' '], by decide, by decide, by decide⟩
      ⟨[' '], [], by decide, by decide, by decide⟩
    apply Says.blank (by decide)
    apply Says.edge (padded_self _) (padded_self _)
    exact .nil
  have hfruit : SpellsRow ["fruit ".toList, " food".toList, "ripe".toList]
      "fruit ; food;ripe".toList :=
    .cons (.plain (by decide)) (.cons (.plain (by decide)) (.last (.plain (by decide))))
  have hblank : SpellsRow [" ".toList, "\t".toList] " ;\t".toList :=
    .cons (.plain (by decide)) (.last (.plain (by decide)))
  have hfood : SpellsRow ["food".toList, "(none)".toList] "food;(none)".toList :=
    .cons (.plain (by decide)) (.last (.plain (by decide)))
  refine ⟨fruitRows, hsays, .inr ⟨_, ?_, rfl⟩⟩
  apply Lays.row hfruit (by decide) (.inr rfl)
  apply Lays.lineEnd (.inl rfl)
  apply Lays.lineEnd (.inl rfl)
  apply Lays.row hblank (by decide) (.inr rfl)
  exact .last hfood (by decide)

theorem ofText_eq_ofEdges_fruit :
    (∀ edge ∈ Sample.fruitEdges, IsWritable edge.child ∧ IsWritable edge.parent) ∧
      Written Sample.fruitEdges Sample.fruitText ∧
      ofText Sample.fruitText = ofEdges Sample.fruitEdges := by
  have hw : ∀ edge ∈ Sample.fruitEdges, IsWritable edge.child ∧ IsWritable edge.parent := by
    have hfruit : IsWritable "fruit" := ⟨by decide, by decide, by decide⟩
    have hfood : IsWritable "food" := ⟨by decide, by decide, by decide⟩
    have hnone : IsWritable "(none)" := ⟨by decide, by decide, by decide⟩
    simp [Sample.fruitEdges, hfruit, hfood, hnone]
  exact ⟨hw, Sample.fruitText_written, ofText_eq_ofEdges hw Sample.fruitText_written⟩

end SentenceWalk.Hierarchy
