import SentenceWalk.Hierarchy
import SentenceWalk.Table

/-!
Reading a hierarchy from a table, whose rows give a category and the category above it. Rows
without any text are passed over.
-/

namespace SentenceWalk.Hierarchy

/-- The edge in a row. Marks of the encoding in front of the child do not belong to its name. -/
def edgeOfRow? : List String → Option Edge
  | child :: parent :: _ =>
    if child.isEmpty || parent.isEmpty then none
    else some ⟨String.ofList (child.toList.dropWhile (· == '\ufeff')), parent⟩
  | _ => none

def edgesOfRows (number : Nat) : List (List String) → Except HierarchyError (List Edge)
  | [] => .ok []
  | row :: rows =>
    if row.all String.isEmpty then edgesOfRows (number + 1) rows
    else
      match edgeOfRow? row with
      | none => .error (.malformedRow number)
      | some edge => (edgesOfRows (number + 1) rows).map (edge :: ·)

def ofTable (table : Table) : Except HierarchyError Hierarchy := do
  let edges ← edgesOfRows 1 table.rows
  if table.broken then .error .brokenTable else ofEdges edges

def ofText (text : List Char) : Except HierarchyError Hierarchy :=
  ofTable (Table.ofText text)

end SentenceWalk.Hierarchy
