import SentenceWalk.Hierarchy.Closure

namespace SentenceWalk

inductive HierarchyError where
  | undefinedCategory (child parent : String)
  | cycle (name : String)
  | malformedRow (row : Nat)
  | unreadable
  | brokenTable
  deriving DecidableEq, Repr

namespace HierarchyError

def message : HierarchyError → String
  | undefinedCategory child parent => s!"category '{child}' names undefined parent '{parent}'"
  | cycle name => s!"category cycle through '{name}'"
  | malformedRow row => s!"malformed hierarchy row {row}: expected child;parent"
  | unreadable => "IO error: the hierarchy cannot be opened"
  | brokenTable => "CSV error: the hierarchy is no table of text"

end HierarchyError

structure Edge where
  child : String
  parent : String
  deriving DecidableEq, Repr

/-- The name that stands for no category. -/
def noCategory : String := "(none)"

namespace Edge

def declares (edge : Edge) : Bool :=
  edge.child != noCategory

def links (edge : Edge) : Bool :=
  edge.declares && edge.parent != noCategory

end Edge

def Links.addEdge (links : Links) (edge : Edge) : Links :=
  if edge.declares then
    let links := links.insertIfNew edge.child []
    if edge.links then
      let children := links.getD edge.parent []
      links.insert edge.parent
        (if children.contains edge.child then children else children ++ [edge.child])
    else links
  else links

structure Hierarchy where
  below : Descendants := ∅
  deriving DecidableEq

namespace Hierarchy

/-- The first edge whose parent is declared by none. -/
def undeclared? (edges : List Edge) : Option Edge :=
  edges.find? fun edge =>
    edge.links && !edges.any fun other => other.declares && other.child == edge.parent

def ofEdges (edges : List Edge) : Except HierarchyError Hierarchy :=
  match undeclared? edges with
  | some edge => .error (.undefinedCategory edge.child edge.parent)
  | none =>
    match (edges.foldl Links.addEdge ∅).close with
    | .ok below => .ok ⟨below⟩
    | .error name => .error (.cycle name)

def descendants? (hierarchy : Hierarchy) (category : String) : Option NameSet :=
  if category = noCategory then none else hierarchy.below[category]?

def contains (hierarchy : Hierarchy) (category : String) : Bool :=
  hierarchy.below.contains category

def isA (hierarchy : Hierarchy) (category ancestor : String) : Bool :=
  category == ancestor || (hierarchy.descendants? ancestor).any (·.contains category)

def categories (hierarchy : Hierarchy) : List String :=
  hierarchy.below.keys

def size (hierarchy : Hierarchy) : Nat :=
  hierarchy.below.size

end Hierarchy

end SentenceWalk
