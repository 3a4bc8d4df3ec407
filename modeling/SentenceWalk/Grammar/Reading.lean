import SentenceWalk.Grammar
import SentenceWalk.Ron.Value

namespace SentenceWalk

structure PartFields where
  role : Option (Option Role) := none
  successors : Option (List String) := none
  weights : Option (List Float) := none
  vocabulary : Option (List String) := none

namespace PartFields

def read (implicitSome : Bool) : String → PartFields → Ron.Reader PartFields
  | "role", part => fun text => do
    let role := Ron.optional implicitSome (Ron.unitWord Role.ofName?)
    let (value, rest) ← Ron.once part.role role text
    return ({ part with role := some value }, rest)
  | "successors", part => fun text => do
    let (value, rest) ← Ron.once part.successors (Ron.list Ron.string) text
    return ({ part with successors := some value }, rest)
  | "weights", part => fun text => do
    let (value, rest) ← Ron.once part.weights (Ron.list Ron.float) text
    return ({ part with weights := some value }, rest)
  | "vocabulary", part => fun text => do
    let (value, rest) ← Ron.once part.vocabulary (Ron.list Ron.string) text
    return ({ part with vocabulary := some value }, rest)
  -- The map, the entry, the part and the field are levels of nesting around the value.
  | _, part => fun text => do
    let (_, rest) ← Ron.skipValue implicitSome (Ron.nestingLimit - 4) text
    return (part, rest)

def toPart (code : String) (fields : PartFields) : Part where
  role := fields.role.join.getD (Role.ofCode code)
  successors := fields.successors.getD []
  weights := fields.weights.getD []
  vocabulary := NameSet.ofList (fields.vocabulary.getD [])

end PartFields

namespace Grammar

def readParts (implicitSome : Bool) : Ron.Reader (List (String × PartFields)) :=
  Ron.entries (Ron.fields "Pos" (PartFields.read implicitSome) {})

def ofText (text : List Char) : Except GrammarError Grammar :=
  match Ron.document? readParts text with
  | some parts => ofParts (parts.map fun (code, fields) => (code, fields.toPart code))
  | none => .error .malformed

end Grammar

end SentenceWalk
