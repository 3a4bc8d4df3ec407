import SentenceWalk.Ron.Token

namespace SentenceWalk.Ron

/-! ### Rows of items -/

/-- Items with commas between them, up to the character `stop`. A last comma may stand in front of
it. Every item takes the state that the items before it have led to further. -/
def items {σ : Type} (stop : Char) (item : σ → Reader σ) (state : σ) : Reader σ
  | [] => none
  | c :: tail =>
    if c == stop then some (state, tail)
    else
      match item state (c :: tail) with
      | none => none
      | some (next, rest) =>
        match takeComma rest with
        | some (true, more) =>
          if more.length ≤ tail.length then items stop item next more else none
        | some (false, d :: more) => if d == stop then some (next, more) else none
        | _ => none
termination_by text => text.length
decreasing_by simp only [List.length_cons]; omega

def enclosed {σ : Type} (start : String) (stop : Char) (item : σ → Reader σ) (state : σ) :
    Reader σ := fun text => do
  items stop item state (← skipBlank (← takeMark start text))

def afterColon {α : Type} (value : Reader α) : Reader α := fun text => do
  let text ← takeMark ":" (← skipBlank text)
  value (← skipBlank text)

/-! ### Values of a known shape -/

def list {α : Type} (element : Reader α) : Reader (List α) := fun text => do
  let (reversed, rest) ← enclosed "[" ']' (fun done text => do
    let (a, rest) ← element text
    return (a :: done, rest)) [] text
  return (reversed.reverse, rest)

def entries {α : Type} (value : Reader α) : Reader (List (String × α)) := fun text => do
  let (reversed, rest) ← enclosed "\x7b" '\x7d' (fun done text => do
    let (key, rest) ← string text
    let (a, rest) ← afterColon value rest
    return ((key, a) :: done, rest)) [] text
  return (reversed.reverse, rest)

/-- Named fields, which may stand behind the name of their structure. Every field changes the
state. -/
def fields {σ : Type} (name : String) (field : String → σ → Reader σ) (state : σ) : Reader σ :=
  fun text => do
    let text ← if text.head?.any isIdentifierChar then
        match identifier text with
        | some (found, rest) => if found == name then skipBlank rest else none
        | none => none
      else some text
    enclosed "(" ')' (fun state text => do
      let (name, rest) ← identifier text
      afterColon (field name state) rest) state text

def once {α : Type} (given : Option α) (value : Reader α) : Reader α :=
  if given.isSome then fun _ => none else value

/-- A value that may be absent. Where a document allows it, a value stands for itself without being
marked as present. Nothing has to part a mark from what follows it. -/
def optional {α : Type} (implicitSome : Bool) (value : Reader α) : Reader (Option α) := fun text =>
  match takeMark "None" text with
  | some rest => some (none, rest)
  | none => do
    let unmarked (text : List Char) :=
      if implicitSome then (value text).map fun (a, rest) => (some a, rest) else none
    match takeMark "Some" text with
    | none => unmarked text
    | some rest =>
      let rest ← skipBlank rest
      match takeMark "(" rest with
      | none => unmarked rest
      | some rest =>
        let (a, rest) ← value (← skipBlank rest)
        let (_, rest) ← takeComma rest
        return (some a, ← takeMark ")" rest)

def unitWord {α : Type} (value? : String → Option α) : Reader α := fun text => do
  let (name, rest) ← identifier text
  return (← value? name, rest)

/-! ### Values of any shape -/

def hasNames (text : List Char) : Option Bool :=
  match identifier text with
  | none => some false
  | some (_, rest) => do
    let rest ← skipBlank rest
    return (← rest.head?) == ':'

/-- Passes over a value, given what passes over the value marked as present in it and, unless it
is nested too deeply to be opened, over the values inside its brackets. -/
def skipValueWith (implicitSome : Bool) (content : Reader Unit) (inside : Option (Reader Unit)) :
    Reader Unit := fun text =>
  let done (rest : Option (List Char)) := rest.map ((), ·)
  let inGroup (text : List Char) : Option (Unit × List Char) := do
    let inside ← inside
    let names ← hasNames (← skipBlank (← takeMark "(" text))
    enclosed "(" ')' (fun _ text => do
      if names then
        let (_, rest) ← identifier text
        afterColon inside rest
      else inside text) () text
  match ["true", "false", "None", "inf", "-inf", "NaN"].findSome? (takeWord · text) with
  | some rest => some ((), rest)
  | none =>
    if (takeWord "Some" text).isSome then
      (optional implicitSome content text).map fun (_, rest) => ((), rest)
    else
      match takeMark "()" text, identifier text with
      | some rest, _ => some ((), rest)
      | none, some (_, rest) => do
        let rest ← skipBlank rest
        if rest.head? == some '(' then inGroup rest else return ((), rest)
      | none, none =>
        match text with
        | '(' :: _ => inGroup text
        | '[' :: _ => do
          let inside ← inside
          enclosed "[" ']' (fun _ => inside) () text
        | '\x7b' :: _ => do
          let inside ← inside
          enclosed "\x7b" '\x7d' (fun _ text => do
            let ((), rest) ← inside text
            afterColon inside rest) () text
        | '.' :: _ => done ((float text).map Prod.snd)
        | '"' :: _ | 'r' :: _ => done ((string text).map Prod.snd)
        | '\'' :: _ => done ((character text).map Prod.snd)
        | c :: _ => if c.isDigit || c == '+' || c == '-' then done (skipNumber text) else none
        | [] => none

/-- Passes over a value of any shape. Brackets take one level of nesting and what is inside them
another. -/
def skipValue (implicitSome : Bool) : Nat → Reader Unit
  | 0 => skipValueWith implicitSome (fun _ => none) none
  | 1 => skipValueWith implicitSome (skipValue implicitSome 0) (some fun _ => none)
  | levels + 2 =>
    skipValueWith implicitSome (skipValue implicitSome (levels + 1))
      (some (skipValue implicitSome levels))

def nestingLimit : Nat := 128

/-! ### Documents -/

def takeMarks (marks : List String) (text : List Char) : Option (List Char) :=
  marks.foldlM (fun text mark => do skipBlank (← takeMark mark text)) text

def extensions (implicitSome : Bool) (text : List Char) : Option (Bool × List Char) :=
  match identifier text with
  | none => none
  | some (name, rest) =>
    if ["implicit_some", "unwrap_newtypes", "unwrap_variant_newtypes"].contains name then
      let implicitSome := implicitSome || name == "implicit_some"
      match takeComma rest with
      | none => none
      | some (comma, more) =>
        let another := more.head?.any isIdentifierChar
        if comma && another then
          if more.length < text.length then extensions implicitSome more else none
        else if another then none
        else some (implicitSome, more)
    else none
termination_by text.length

def attributes (implicitSome : Bool) (text : List Char) : Option (Bool × List Char) :=
  if text.head? == some '#' then
    match takeMarks ["#", "!", "[", "enable", "("] text with
    | none => none
    | some rest =>
      match extensions implicitSome rest with
      | none => none
      | some (implicitSome, rest) =>
        match takeMarks [")", "]"] rest with
        | none => none
        | some rest =>
          if rest.length < text.length then attributes implicitSome rest else none
  else some (implicitSome, text)
termination_by text.length

/-- The value that is all of a document. Whether values may stand unmarked is passed to its
reader. -/
def document? {α : Type} (value : Bool → Reader α) (text : List Char) : Option α := do
  let (implicitSome, text) ← attributes false (← skipBlank text)
  let (a, rest) ← value implicitSome text
  if (← skipBlank rest).isEmpty then return a else none

end SentenceWalk.Ron
