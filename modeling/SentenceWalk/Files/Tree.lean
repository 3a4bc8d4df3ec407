import SentenceWalk.Files

/-!
A directory held in memory, and what there is at a path. A path starts from that directory, or from
the top of the system around it, of which only the standard places are known.
-/

namespace SentenceWalk

inductive Location where
  /-- The place at the end of these names, each the name of a place in the one before it. -/
  | inside (names : List String)
  /-- The place at the end of these names, of which the first is that of a place at the top. -/
  | fromTop (names : List String)
  /-- A directory further up than the start. -/
  | outside
  deriving DecidableEq, Repr

namespace Location

/-- Where a path starts: only one that opens with a slash starts at the top. -/
def start (path : String) : Location :=
  if path.toList.head? == some '/' then .fromTop [] else .inside []

/-- The place that a name leads to, if it is known. Nothing is above the top. -/
def next? : Location → String → Option Location
  | here, "" => some here
  | here, "." => some here
  | .inside [], ".." => some .outside
  | .inside names, ".." => some (.inside names.dropLast)
  | .fromTop names, ".." => some (.fromTop names.dropLast)
  | .outside, ".." => some .outside
  | .inside names, name => some (.inside (names ++ [name]))
  | .fromTop names, name => some (.fromTop (names ++ [name]))
  | .outside, _ => none

def along (here : Location) : List String → List Location
  | [] => [here]
  | name :: names =>
    match here.next? name with
    | some next => here :: next.along names
    | none => [here]

def standardDirectories : List Location :=
  ["bin", "boot", "dev", "etc", "home", "lib", "media", "mnt", "opt", "proc", "root", "run", "sbin",
    "srv", "sys", "tmp", "usr", "var"].map fun name => .fromTop [name]

def nullFile : Location :=
  .fromTop ["dev", "null"]

end Location

structure FileTree where
  files : List (Location × ByteArray) := [(.nullFile, .empty)]
  directories : List Location :=
    [.inside [], .outside, .fromTop []] ++ Location.standardDirectories

namespace FileTree

/-- The tree with a file at a path. All places on the way to it become directories. -/
def insert (tree : FileTree) (path : String) (bytes : ByteArray) : FileTree :=
  let way := (Location.start path).along (path.splitOn "/")
  { files := (way.getLast?.map (·, bytes)).toList ++ tree.files
    directories := way.dropLast ++ tree.directories }

/-- The tree with files at the given paths. Of two at one place the later one counts. -/
def ofList (files : List (String × ByteArray)) : FileTree :=
  files.foldl (fun tree (path, bytes) => tree.insert path bytes) {}

def contentAt (tree : FileTree) (place : Location) : Content :=
  match tree.files.lookup place with
  | some bytes => .file bytes
  | none => if tree.directories.contains place then .directory else .missing

def follow (tree : FileTree) (here : Location) : List String → Option Location
  | [] => some here
  | name :: names =>
    match tree.contentAt here with
    | .directory => (here.next? name).bind fun next => tree.follow next names
    | _ => none

/-- The bytes of a path that leads nowhere because it is too long. -/
def tooLong : Nat :=
  4096

def toFiles (tree : FileTree) : Files := fun path =>
  if path.isEmpty || tooLong ≤ path.utf8ByteSize then .missing
  else
    match tree.follow (.start path) (path.splitOn "/") with
    | some place => tree.contentAt place
    | none => .missing

end FileTree

end SentenceWalk
