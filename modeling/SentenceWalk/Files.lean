import SentenceWalk.Table

namespace SentenceWalk

inductive Content where
  | missing
  | directory
  | file (bytes : ByteArray)

abbrev Files := String → Content

namespace Files

def inDirectory (directory name : String) : String :=
  if directory.isEmpty || directory.toList.getLast? == some '/' then directory ++ name
  else directory ++ "/" ++ name

def text? (files : Files) (path : String) : Option (List Char) :=
  match files path with
  | .file bytes => (String.fromUTF8? bytes).map String.toList
  | _ => none

/-- The table in a file. A directory can be opened like one, but not be read. -/
def table? (files : Files) (path : String) : Option Table :=
  match files path with
  | .missing => none
  | .directory => some Table.unreadable
  | .file bytes => some (Table.ofBytes bytes)

end Files

end SentenceWalk
