import SentenceWalk.Hierarchy
import SentenceWalk.Word

namespace SentenceWalk

inductive LexiconError where
  | duplicateWord (name tag : String)
  | emptyField (row : Nat)
  | unreadable
  | brokenTable
  deriving DecidableEq, Repr

namespace LexiconError

def message : LexiconError → String
  | duplicateWord name tag => s!"duplicate word '{name}' with part-of-speech '{tag}'"
  | emptyField row => s!"word table row {row} has an empty name or part-of-speech"
  | unreadable => "IO error: the word table cannot be opened"
  | brokenTable => "CSV error: the word table is no table of words"

end LexiconError

/-- A word and its place in the word table. -/
structure Entry where
  id : Nat
  word : Word
  deriving DecidableEq, Repr

namespace Entry

def name (entry : Entry) : String :=
  entry.word.name

end Entry

/-- The first word whose name and tag belong to an earlier word or are among `taken`. -/
def Word.repeated? (taken : List (String × String)) : List Word → Option Word
  | [] => none
  | word :: words =>
    if taken.contains (word.name, word.tag) then some word
    else repeated? ((word.name, word.tag) :: taken) words

abbrev KeyMap (α : Type) := Std.ExtTreeMap (String × String) α lexOrd.compare

def Word.key (word : Word) : String × String :=
  (word.name, word.tag)

namespace Lexicon

def addCarrier (table : NameMap NameSet) (word : Word) : NameMap NameSet :=
  word.categories.foldl (fun table category =>
    table.insert category ((table.getD category ∅).insert word.name)) table

def carriers (words : List Word) : NameMap NameSet :=
  words.foldl addCarrier ∅

end Lexicon

/-- What is on record of the first `size` words of a table: the place of each name and tag, the
places of each name and the names of the words that name each category themselves. -/
structure WordTables where
  size : Nat := 0
  byKey : KeyMap Nat := ∅
  byName : NameMap (List Nat) := ∅
  carriers : NameMap NameSet := ∅

namespace WordTables

def enter (tables : WordTables) (word : Word) : WordTables where
  size := tables.size + 1
  byKey := tables.byKey.insert word.key tables.size
  byName := tables.byName.insert word.name (tables.byName.getD word.name [] ++ [tables.size])
  carriers := Lexicon.addCarrier tables.carriers word

def insert (tables : WordTables) (word : Word) : Except LexiconError WordTables :=
  if tables.byKey.contains word.key then .error (.duplicateWord word.name word.tag)
  else .ok (tables.enter word)

def insertAll (tables : WordTables) : List Word → Except LexiconError WordTables
  | [] => .ok tables
  | word :: words =>
    match tables.insert word with
    | .error error => .error error
    | .ok tables => tables.insertAll words

def ofWords (words : List Word) : WordTables :=
  words.foldl enter {}

theorem insert_cases (tables : WordTables) (word : Word) :
    (word.key ∈ tables.byKey ∧ tables.insert word = .error (.duplicateWord word.name word.tag)) ∨
      (word.key ∉ tables.byKey ∧ tables.insert word = .ok (tables.enter word)) := by
  by_cases hkey : word.key ∈ tables.byKey
  · exact .inl ⟨hkey, if_pos hkey⟩
  · exact .inr ⟨hkey, if_neg hkey⟩

theorem mem_byKey_enter {tables : WordTables} {word : Word} {key : String × String} :
    key ∈ (tables.enter word).byKey ↔ key = word.key ∨ key ∈ tables.byKey := by
  rw [enter, Std.ExtTreeMap.mem_insert, Std.LawfulEqCmp.compare_eq_iff_eq, eq_comm]

/-- Words that have all been entered differ in name or tag, and are on record one after the other.
-/
theorem insertAll_ok {tables result : WordTables} {words : List Word}
    (taken : List (String × String)) (ht : ∀ key, key ∈ tables.byKey ↔ key ∈ taken)
    (h : tables.insertAll words = .ok result) :
    Word.repeated? taken words = none ∧ result = words.foldl enter tables := by
  induction words generalizing tables taken with
  | nil => exact ⟨rfl, (Except.ok.inj h).symm⟩
  | cons word words ih =>
    rw [insertAll] at h
    obtain ⟨_, hinsert⟩ | ⟨hfresh, hinsert⟩ := tables.insert_cases word
    · rw [hinsert] at h
      cases h
    · rw [hinsert] at h
      have hnone : ¬ taken.contains (word.name, word.tag) = true := by
        rw [List.contains_iff_mem, ← ht]
        exact hfresh
      rw [Word.repeated?, if_neg hnone]
      refine ih _ ?_ h
      intro key
      rw [mem_byKey_enter, ht, List.mem_cons]
      rfl

end WordTables

/-- Words that differ in name or tag, with the tables in which they are looked up and the members of
categories. -/
structure Lexicon where
  words : List Word := []
  tables : WordTables := .ofWords words
  members : NameMap NameSet := ∅
  distinct : Word.repeated? [] words = none := by rfl
  listed : tables = .ofWords words := by rfl

namespace Lexicon

def ofWords (words : List Word) : Except LexiconError Lexicon :=
  match h : WordTables.insertAll {} words with
  | .error error => .error error
  | .ok tables =>
    have hall := WordTables.insertAll_ok [] (by simp) h
    .ok { words, tables, members := tables.carriers, distinct := hall.1, listed := hall.2 }

def membersIn (table : NameMap NameSet) (hierarchy : Hierarchy) (category : String) : NameSet :=
  ((hierarchy.descendants? category).getD ∅).toList.foldl
    (fun names narrower => names ∪ table.getD narrower ∅) (table.getD category ∅)

/-- The lexicon in which a category has its own words and those of the categories below it. -/
def index (lexicon : Lexicon) (hierarchy : Hierarchy) : Lexicon :=
  let table := lexicon.tables.carriers
  { lexicon with
    members := (hierarchy.categories ++ table.keys).foldl
      (fun members category => members.insert category (membersIn table hierarchy category)) ∅ }

def members? (lexicon : Lexicon) (category : String) : Option NameSet :=
  lexicon.members[category]?

def hasCategory (lexicon : Lexicon) (category : String) : Bool :=
  lexicon.tables.carriers.contains category

def entries (lexicon : Lexicon) : List Entry :=
  lexicon.words.zipIdx.map fun (word, id) => ⟨id, word⟩

def withTags (lexicon : Lexicon) (tags : NameSet) : List Entry :=
  lexicon.entries.filter fun entry => tags.contains entry.word.tag

def lookup (lexicon : Lexicon) (name tag : String) : Option Word :=
  lexicon.tables.byKey[(name, tag)]?.bind fun id => lexicon.words[id]?

def entryAt (lexicon : Lexicon) (id : Nat) : Option Entry :=
  lexicon.words[id]?.map fun word => ⟨id, word⟩

def find? (lexicon : Lexicon) (name : String) (tags : NameSet) : Option Entry :=
  let named := (lexicon.tables.byName.getD name []).filterMap lexicon.entryAt
  named.find? fun entry => tags.contains entry.word.tag

def size (lexicon : Lexicon) : Nat :=
  lexicon.words.length

end Lexicon

end SentenceWalk
