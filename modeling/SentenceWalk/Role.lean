namespace SentenceWalk

inductive Role where
  | start
  | finish
  | noun
  | properNoun
  | verb
  | preposition
  | conjunction
  | adjective
  | pluralArticle
  | singularArticle
  | other
  deriving DecidableEq, Repr

namespace Role

/-- The role of a code for which the grammar gives none. -/
def ofCode : String → Role
  | "S" => start
  | "END" => finish
  | "N" | "MN" => noun
  | "PN" => properNoun
  | "IV" | "STV" | "MTV" => verb
  | "P" | "MP" => preposition
  | "CONJ" | "MCONJ" => conjunction
  | "ADJ" | "MADJ" => adjective
  | "PART" | "MPART" => pluralArticle
  | "SART" | "MSART" => singularArticle
  | _ => other

/-- Words of these roles are not used twice if that can be avoided. -/
def isTracked : Role → Bool
  | noun | verb => true
  | _ => false

/-- Words of these roles have to agree with the requirements that wait for a noun. -/
def isModifier : Role → Bool
  | adjective | preposition => true
  | _ => false

def name : Role → String
  | start => "Start"
  | finish => "End"
  | noun => "Noun"
  | properNoun => "ProperNoun"
  | verb => "Verb"
  | preposition => "Preposition"
  | conjunction => "Conjunction"
  | adjective => "Adjective"
  | pluralArticle => "PluralArticle"
  | singularArticle => "SingularArticle"
  | other => "Other"

def all : List Role :=
  [start, finish, noun, properNoun, verb, preposition, conjunction, adjective, pluralArticle,
    singularArticle, other]

def ofName? (word : String) : Option Role :=
  all.find? fun role => role.name == word

end Role

end SentenceWalk
