/-!
White space: the characters with the Unicode property `White_Space`, and cutting text at them.
-/

namespace SentenceWalk.Text

def isBlank (c : Char) : Bool :=
  ('\t' ≤ c && c ≤ '\r') || c == ' ' || c == '\u0085' || c == '\u00a0' || c == '\u1680' ||
  ('\u2000' ≤ c && c ≤ '\u200a') || c == '\u2028' || c == '\u2029' || c == '\u202f' ||
  c == '\u205f' || c == '\u3000'

def trim (text : List Char) : List Char :=
  ((text.dropWhile isBlank).reverse.dropWhile isBlank).reverse

/-- A run that has been read in reverse, unless it is empty. -/
def closeRun (run : List Char) : List (List Char) :=
  if run.isEmpty then [] else [run.reverse]

/-- The longest runs without a blank in a text, in front of which `run` has been read in reverse. -/
def wordsFrom (run : List Char) : List Char → List (List Char)
  | [] => closeRun run
  | c :: rest => if isBlank c then closeRun run ++ wordsFrom [] rest else wordsFrom (c :: run) rest

def words (text : List Char) : List (List Char) :=
  wordsFrom [] text

end SentenceWalk.Text
