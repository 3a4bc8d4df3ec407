import SentenceWalk.Session

/-!
Generating sentences one after the other. Each has a random stream of its own, so that a sentence
depends on the seed and its number only.
-/

namespace SentenceWalk

/-- A language, settings and a seed, of which `started` sentences have been started. -/
structure Generator where
  language : Language
  config : Config
  seed : UInt64
  started : UInt64 := 0

namespace Generator

def rules (generator : Generator) : Rules :=
  ⟨generator.language, generator.config⟩

def startSession (generator : Generator) : (Session × RandomStream) × Generator :=
  ((Session.ofStart generator.language.grammar.start,
      RandomStream.ofSeed (generator.seed + generator.started)),
    { generator with started := generator.started + 1 })

/-- The next sentence. One that fails counts as well. -/
def generate (generator : Generator) : Except WalkError String × Generator :=
  let ((session, stream), next) := generator.startSession
  ((session.run generator.rules stream).1, next)

/-- The next `count` sentences, or the error of the first one that fails, behind which none is
started. -/
def generateMany (generator : Generator) :
    Nat → Except WalkError (List String) × Generator
  | 0 => (.ok [], generator)
  | count + 1 =>
    match generator.generate with
    | (.error error, next) => (.error error, next)
    | (.ok sentence, next) =>
      let (rest, last) := next.generateMany count
      (rest.map (sentence :: ·), last)

def failureMessage (error : WalkError) : String :=
  "selection error: " ++ error.message

end Generator

end SentenceWalk
