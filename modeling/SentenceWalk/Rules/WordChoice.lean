import SentenceWalk.History
import SentenceWalk.Inflection
import SentenceWalk.Pending
import SentenceWalk.Random.Choice
import SentenceWalk.Rules

namespace SentenceWalk

inductive NextWord where
  | word (entry : Entry)
  | finish
  deriving DecidableEq, Repr

namespace Rules

def requirements (rules : Rules) (entry : Entry) : NameSet :=
  rules.language.requirements entry.word

def pendingAfter (rules : Rules) (cursor : Cursor) (history : History) (pending : Pending) :
    Pending :=
  let pending :=
    match cursor.entry with
    | some entry => pending.apply (rules.requirements entry)
    | none => pending
  if history.inConjunction then pending.resume else pending

/-- Leaves out the entries of a name, unless there are no others. -/
def avoid (pool : List Entry) (name : String) : List Entry :=
  let others := pool.filter fun entry => entry.name != name
  if others.isEmpty then pool else others

/-- Leaves out the used words, as far as any entry remains, and the last preposition in any case. -/
def withoutUsed (pool : List Entry) (used : UsedWords) (history : History) : List Entry :=
  let unused := used.names.foldl avoid pool
  match history.lastPreposition with
  | some preposition => unused.filter fun entry => entry.name != preposition.name
  | none => unused

/-- The entries that a part-of-speech has to offer under what is pending, and what stays pending
then. Restricted nouns meet the requirement and use it up. -/
def offer (rules : Rules) (part : Part) (pending : Pending) : List Entry × Pending :=
  let pool := rules.language.lexicon.withTags part.vocabulary
  if part.role == .noun && pending.isConstrained then
    (pool.filter fun entry => pending.active.contains entry.name, pending.consume)
  else (pool, pending)

/-- Draws entries until one agrees with what is pending, so many times at most. An entry with
requirements of its own agrees if it leaves some name, and what is pending becomes those names. -/
def matchWithin (rules : Rules) (target : String) (pool : List Entry) (pending : Pending) :
    Nat → RandomStream → Except WalkError Entry × Pending × RandomStream
  | 0, stream =>
    (.error (.exhaustedRetries target rules.config.matchRetryLimit), pending, stream)
  | draws + 1, stream =>
    match stream.choose pool with
    | (none, stream) => (.error (.poolExhausted target), pending, stream)
    | (some entry, stream) =>
      if entry.word.hasRequirements then
        let narrowed := pending.active ∩ rules.requirements entry
        if narrowed.isEmpty then matchWithin rules target pool pending draws stream
        else (.ok entry, { pending with active := narrowed }, stream)
      else (.ok entry, pending, stream)

/-- An entry of the pool that agrees with what is pending or, if nothing is, with the requirement of
the last noun. -/
def matchRequirements (rules : Rules) (target : String) (pool : List Entry) (pending : Pending)
    (stream : RandomStream) : Except WalkError Entry × Pending × RandomStream :=
  if pool.isEmpty then (.error (.poolExhausted target), pending, stream)
  else rules.matchWithin target pool pending.seedFromReserve rules.config.matchRetryLimit stream

/-- An entry of the pool for a part of the given role. Modifiers have to agree with what is
pending. -/
def pick (rules : Rules) (target : String) (role : Role) (pool : List Entry) (history : History)
    (pending : Pending) (stream : RandomStream) :
    Except WalkError Entry × Pending × RandomStream :=
  if role.isModifier && (pending.isConstrained || history.inConjunction) then
    rules.matchRequirements target pool pending stream
  else
    match stream.choose pool with
    | (some entry, stream) => (.ok entry, pending, stream)
    | (none, stream) => (.error (.poolExhausted target), pending, stream)

/-- A word of the part-of-speech `target` for the place behind the cursor, and what is pending
behind it. -/
def nextWord (rules : Rules) (cursor : Cursor) (target : String) (pending : Pending)
    (history : History) (used : UsedWords) (stream : RandomStream) :
    Except WalkError NextWord × Pending × RandomStream :=
  match rules.language.grammar.part target with
  | .error error => (.error (.grammar error), pending, stream)
  | .ok part =>
    if part.isTerminal then (.ok .finish, pending, stream)
    else
      let (pool, pending) := rules.offer part (rules.pendingAfter cursor history pending)
      let pool := withoutUsed pool used history
      let (result, pending, stream) := rules.pick target part.role pool history pending stream
      (result.map .word, pending, stream)

def render (rules : Rules) (entry : Entry) (code : String) (situation : Situation) :
    Except WalkError String :=
  match rules.language.grammar.role code with
  | .error error => .error (.grammar error)
  | .ok role => .ok (entry.word.inflect role situation)

end Rules

end SentenceWalk
