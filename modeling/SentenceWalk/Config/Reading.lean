import SentenceWalk.Config
import SentenceWalk.Ron.Value

namespace SentenceWalk

structure ConfigFields where
  lengthThreshold : Option Nat := none
  endWeightStep : Option Float := none
  matchRetryLimit : Option Nat := none
  partRetryLimit : Option Nat := none
  maxSentenceLength : Option Nat := none
  properNounCategory : Option String := none
  conjoinFlag : Option String := none
  participleTrigger : Option String := none

namespace ConfigFields

/-- A setting. The known ones may be given once, others are passed over. -/
def read (implicitSome : Bool) : String → ConfigFields → Ron.Reader ConfigFields
  | "length_threshold", given => fun text => do
    let (value, rest) ← Ron.once given.lengthThreshold (Ron.unsignedBelow UInt64.size) text
    return ({ given with lengthThreshold := some value }, rest)
  | "end_weight_step", given => fun text => do
    let (value, rest) ← Ron.once given.endWeightStep Ron.float text
    return ({ given with endWeightStep := some value }, rest)
  | "match_retry_limit", given => fun text => do
    let (value, rest) ← Ron.once given.matchRetryLimit (Ron.unsignedBelow UInt32.size) text
    return ({ given with matchRetryLimit := some value }, rest)
  | "pos_retry_limit", given => fun text => do
    let (value, rest) ← Ron.once given.partRetryLimit (Ron.unsignedBelow UInt32.size) text
    return ({ given with partRetryLimit := some value }, rest)
  | "max_sentence_length", given => fun text => do
    let (value, rest) ← Ron.once given.maxSentenceLength (Ron.unsignedBelow UInt64.size) text
    return ({ given with maxSentenceLength := some value }, rest)
  | "proper_noun_category", given => fun text => do
    let (value, rest) ← Ron.once given.properNounCategory Ron.string text
    return ({ given with properNounCategory := some value }, rest)
  | "conjoin_flag", given => fun text => do
    let (value, rest) ← Ron.once given.conjoinFlag Ron.string text
    return ({ given with conjoinFlag := some value }, rest)
  | "participle_trigger", given => fun text => do
    let (value, rest) ← Ron.once given.participleTrigger Ron.string text
    return ({ given with participleTrigger := some value }, rest)
  -- The settings and each of them are levels of nesting around the value.
  | _, given => fun text => do
    let (_, rest) ← Ron.skipValue implicitSome (Ron.nestingLimit - 2) text
    return (given, rest)

def toConfig (given : ConfigFields) : Config :=
  let base : Config := {}
  { lengthThreshold := given.lengthThreshold.getD base.lengthThreshold
    endWeightStep := given.endWeightStep.getD base.endWeightStep
    matchRetryLimit := given.matchRetryLimit.getD base.matchRetryLimit
    partRetryLimit := given.partRetryLimit.getD base.partRetryLimit
    maxSentenceLength := given.maxSentenceLength.getD base.maxSentenceLength
    properNounCategory := given.properNounCategory.getD base.properNounCategory
    conjoinFlag := given.conjoinFlag.getD base.conjoinFlag
    participleTrigger := given.participleTrigger.getD base.participleTrigger }

end ConfigFields

def Config.ofText? (text : List Char) : Option Config :=
  let settings (implicitSome : Bool) :=
    Ron.fields "SelectionConfig" (ConfigFields.read implicitSome) {}
  (Ron.document? settings text).map ConfigFields.toConfig

end SentenceWalk
