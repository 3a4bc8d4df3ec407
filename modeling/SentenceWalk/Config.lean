namespace SentenceWalk

structure Config where
  /-- The length of the history up to which the end has the weight that the grammar gives it. -/
  lengthThreshold : Nat := 7
  /-- What the end gains in weight for every part-of-speech beyond that length. -/
  endWeightStep : Float := 0.05
  matchRetryLimit : Nat := 100
  partRetryLimit : Nat := 1000
  maxSentenceLength : Nat := 64
  /-- The category whose requirement lets a proper noun follow. -/
  properNounCategory : String := "pn"
  /-- The flag of prepositions whose noun may be continued by a conjunction. -/
  conjoinFlag : String := "okayconj"
  /-- The word behind which a verb is a participle. -/
  participleTrigger : String := "while"

end SentenceWalk
