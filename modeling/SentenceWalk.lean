import SentenceWalk.Names
import SentenceWalk.Role
import SentenceWalk.Word
import SentenceWalk.Random.Choice
import SentenceWalk.Random.Weighted
import SentenceWalk.Text.Blank
import SentenceWalk.Text.Uppercase
import SentenceWalk.Decimal.Shortest
import SentenceWalk.Decimal.Reading
import SentenceWalk.Ron.Token
import SentenceWalk.Ron.Value
import SentenceWalk.Table
import SentenceWalk.Grammar
import SentenceWalk.Grammar.Reading
import SentenceWalk.Hierarchy.Reading
import SentenceWalk.Lexicon.Reading
import SentenceWalk.Language
import SentenceWalk.Inflection
import SentenceWalk.Pending
import SentenceWalk.History
import SentenceWalk.Config.Reading
import SentenceWalk.Session
import SentenceWalk.Files.Tree
import SentenceWalk.Source
import SentenceWalk.Lint
import SentenceWalk.Main
import SentenceWalk.Proofs.GrammarSoundness
import SentenceWalk.Proofs.SuccessorDraw
import SentenceWalk.Proofs.RequirementAlgebra
import SentenceWalk.Proofs.LexiconIndex
import SentenceWalk.Proofs.WordDraw
import SentenceWalk.Proofs.NounDraw
import SentenceWalk.Proofs.Transition
import SentenceWalk.Proofs.Placement
import SentenceWalk.Proofs.GrammarWalk
import SentenceWalk.Proofs.Chronicle
import SentenceWalk.Proofs.ConjunctionLicence
import SentenceWalk.Proofs.NounRequirements
import SentenceWalk.Proofs.PrepositionChange
import SentenceWalk.Proofs.ProperNounLicence
import SentenceWalk.Proofs.Reserve
import SentenceWalk.Proofs.ConjoinedNouns
import SentenceWalk.Proofs.Descent
import SentenceWalk.Proofs.HierarchyClosure
import SentenceWalk.Proofs.Run
import SentenceWalk.Proofs.LengthLimit
import SentenceWalk.Proofs.RunCost
import SentenceWalk.Proofs.CategoryMembers
import SentenceWalk.Proofs.LanguageAssembly
import SentenceWalk.Proofs.NounNumber
import SentenceWalk.Proofs.Likeness
import SentenceWalk.Proofs.ParallelSessions
import SentenceWalk.Proofs.CategoryCarriers
import SentenceWalk.Proofs.DataOrder
import SentenceWalk.Proofs.UndrawableWords
import SentenceWalk.Proofs.VerbParticiple
import SentenceWalk.Proofs.SessionRecords
import SentenceWalk.Proofs.WordLookup
import SentenceWalk.Proofs.SeedOffset
import SentenceWalk.Proofs.HierarchyFaults
import SentenceWalk.Proofs.DeadEnds
import SentenceWalk.Proofs.Blanks
import SentenceWalk.Proofs.TableLayout
import SentenceWalk.Proofs.HierarchyTable
import SentenceWalk.Proofs.WordTable
import SentenceWalk.Proofs.RequirementMatch
import SentenceWalk.Proofs.ModifierDraw
import SentenceWalk.Proofs.WordReuse
import SentenceWalk.Proofs.ConjunctionResumed
import SentenceWalk.Proofs.ObjectCategory
import SentenceWalk.Proofs.FailedStep
import SentenceWalk.Proofs.CategoryNames
import SentenceWalk.Proofs.Reachability
import SentenceWalk.Proofs.WordWarnings
import SentenceWalk.Proofs.RejectedDraws
import SentenceWalk.Proofs.NonnegativeNumbers
import SentenceWalk.Proofs.WeightTotal
import SentenceWalk.Proofs.StepwiseSentences
import SentenceWalk.Proofs.SearchOutcome
