import Rulebook.Builtin
import Rulebook.Json.Decode
import Rulebook.Json.Encode
import Rulebook.Program.Compile
import Rulebook.Record
import Rulebook.Session
import Rulebook.Proofs.Analysis.Findings
import Rulebook.Proofs.Analysis.Order
import Rulebook.Proofs.Acceptance
import Rulebook.Proofs.Meaning
import Rulebook.Proofs.PlainEvaluation
import Rulebook.Proofs.Traversal
import Rulebook.Proofs.WholeEvaluation
import Rulebook.Proofs.Stack
import Rulebook.Proofs.Tables
import Rulebook.Proofs.Picking
import Rulebook.Proofs.Sessions
import Rulebook.Proofs.Agreement
import Rulebook.Proofs.Safety
import Rulebook.Proofs.Dependence
import Rulebook.Proofs.History
import Rulebook.Proofs.Guard
import Rulebook.Proofs.TableCycles
import Rulebook.Proofs.Analysis.Cycles
import Rulebook.Proofs.Analysis.Marks
import Rulebook.Proofs.Analysis.Problems
import Rulebook.Proofs.Locality
import Rulebook.Proofs.AwayFromTables
import Rulebook.Proofs.Consultation
import Rulebook.Proofs.Replay
import Rulebook.Proofs.Desk
import Rulebook.Proofs.Tidiness
import Rulebook.Proofs.Analysis.AnyGraph
import Rulebook.Proofs.Analysis.BackEdges
import Rulebook.Proofs.Analysis.EncounterOrder
import Rulebook.Proofs.Analysis.Leaves
import Rulebook.Proofs.Analysis.Drawing
import Rulebook.Proofs.Fields
import Rulebook.Proofs.Coherence
import Rulebook.Proofs.RoundTrip
import Rulebook.Proofs.Places
import Rulebook.Proofs.Redefinition
import Rulebook.Proofs.Inlining
import Rulebook.Proofs.Splitting
import Rulebook.Proofs.NameByName
import Rulebook.Proofs.Failures
import Rulebook.Proofs.RunningCycles
import Rulebook.Proofs.Keys
import Rulebook.Proofs.Arithmetic
import Rulebook.Proofs.Comparison
import Rulebook.Proofs.Numbering
