import OptimizerHints.Text.Blank
import OptimizerHints.Sorted.Map
import OptimizerHints.Document
import OptimizerHints.Decimal.Format
import OptimizerHints.Decimal.Reading
import OptimizerHints.Json.Reader
import OptimizerHints.Json.Printer
import OptimizerHints.Query
import OptimizerHints.Operator
import OptimizerHints.JoinTree.Loading
import OptimizerHints.Parameters
import OptimizerHints.Hint.Compilation
import OptimizerHints.Selection
import OptimizerHints.Plan.Explained
import OptimizerHints.Stored.Plan
import OptimizerHints.Stored.Config
import OptimizerHints.PlanDocument.Reading
import OptimizerHints.Stored.PlanDocument
import OptimizerHints.Proofs.Synopsis.Paths
import OptimizerHints.Proofs.Outcome
import OptimizerHints.Proofs.Synopsis.Ledger
import OptimizerHints.Proofs.Synopsis.Places
import OptimizerHints.Proofs.Synopsis.Feedback
import OptimizerHints.Proofs.Synopsis.Log
import OptimizerHints.Proofs.Selection.Learning
import OptimizerHints.Proofs.JoinTree.Soundness
import OptimizerHints.Proofs.Assignment
import OptimizerHints.Proofs.JoinTree.Operators
import OptimizerHints.Proofs.Synopsis.Advice
import OptimizerHints.Proofs.Hint.DirectedOrder
import OptimizerHints.Proofs.Hint.Compilation
import OptimizerHints.Proofs.JoinTree.Leaves
import OptimizerHints.Proofs.Plan.Reach
import OptimizerHints.Proofs.JoinTree.Mirror
import OptimizerHints.Proofs.JoinTree.Representation
import OptimizerHints.Proofs.Plan.Built
import OptimizerHints.Proofs.Synopsis.Consulted
import OptimizerHints.Proofs.Synopsis.Evidence
import OptimizerHints.Proofs.Hint.Direction
import OptimizerHints.Proofs.Hint.Reproduction
import OptimizerHints.Proofs.Plan.Explained
import OptimizerHints.Proofs.Plan.Inputs
import OptimizerHints.Proofs.Selection.Forcing
import OptimizerHints.Proofs.PlanDocument.Direction
import OptimizerHints.Proofs.Hint.Splicing
import OptimizerHints.Proofs.Hint.Arrangement
import OptimizerHints.Proofs.Sorted.Map
import OptimizerHints.Proofs.JoinTree.Annotations
import OptimizerHints.Proofs.Hint.Agreement
import OptimizerHints.Proofs.Assignment.Merging
import OptimizerHints.Proofs.Hint.Nested
import OptimizerHints.Proofs.JoinTree.Update
import OptimizerHints.Proofs.Parameters
import OptimizerHints.Proofs.Hint.Merging
import OptimizerHints.Proofs.Text.Words
import OptimizerHints.Proofs.Selection.NativeOrder
import OptimizerHints.Proofs.Synopsis.View
import OptimizerHints.Proofs.PlanDocument.Operators
import OptimizerHints.Proofs.Synopsis.Refusal
import OptimizerHints.Proofs.Synopsis.Decay
import OptimizerHints.Proofs.Config
import OptimizerHints.Proofs.JoinTree.CrossProduct
import OptimizerHints.Proofs.JoinTree.Expansion
import OptimizerHints.Proofs.Plan.Expansion
import OptimizerHints.Proofs.Hint.Clause
