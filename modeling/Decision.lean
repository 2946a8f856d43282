import Decision.Document.Table
import Decision.Evaluation.Engine
import Decision.Proofs.Condition.Reading
import Decision.Proofs.Evaluation.Policies
import Decision.Proofs.Evaluation.Scope
import Decision.Proofs.Evaluation.Session
import Decision.Proofs.Evaluation.Coercion
import Decision.Proofs.Evaluation.Untyped
import Decision.Proofs.Evaluation.Account
import Decision.Proofs.Conversion.Equality
import Decision.Proofs.Evaluation.Order
import Decision.Proofs.Evaluation.Ranking
import Decision.Proofs.Evaluation.Insertion
import Decision.Proofs.Document.Table
import Decision.Proofs.Evaluation.Integers
import Decision.Proofs.Evaluation.Extremes
import Decision.Proofs.Condition.Rendering
import Decision.Proofs.Condition.Outcome
import Decision.Proofs.Condition.Composition
import Decision.Proofs.Value.Mixed
import Decision.Proofs.Evaluation.Origins
import Decision.Proofs.Evaluation.Agreement
import Decision.Proofs.Evaluation.Columns
import Decision.Proofs.Binary64.Integer
import Decision.Proofs.Conversion.Integers
import Decision.Proofs.Evaluation.Refusals
import Decision.Proofs.Conversion.Kinds
import Decision.Proofs.Evaluation.Kinds
import Decision.Proofs.Evaluation.Conclusion
import Decision.Proofs.Evaluation.OpenCells
import Decision.Proofs.Evaluation.Rearrangement
import Decision.Proofs.Conversion.Literals
import Decision.Proofs.Evaluation.ThroughText
