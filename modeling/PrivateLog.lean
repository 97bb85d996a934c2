import PrivateLog.Text.Blank
import PrivateLog.Text.Letter
import PrivateLog.Text.Visible
import PrivateLog.Text.Quoted
import PrivateLog.Token.Text
import PrivateLog.Token.Number
import PrivateLog.Token.StringLiteral
import PrivateLog.Token.Tree
import PrivateLog.Expression.Reader
import PrivateLog.Severity
import PrivateLog.Expansion
import PrivateLog.Value.Redaction
import PrivateLog.Record
import PrivateLog.Session
import PrivateLog.Lock.Exercise
import PrivateLog.Proofs.Format.Spelling
import PrivateLog.Proofs.Template.Compilation
import PrivateLog.Proofs.NonInterference
import PrivateLog.Proofs.Template.Message
import PrivateLog.Proofs.Template.Grammar
import PrivateLog.Proofs.Template.Labels
import PrivateLog.Proofs.Template.Acceptance
import PrivateLog.Proofs.Lock.Exclusion
import PrivateLog.Proofs.Lock.Visits
import PrivateLog.Proofs.Lock.Serialization
import PrivateLog.Proofs.Lock.Overflow
import PrivateLog.Proofs.Expression.Productions
import PrivateLog.Proofs.Expression.Derivation
import PrivateLog.Proofs.Expression.Enough
import PrivateLog.Proofs.Expression.Boundary
import PrivateLog.Proofs.Expression.Colon
import PrivateLog.Proofs.Template.Unlabelled
import PrivateLog.Proofs.Template.Bracketed
import PrivateLog.Proofs.Template.Interpolation
import PrivateLog.Proofs.Invocation.Writing
import PrivateLog.Proofs.Invocation.Locals
import PrivateLog.Proofs.Logger.Accounting
import PrivateLog.Proofs.Registry.Snapshot
import PrivateLog.Proofs.Registry.Methods
import PrivateLog.Proofs.Session.Delivery
import PrivateLog.Proofs.Session.Output
import PrivateLog.Proofs.Format.Composition
import PrivateLog.Proofs.Format.Building
import PrivateLog.Proofs.Token.Extent
import PrivateLog.Proofs.Token.Consuming
import PrivateLog.Proofs.Token.Numbers
import PrivateLog.Proofs.Token.Ends
import PrivateLog.Proofs.Token.Legible
import PrivateLog.Proofs.Token.Printing
import PrivateLog.Proofs.Expression.Printing
import PrivateLog.Proofs.Expansion.Sameness
import PrivateLog.Proofs.Token.Places
import PrivateLog.Proofs.Template.Faults
import PrivateLog.Proofs.Template.Matching
import PrivateLog.Proofs.Invocation.Diagnostics
import PrivateLog.Proofs.Token.Identifier
import PrivateLog.Proofs.Invocation.References
import PrivateLog.Proofs.Value.Origins
import PrivateLog.Proofs.Expansion.Code
import PrivateLog.Proofs.Expansion.Outline
import PrivateLog.Proofs.Format.Markers
import PrivateLog.Proofs.Template.Readings
import PrivateLog.Proofs.Token.Literal
import PrivateLog.Proofs.Expansion.Written
import PrivateLog.Proofs.Expansion.Evaluation
import PrivateLog.Proofs.Expression.Following
import PrivateLog.Proofs.Expression.Joining
import PrivateLog.Proofs.Expression.Normal
