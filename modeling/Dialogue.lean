import Dialogue.Event.Codec
import Dialogue.Event.Line
import Dialogue.Session.Simulation
import Dialogue.Proofs.Flow.Index
import Dialogue.Proofs.Session.Course
import Dialogue.Proofs.Session.Soundness
import Dialogue.Proofs.Session.Stride
import Dialogue.Proofs.Session.Checked
import Dialogue.Proofs.Session.Superseded
import Dialogue.Proofs.Session.Outlook
import Dialogue.Proofs.Session.Pace
import Dialogue.Proofs.Session.Log
import Dialogue.Proofs.Session.Play
import Dialogue.Proofs.Conversation.Cut
import Dialogue.Proofs.Session.Stop
import Dialogue.Proofs.Session.Currency
import Dialogue.Proofs.Session.Visible
import Dialogue.Proofs.Session.SameFlow
import Dialogue.Proofs.Conversation.Idempotence
import Dialogue.Proofs.Conversation.Remnants
import Dialogue.Proofs.Session.Remnants
import Dialogue.Proofs.Session.Question
import Dialogue.Proofs.Session.Conditions
import Dialogue.Proofs.Session.Growth
import Dialogue.Proofs.Conversation.Answer
import Dialogue.Proofs.Session.Mirror
import Dialogue.Proofs.Condition
import Dialogue.Proofs.Session.Pausing
import Dialogue.Proofs.Conversation.Interview
import Dialogue.Proofs.Traversal.Route
import Dialogue.Proofs.Traversal.Ending
import Dialogue.Proofs.Traversal.Limit
import Dialogue.Proofs.Traversal.Agreement
import Dialogue.Proofs.Traversal.Notes
import Dialogue.Proofs.Traversal.Faults
import Dialogue.Proofs.Session.Heard
import Dialogue.Proofs.Session.Waiting
import Dialogue.Proofs.Session.Renewal
import Dialogue.Proofs.Session.Cursor
import Dialogue.Proofs.Intent
import Dialogue.Proofs.Decimal.Nearest
import Dialogue.Proofs.Intent.Winner
import Dialogue.Proofs.Text.Distance
import Dialogue.Proofs.Json.Token
import Dialogue.Proofs.Json.Scan
import Dialogue.Proofs.Json.Decode
import Dialogue.Proofs.Flow.Codec
import Dialogue.Proofs.Event.Codec
import Dialogue.Proofs.Hub
import Dialogue.Proofs.Variables
