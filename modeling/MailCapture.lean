import MailCapture.Config
import MailCapture.Controller
import MailCapture.Health
import MailCapture.Http.Script
import MailCapture.Json.Pointer
import MailCapture.Lease.Election
import MailCapture.Main
import MailCapture.Scenario
import MailCapture.Store.Remote
import MailCapture.Proofs.SingleWrite
import MailCapture.Proofs.Quiescence
import MailCapture.Proofs.Comparison
import MailCapture.Proofs.InMemory
import MailCapture.Proofs.Expiry
import MailCapture.Proofs.Race
import MailCapture.Proofs.Leadership
import MailCapture.Proofs.Reparse
import MailCapture.Proofs.Applied
import MailCapture.Proofs.Stored
import MailCapture.Proofs.Written
import MailCapture.Proofs.Serving
import MailCapture.Proofs.Convergence
import MailCapture.Proofs.Hosted
import MailCapture.Proofs.Unserved
import MailCapture.Proofs.Workloads
import MailCapture.Proofs.Writers
import MailCapture.Proofs.History
import MailCapture.Proofs.Departing
import MailCapture.Proofs.Audit
import MailCapture.Proofs.Rejection
import MailCapture.Proofs.Edits
import MailCapture.Proofs.Deviation
import MailCapture.Proofs.Settled
import MailCapture.Proofs.Payload
import MailCapture.Proofs.Independent
import MailCapture.Proofs.Inherited
import MailCapture.Proofs.Feedback
import MailCapture.Proofs.Schedule
import MailCapture.Proofs.Selectors
import MailCapture.Proofs.Credentials
import MailCapture.Proofs.Relays
import MailCapture.Proofs.Mounts
import MailCapture.Proofs.Recovery
import MailCapture.Proofs.Bytes
import MailCapture.Proofs.Buckets
import MailCapture.Proofs.Labelling
import MailCapture.Proofs.Environment
import MailCapture.Proofs.Patterns
import MailCapture.Proofs.Admitted
import MailCapture.Proofs.Addresses
import MailCapture.Proofs.Tenure
import MailCapture.Proofs.Rereading
import MailCapture.Proofs.Scope
