import Reconciliation.Selector.Matching
import Reconciliation.Selector.Parser
import Reconciliation.Text.Duration
import Reconciliation.Text.Quoted
import Reconciliation.Document.Printer
import Reconciliation.Document.Reader
import Reconciliation.Document.Status
import Reconciliation.Description
import Reconciliation.Provider.Lease
import Reconciliation.Resolution.Pass
import Reconciliation.Resolution.Shelves
import Reconciliation.Store.Basic
import Reconciliation.Deployment.Memory
import Reconciliation.Workbench
import Reconciliation.Engine.Step
import Reconciliation.Timeline.Actor
import Reconciliation.Timeline.Engine
import Reconciliation.Timeline.Debouncer
import Reconciliation.Timeline.Mailbox
import Reconciliation.Timeline.StatusBoard
import Reconciliation.Main
import Reconciliation.Proofs.Resolution.Dependency
import Reconciliation.Proofs.Resolution.Verdict
import Reconciliation.Proofs.Resolution.Conservation
import Reconciliation.Proofs.Provider.Order
import Reconciliation.Proofs.Resolution.Determinism
import Reconciliation.Proofs.Dictionary
import Reconciliation.Proofs.Deployment.Transcript
import Reconciliation.Proofs.Deployment.Course
import Reconciliation.Proofs.Deployment.Mirror
import Reconciliation.Proofs.Store.Revision
import Reconciliation.Proofs.Resolution.Field
import Reconciliation.Proofs.Resolution.Fingerprint
import Reconciliation.Proofs.Resolution.Attachment
import Reconciliation.Proofs.Deployment.Freshness
import Reconciliation.Proofs.Worker.Mailbox
import Reconciliation.Proofs.Worker.Debouncer
import Reconciliation.Proofs.Engine.Moves
import Reconciliation.Proofs.Engine.Service
import Reconciliation.Proofs.Engine.Settlement
import Reconciliation.Proofs.Engine.Soundness
import Reconciliation.Proofs.Selector.Grammar
import Reconciliation.Proofs.Selector.Item
import Reconciliation.Proofs.Selector.Reading
import Reconciliation.Proofs.Deployment.Convergence
import Reconciliation.Proofs.Provider.Declaration
import Reconciliation.Proofs.Resolution.Conflict
import Reconciliation.Proofs.Worker.Delivery
import Reconciliation.Proofs.Worker.Scheduling
import Reconciliation.Proofs.Store.LastWrite
import Reconciliation.Proofs.Worker.Succession
import Reconciliation.Proofs.Engine.Reads
import Reconciliation.Proofs.Engine.Publication
import Reconciliation.Proofs.Engine.Handover
import Reconciliation.Proofs.Engine.Finality
import Reconciliation.Proofs.Resolution.Mirroring
import Reconciliation.Proofs.Resolution.Reflection
import Reconciliation.Proofs.Provider.Naming
import Reconciliation.Proofs.Resolution.Precedence
import Reconciliation.Proofs.Store.Enrolment
import Reconciliation.Proofs.CommandLine.Forecast
import Reconciliation.Proofs.Resolution.Parallel
import Reconciliation.Proofs.Resolution.Reporting
import Reconciliation.Proofs.Resolution.Rivalry
import Reconciliation.Proofs.Resolution.Inertness
import Reconciliation.Proofs.Resolution.Shelving
import Reconciliation.Proofs.Resolution.Overwriting
import Reconciliation.Proofs.Resolution.Outranking
import Reconciliation.Proofs.Resolution.Bystander
import Reconciliation.Proofs.Resolution.Isolation
import Reconciliation.Proofs.Worker.JoinControl
import Reconciliation.Proofs.Engine.Teardown
import Reconciliation.Proofs.Engine.Closing
import Reconciliation.Proofs.Engine.Escalation
import Reconciliation.Proofs.Selector.RoundTrip
import Reconciliation.Proofs.Selector.Pattern
import Reconciliation.Proofs.Deployment.Separation
import Reconciliation.Store.Listener
import Reconciliation.Proofs.Store.Announcement
import Reconciliation.Proofs.Worker.Wakefulness
import Reconciliation.Proofs.Worker.Spacing
import Reconciliation.Proofs.Worker.Restarting
import Reconciliation.Proofs.Worker.Custody
import Reconciliation.Proofs.Deployment.Account
import Reconciliation.Proofs.Provider.Fault
import Reconciliation.Proofs.Resolution.Detachment
import Reconciliation.Proofs.Resolution.Unnamed
import Reconciliation.Proofs.Resolution.Fallback
import Reconciliation.Proofs.Selector.LetterCase
import Reconciliation.Proofs.Provider.Classification
import Reconciliation.Proofs.Provider.Leasing
import Reconciliation.Proofs.Selector.ErrorPosition
import Reconciliation.Proofs.Worker.Watching
import Reconciliation.Proofs.Provider.BasePath
