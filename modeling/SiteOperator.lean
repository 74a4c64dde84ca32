import SiteOperator.Cluster.Environment
import SiteOperator.Cluster.Locator
import SiteOperator.Cluster.Request
import SiteOperator.Cluster.Store
import SiteOperator.Cluster.Task
import SiteOperator.Composition
import SiteOperator.Control.Controller
import SiteOperator.Control.Duty
import SiteOperator.Control.WorkQueue
import SiteOperator.Decimal.Binary64
import SiteOperator.Decimal.Shortest
import SiteOperator.Dependent.Kind
import SiteOperator.Dialogue
import SiteOperator.Entries
import SiteOperator.Fault
import SiteOperator.Health
import SiteOperator.Json.Basic
import SiteOperator.Json.Decode
import SiteOperator.Json.Printer
import SiteOperator.Json.Reader
import SiteOperator.Layering
import SiteOperator.LogFilter
import SiteOperator.Main
import SiteOperator.Manifest
import SiteOperator.Metrics.Exposition
import SiteOperator.Metrics.Registry
import SiteOperator.Names
import SiteOperator.Operator
import SiteOperator.Pass
import SiteOperator.Plan
import SiteOperator.Program
import SiteOperator.Proofs.Cache.History
import SiteOperator.Proofs.Cache.References
import SiteOperator.Proofs.Cluster.Finalizers
import SiteOperator.Proofs.Cluster.Paths
import SiteOperator.Proofs.Cluster.Segments
import SiteOperator.Proofs.Cluster.Sendable
import SiteOperator.Proofs.Cluster.Tasks
import SiteOperator.Proofs.Control.TemplateWatch
import SiteOperator.Proofs.Dialogue.Answers
import SiteOperator.Proofs.Dialogue.Runs
import SiteOperator.Proofs.Json.Alike
import SiteOperator.Proofs.Json.Fields
import SiteOperator.Proofs.Json.Merge
import SiteOperator.Proofs.Json.Path
import SiteOperator.Proofs.Json.Pruned
import SiteOperator.Proofs.Layering.Associative
import SiteOperator.Proofs.Layering.Conflicts
import SiteOperator.Proofs.Layering.Fields
import SiteOperator.Proofs.Layering.FirstConflict
import SiteOperator.Proofs.Layering.Nulls
import SiteOperator.Proofs.Layering.Overlaid
import SiteOperator.Proofs.Layering.Precedence
import SiteOperator.Proofs.Layering.Types
import SiteOperator.Proofs.Metrics.Accounting
import SiteOperator.Proofs.Names.Derived
import SiteOperator.Proofs.Names.Subdomains
import SiteOperator.Proofs.Names.Truncated
import SiteOperator.Proofs.Pass.Finalize
import SiteOperator.Proofs.Pass.Idempotence
import SiteOperator.Proofs.Pass.Mirrored
import SiteOperator.Proofs.Pass.Present
import SiteOperator.Proofs.Pass.Readiness
import SiteOperator.Proofs.Pass.Repeat
import SiteOperator.Proofs.Pass.Reports
import SiteOperator.Proofs.Pass.Schedule
import SiteOperator.Proofs.Pass.Suspend
import SiteOperator.Proofs.Pass.SuspendState
import SiteOperator.Proofs.Pass.Transitions
import SiteOperator.Proofs.Pass.Walk
import SiteOperator.Proofs.Plan.Composed
import SiteOperator.Proofs.Plan.Effective
import SiteOperator.Proofs.Plan.Independence
import SiteOperator.Proofs.Plan.Inject
import SiteOperator.Proofs.Plan.Names
import SiteOperator.Proofs.Plan.Outcome
import SiteOperator.Proofs.Reconcile.Accounts
import SiteOperator.Proofs.Reconcile.Adoption
import SiteOperator.Proofs.Reconcile.Convergence
import SiteOperator.Proofs.Reconcile.DeletionGuard
import SiteOperator.Proofs.Reconcile.Deletions
import SiteOperator.Proofs.Reconcile.Differing
import SiteOperator.Proofs.Reconcile.Failures
import SiteOperator.Proofs.Reconcile.Faults
import SiteOperator.Proofs.Reconcile.Finalizer
import SiteOperator.Proofs.Reconcile.ForeignFinalizers
import SiteOperator.Proofs.Reconcile.Isolation
import SiteOperator.Proofs.Reconcile.Lifetime
import SiteOperator.Proofs.Reconcile.Owned
import SiteOperator.Proofs.Reconcile.Ownership
import SiteOperator.Proofs.Reconcile.Played
import SiteOperator.Proofs.Reconcile.Provisioned
import SiteOperator.Proofs.Reconcile.Published
import SiteOperator.Proofs.Reconcile.Repeated
import SiteOperator.Proofs.Reconcile.Reported
import SiteOperator.Proofs.Reconcile.Requests
import SiteOperator.Proofs.Reconcile.Retries
import SiteOperator.Proofs.Reconcile.Serving
import SiteOperator.Proofs.Reconcile.SiteWrites
import SiteOperator.Proofs.Reconcile.Strangers
import SiteOperator.Proofs.Reconcile.Surroundings
import SiteOperator.Proofs.Resource.Metadata
import SiteOperator.Proofs.Resource.Patched
import SiteOperator.Proofs.Resource.RoundTrip
import SiteOperator.Proofs.Resource.Written
import SiteOperator.Proofs.Results
import SiteOperator.Proofs.Status.ConditionHistory
import SiteOperator.Proofs.Status.Conditions
import SiteOperator.Proofs.Status.Draft
import SiteOperator.Proofs.Status.Fixpoint
import SiteOperator.Proofs.Status.SiteState
import SiteOperator.Proofs.Status.Steps
import SiteOperator.Proofs.Status.Stored
import SiteOperator.Proofs.Status.Transitions
import SiteOperator.Proofs.TextOrder
import SiteOperator.Reconcile.Attempt
import SiteOperator.Reconcile.Owned
import SiteOperator.Reconcile.Site
import SiteOperator.Reconcile.Template
import SiteOperator.Resource.Condition
import SiteOperator.Resource.Dependent
import SiteOperator.Resource.Meta
import SiteOperator.Resource.Objects
import SiteOperator.Resource.Shape
import SiteOperator.Resource.Site
import SiteOperator.Resource.Template
import SiteOperator.Resource.Timestamp
import SiteOperator.Settings.CommandLine
import SiteOperator.Settings.Intervals
import SiteOperator.Settings.SocketAddress
import SiteOperator.SiteCache
import SiteOperator.Status.Draft
import SiteOperator.Status.Readiness
import SiteOperator.Status.State
import SiteOperator.TextOrder
import SiteOperator.Watch.Collection
import SiteOperator.Watch.Feed
import SiteOperator.Watch.Stream
import SiteOperator.Yaml.Document
import SiteOperator.Yaml.Scalar
