import CrmAutomation.Access.Secret
import CrmAutomation.Access.Token
import CrmAutomation.ActionKind
import CrmAutomation.Api.Endpoint
import CrmAutomation.Api.Field
import CrmAutomation.Api.Operation
import CrmAutomation.Api.Response
import CrmAutomation.Api.Server
import CrmAutomation.Api.View
import CrmAutomation.Condition
import CrmAutomation.Contact
import CrmAutomation.Crypto.Base64Url
import CrmAutomation.Crypto.Hmac
import CrmAutomation.Crypto.Sha2
import CrmAutomation.Engine.Action
import CrmAutomation.Engine.Executor
import CrmAutomation.Engine.Host
import CrmAutomation.Engine.Matching
import CrmAutomation.Engine.Monad
import CrmAutomation.Engine.Sweep
import CrmAutomation.Engine.Turns
import CrmAutomation.Engine.Workflows
import CrmAutomation.Event.Basic
import CrmAutomation.Event.Feed
import CrmAutomation.Failure
import CrmAutomation.Format
import CrmAutomation.Graph.Basic
import CrmAutomation.Graph.Reader
import CrmAutomation.Graph.Validation
import CrmAutomation.Http.Dialogue
import CrmAutomation.Http.Host
import CrmAutomation.Http.Query
import CrmAutomation.Http.Url
import CrmAutomation.Instant
import CrmAutomation.Json.Document
import CrmAutomation.Json.Reader
import CrmAutomation.Json.Sendable
import CrmAutomation.Json.Table
import CrmAutomation.Json.Value
import CrmAutomation.Json.Writer
import CrmAutomation.Logging
import CrmAutomation.Misfit
import CrmAutomation.Number.Decimal
import CrmAutomation.Number.Double
import CrmAutomation.Number.IntegerText
import CrmAutomation.Number.Precision
import CrmAutomation.Number.Shortest
import CrmAutomation.Number.WholeText
import CrmAutomation.Paging
import CrmAutomation.Proofs.Access.Lifetime
import CrmAutomation.Proofs.Access.Refusals
import CrmAutomation.Proofs.Access.Signing
import CrmAutomation.Proofs.Api.Lists
import CrmAutomation.Proofs.Api.Tenants
import CrmAutomation.Proofs.Condition.Comparing
import CrmAutomation.Proofs.Contact.Names
import CrmAutomation.Proofs.Contact.Reading
import CrmAutomation.Proofs.Crypto.Base64Url
import CrmAutomation.Proofs.Engine.Advance
import CrmAutomation.Proofs.Engine.Announcing
import CrmAutomation.Proofs.Engine.Asking
import CrmAutomation.Proofs.Engine.Attempt
import CrmAutomation.Proofs.Engine.Awakening
import CrmAutomation.Proofs.Engine.Budget
import CrmAutomation.Proofs.Engine.Bystanders
import CrmAutomation.Proofs.Engine.Calls
import CrmAutomation.Proofs.Engine.Cancellation
import CrmAutomation.Proofs.Engine.Cascade
import CrmAutomation.Proofs.Engine.Changes
import CrmAutomation.Proofs.Engine.Deeds
import CrmAutomation.Proofs.Engine.Delays
import CrmAutomation.Proofs.Engine.Delivery
import CrmAutomation.Proofs.Engine.Editing
import CrmAutomation.Proofs.Engine.Editions
import CrmAutomation.Proofs.Engine.Exhaustion
import CrmAutomation.Proofs.Engine.History
import CrmAutomation.Proofs.Engine.Idempotence
import CrmAutomation.Proofs.Engine.Isolation
import CrmAutomation.Proofs.Engine.Journeys
import CrmAutomation.Proofs.Engine.Labours
import CrmAutomation.Proofs.Engine.Likeness
import CrmAutomation.Proofs.Engine.Lobby
import CrmAutomation.Proofs.Engine.Locks
import CrmAutomation.Proofs.Engine.Logs
import CrmAutomation.Proofs.Engine.Matching
import CrmAutomation.Proofs.Engine.Nodes
import CrmAutomation.Proofs.Engine.Outcomes
import CrmAutomation.Proofs.Engine.Ownership
import CrmAutomation.Proofs.Engine.Position
import CrmAutomation.Proofs.Engine.Publication
import CrmAutomation.Proofs.Engine.Punctuality
import CrmAutomation.Proofs.Engine.Releases
import CrmAutomation.Proofs.Engine.Replies
import CrmAutomation.Proofs.Engine.Requests
import CrmAutomation.Proofs.Engine.Retrying
import CrmAutomation.Proofs.Engine.Revisiting
import CrmAutomation.Proofs.Engine.Routing
import CrmAutomation.Proofs.Engine.Scripts
import CrmAutomation.Proofs.Engine.Sessions
import CrmAutomation.Proofs.Engine.Step
import CrmAutomation.Proofs.Engine.Strides
import CrmAutomation.Proofs.Engine.Suspension
import CrmAutomation.Proofs.Engine.Sweeping
import CrmAutomation.Proofs.Engine.Termination
import CrmAutomation.Proofs.Engine.Triple
import CrmAutomation.Proofs.Engine.Walking
import CrmAutomation.Proofs.Event.Hearing
import CrmAutomation.Proofs.Event.Wire
import CrmAutomation.Proofs.Graph.CycleDefects
import CrmAutomation.Proofs.Graph.Cycles
import CrmAutomation.Proofs.Graph.Documents
import CrmAutomation.Proofs.Graph.Portrayal
import CrmAutomation.Proofs.Graph.Publishable
import CrmAutomation.Proofs.Graph.Reachability
import CrmAutomation.Proofs.Graph.Shape
import CrmAutomation.Proofs.Graph.Traversal
import CrmAutomation.Proofs.Graph.Ways
import CrmAutomation.Proofs.Http.Resolving
import CrmAutomation.Proofs.Http.Resources
import CrmAutomation.Proofs.Http.Segments
import CrmAutomation.Proofs.Http.Sending
import CrmAutomation.Proofs.Json.Documents
import CrmAutomation.Proofs.Json.RoundTrip
import CrmAutomation.Proofs.Json.Scalars
import CrmAutomation.Proofs.Number.DecimalOrder
import CrmAutomation.Proofs.Number.DecimalText
import CrmAutomation.Proofs.Number.IntegerText
import CrmAutomation.Proofs.Number.Rounding
import CrmAutomation.Proofs.Number.RoundingOrder
import CrmAutomation.Proofs.Retry.Delay
import CrmAutomation.Proofs.Retry.Loop
import CrmAutomation.Proofs.Service.Deliveries
import CrmAutomation.Proofs.Service.Errands
import CrmAutomation.Proofs.Service.Exchanges
import CrmAutomation.Proofs.Service.Failures
import CrmAutomation.Proofs.Service.Successes
import CrmAutomation.Proofs.Store.Claims
import CrmAutomation.Proofs.Store.Due
import CrmAutomation.Proofs.Store.Lifecycle
import CrmAutomation.Proofs.Store.Pages
import CrmAutomation.Proofs.Store.Publishing
import CrmAutomation.Proofs.Store.Recovery
import CrmAutomation.Proofs.Store.Tenancy
import CrmAutomation.Proofs.Store.Versions
import CrmAutomation.Proofs.Webhook.Headers
import CrmAutomation.Proofs.Webhook.Verification
import CrmAutomation.Rehearsal.Crm
import CrmAutomation.Rehearsal.Report
import CrmAutomation.Rehearsal.Script
import CrmAutomation.Retry
import CrmAutomation.Service.Client
import CrmAutomation.Service.Messaging
import CrmAutomation.Service.Pipeline
import CrmAutomation.Service.Webhooks
import CrmAutomation.Settings
import CrmAutomation.Store.Cell
import CrmAutomation.Store.Database
import CrmAutomation.Store.Definitions
import CrmAutomation.Store.Runs
import CrmAutomation.Store.Trail
import CrmAutomation.Text.Blank
import CrmAutomation.Text.Bytes
import CrmAutomation.Text.Case
import CrmAutomation.Text.CharacterProperties
import CrmAutomation.Text.Digit
import CrmAutomation.Text.Domain
import CrmAutomation.Text.DomainCharacters
import CrmAutomation.Text.Naming
import CrmAutomation.Text.Printable
import CrmAutomation.Text.Punycode
import CrmAutomation.Text.Quoted
import CrmAutomation.Text.Ranges
import CrmAutomation.Vocabulary
import CrmAutomation.Webhook.Signature
import CrmAutomation.Worker.Process
import CrmAutomation.Worker.Task
