import InvoiceOcr.Async.Proc
import InvoiceOcr.Async.Monitor
import InvoiceOcr.Async.System
import InvoiceOcr.Async.Amid
import InvoiceOcr.Async.Tally
import InvoiceOcr.Async.History
import InvoiceOcr.Async.Session
import InvoiceOcr.Async.Effects
import InvoiceOcr.Async.Hosts
import InvoiceOcr.Async.Accounts
import InvoiceOcr.Rate.Special
import InvoiceOcr.Json.Value
import InvoiceOcr.Json.RoundTrip
import InvoiceOcr.Json.Depth
import InvoiceOcr.Json.Dict
import InvoiceOcr.Json.Schema
import InvoiceOcr.Text.Chars
import InvoiceOcr.Text.Float
import InvoiceOcr.Text.Trimmed
import InvoiceOcr.Lists.Loops
import InvoiceOcr.Lists.Greedy
import InvoiceOcr.Lists.Split
import InvoiceOcr.Lists.Strata
import InvoiceOcr.Store.Table
import InvoiceOcr.Sql.Statement
import InvoiceOcr.Sql.Definition
import InvoiceOcr.Files.Disk
import InvoiceOcr.Domain
import InvoiceOcr.Schemas
import InvoiceOcr.JsonSchema
import InvoiceOcr.Calls
import InvoiceOcr.Storage
import InvoiceOcr.Pipeline
import InvoiceOcr.Attempts
import InvoiceOcr.Detector
import InvoiceOcr.Worker
import InvoiceOcr.Api
import InvoiceOcr.Deployment
import InvoiceOcr.Footprint
import InvoiceOcr.Protocol
import InvoiceOcr.Replay
import InvoiceOcr.Failures
import InvoiceOcr.Bump
import InvoiceOcr.RowStory
import InvoiceOcr.Absorbing
import InvoiceOcr.Provenance
import InvoiceOcr.Tokens
import InvoiceOcr.Requeue
import InvoiceOcr.Backpressure
import InvoiceOcr.YieldSafety
import InvoiceOcr.Slots
import InvoiceOcr.Submission
import InvoiceOcr.Sweep
import InvoiceOcr.Transparency
import InvoiceOcr.Spending
import InvoiceOcr.Adapters
import InvoiceOcr.Poison
import InvoiceOcr.Redirects
import InvoiceOcr.Postprocess
import InvoiceOcr.Money
import InvoiceOcr.Whitelist
import InvoiceOcr.Rebuild
import InvoiceOcr.SplitEvalSet
import InvoiceOcr.Quantity
import InvoiceOcr.Evaluation
import InvoiceOcr.Readings
import InvoiceOcr.Rescore
import InvoiceOcr.Scoring
import InvoiceOcr.Align
import InvoiceOcr.Outage
import InvoiceOcr.Landing
import InvoiceOcr.TokenBucket
import InvoiceOcr.Reconfigure
import InvoiceOcr.Retry
import InvoiceOcr.Allowlist
import InvoiceOcr.Experiment
import InvoiceOcr.RowLife
import InvoiceOcr.ErrorCodes
import InvoiceOcr.Polling
import InvoiceOcr.Shutdown
import InvoiceOcr.Fleet
import InvoiceOcr.Statements
import InvoiceOcr.Migrations
import InvoiceOcr.Workload
import InvoiceOcr.Refresh
import InvoiceOcr.Lists.Counts
import InvoiceOcr.Report
import InvoiceOcr.Trials
