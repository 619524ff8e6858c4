import AgenticAttribution.Lib.Run
import AgenticAttribution.Lib.JsonText
import AgenticAttribution.Lib.Base64
import AgenticAttribution.Lib.Calendar
import AgenticAttribution.Lib.GoError
import AgenticAttribution.Attribution.Assertion
import AgenticAttribution.Attribution.Canonical
import AgenticAttribution.Lib.Table
import AgenticAttribution.Settlement.Schema
import AgenticAttribution.Settlement.Store
import AgenticAttribution.Settlement.Service
import AgenticAttribution.Settlement.Handler
import AgenticAttribution.Settlement.System
import AgenticAttribution.Settlement.Books
import AgenticAttribution.Settlement.Invariants
import AgenticAttribution.Settlement.Progress
import AgenticAttribution.Settlement.Ledger
import AgenticAttribution.Settlement.Integrity
import AgenticAttribution.Lib.Json
import AgenticAttribution.Types.Verify
import AgenticAttribution.Types.CrossLanguage
import AgenticAttribution.Lib.BigInt
import AgenticAttribution.Types.Eip3009
import AgenticAttribution.Facilitator.Verify
import AgenticAttribution.Facilitator.Handler
import AgenticAttribution.Lib.Once
import AgenticAttribution.Facilitator.Replay
import AgenticAttribution.Settlement.Payments
import AgenticAttribution.Settlement.Outage
import AgenticAttribution.Settlement.Amount
import AgenticAttribution.Search.Handler
import AgenticAttribution.Search.Redeem
import AgenticAttribution.Lib.GoJson
import AgenticAttribution.Settlement.Sequential
import AgenticAttribution.Types.Http
import AgenticAttribution.Settlement.Routes
import AgenticAttribution.Gateway.Handler
import AgenticAttribution.Merchant.Handler
import AgenticAttribution.Purchase.Journal
import AgenticAttribution.Purchase.Once
import AgenticAttribution.Purchase.Kept
import AgenticAttribution.Lib.Query
import AgenticAttribution.Settlement.Reports
import AgenticAttribution.Settlement.Counts
import AgenticAttribution.Settlement.Earnings
import AgenticAttribution.Ingest.Documents
import AgenticAttribution.Search.Service
import AgenticAttribution.Search.Rates
import AgenticAttribution.Lib.Double
import AgenticAttribution.Merchant.Catalog
import AgenticAttribution.Simulator.Agent
import AgenticAttribution.Purchase.Cheapest
import AgenticAttribution.Purchase.Honest
import AgenticAttribution.Ingest.Embedding
import AgenticAttribution.Ingest.Pipeline
import AgenticAttribution.Ingest.Rebuild
import AgenticAttribution.Attribution.Commission
import AgenticAttribution.Settlement.Checks
import AgenticAttribution.Settlement.Refusals
import AgenticAttribution.Settlement.Cancelled
import AgenticAttribution.Ingest.BulkRetry
import AgenticAttribution.Ingest.Streaming
import AgenticAttribution.Purchase.SameListing
import AgenticAttribution.Facilitator.Answers
import AgenticAttribution.Facilitator.Predicts
import AgenticAttribution.Purchase.Malformed
import AgenticAttribution.Generator.Csv
import AgenticAttribution.Ingest.SeedFiles
import AgenticAttribution.Lib.Script
import AgenticAttribution.Ingest.Partitions
import AgenticAttribution.Ingest.Loads
import AgenticAttribution.Lib.JsonRead
import AgenticAttribution.Lib.JsonPrefix
import AgenticAttribution.Lib.GoQuote
import AgenticAttribution.Ingest.BulkBody
import AgenticAttribution.Ingest.AliasSwap
import AgenticAttribution.Lib.BoolQuery
import AgenticAttribution.Search.Query
import AgenticAttribution.Search.ModelLookup
import AgenticAttribution.Lib.Ring
import AgenticAttribution.Search.Latency
import AgenticAttribution.Lib.GoStruct
import AgenticAttribution.Settlement.Dashboard
import AgenticAttribution.Simulator.Population
import AgenticAttribution.Simulator.Fraud
import AgenticAttribution.Simulator.Attempts
import AgenticAttribution.Generator.Generate
import AgenticAttribution.Generator.Constraints
import AgenticAttribution.Settlement.Detail
import AgenticAttribution.Gateway.Body
import AgenticAttribution.Gateway.KeyCache
import AgenticAttribution.Lib.Stringify
import AgenticAttribution.Lib.Linear
import AgenticAttribution.Facilitator.Concurrent
import AgenticAttribution.Facilitator.Server
import AgenticAttribution.Settlement.Transfers
import AgenticAttribution.Ingest.Reference
import AgenticAttribution.Generator.Texts
import AgenticAttribution.Ingest.Seeding
import AgenticAttribution.Settlement.Chain
import AgenticAttribution.Lib.Percent
import AgenticAttribution.Lib.Html
import AgenticAttribution.Dashboard.Money
import AgenticAttribution.Dashboard.Router
import AgenticAttribution.Dashboard.Pages
import AgenticAttribution.Settlement.Reads
import AgenticAttribution.Dashboard.App
import AgenticAttribution.Dashboard.Links
