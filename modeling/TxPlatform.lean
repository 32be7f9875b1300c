import TxPlatform.Lib.Dict
import TxPlatform.Lib.Fifo
import TxPlatform.Lib.Recent
import TxPlatform.Lib.StaleFifo
import TxPlatform.Lib.Json
import TxPlatform.Lib.JsonText
import TxPlatform.Lib.JsonLaws
import TxPlatform.Lib.Words
import TxPlatform.Lib.JsonSearch
import TxPlatform.Lib.Machine
import TxPlatform.Lib.Program
import TxPlatform.Lib.Regex
import TxPlatform.Lib.Walk
import TxPlatform.Lib.Grouping
import TxPlatform.Lib.Channel
import TxPlatform.Lib.Versioned
import TxPlatform.Lib.Shell
import TxPlatform.Lib.Conditional
import TxPlatform.Dotnet.Primitives
import TxPlatform.Dotnet.Decimal
import TxPlatform.Dotnet.DecimalArithmetic
import TxPlatform.Dotnet.Http
import TxPlatform.Dotnet.Activity
import TxPlatform.Telemetry.Correlation
import TxPlatform.Python.Values
import TxPlatform.Python.Base64
import TxPlatform.Python.Lines
import TxPlatform.Faults.Rules
import TxPlatform.Faults.Injector
import TxPlatform.Faults.Binding
import TxPlatform.Faults.Execution
import TxPlatform.Faults.Activations
import TxPlatform.Faults.Expiry
import TxPlatform.Faults.Intermittent
import TxPlatform.Inventory.StockLedger
import TxPlatform.Inventory.Endpoints
import TxPlatform.Inventory.Conservation
import TxPlatform.Inventory.Oversell
import TxPlatform.Inventory.Forgetting
import TxPlatform.Payment.Stores
import TxPlatform.Payment.Endpoints
import TxPlatform.Payment.Concurrency
import TxPlatform.Payment.Forgetting
import TxPlatform.Payment.Fingerprint
import TxPlatform.Payment.Replay
import TxPlatform.Fraud.RiskRules
import TxPlatform.Shipping.ShipmentBook
import TxPlatform.Shipping.Concurrency
import TxPlatform.Order.Order
import TxPlatform.Order.History
import TxPlatform.Order.Validator
import TxPlatform.Order.Gateways
import TxPlatform.Order.Coordinator
import TxPlatform.Order.Guarantee
import TxPlatform.Order.Telemetry
import TxPlatform.Order.Recording
import TxPlatform.Order.Api
import TxPlatform.Saga.Rejections
import TxPlatform.Saga.World
import TxPlatform.Saga.Agreement
import TxPlatform.Saga.Shipped
import TxPlatform.Saga.LateRequests
import TxPlatform.Saga.RecentEntries
import TxPlatform.Scenarios.Schema
import TxPlatform.Scenarios.FaultAgreement
import TxPlatform.Scenarios.Journal
import TxPlatform.Scenarios.Control
import TxPlatform.Scenarios.Recovery
import TxPlatform.Scenarios.Records
import TxPlatform.Scenarios.CrashedWrites
import TxPlatform.Scenarios.RunLock
import TxPlatform.Scenarios.LockSafety
import TxPlatform.Scenarios.Resets
import TxPlatform.Scenarios.Expectations
import TxPlatform.Scenarios.Verdicts
import TxPlatform.Scenarios.Schedule
import TxPlatform.Scenarios.Tamper
import TxPlatform.Scenarios.Tokens
import TxPlatform.Scenarios.Requests
import TxPlatform.Traces.Trace
import TxPlatform.Traces.Integrity
import TxPlatform.Traces.GatewayGap
import TxPlatform.Traces.StageOrder
import TxPlatform.Traces.Parsing
import TxPlatform.Traces.Documents
import TxPlatform.Traces.Reading
import TxPlatform.Traces.Encodings
import TxPlatform.Traces.SensitiveData
import TxPlatform.Traces.Checks
import TxPlatform.Traces.Exported
import TxPlatform.Traces.Truthful
import TxPlatform.Traces.Otlp
import TxPlatform.Traces.Query
import TxPlatform.Scenarios.Contracts
import TxPlatform.Scenarios.Outcomes
import TxPlatform.Scenarios.ReadBack
import TxPlatform.Deploy.Pki
import TxPlatform.Deploy.Certificates
import TxPlatform.Deploy.Secrets
import TxPlatform.Deploy.Probes
import TxPlatform.Deploy.TcpProbes
import TxPlatform.Deploy.ImageTags
import TxPlatform.Deploy.Checkouts
