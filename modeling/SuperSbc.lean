import SuperSbc.Ledger.Balances
import SuperSbc.Ledger.Overspend
import SuperSbc.Ledger.Commitments
import SuperSbc.Ledger.QuotedPrice
import SuperSbc.Admission.Limit
import SuperSbc.Billing.Sources
import SuperSbc.Admission.Carriers
import SuperSbc.Tables.Cache
import SuperSbc.CallControl.AddressCache
import SuperSbc.Esl.Client
import SuperSbc.CallControl.Records
import SuperSbc.Admin.RemoteIP
import SuperSbc.Admin.SecondFactor
import SuperSbc.FsConfig.Render
import SuperSbc.Admin.Sessions
import SuperSbc.Invoice.Payments
import SuperSbc.Invoice.Statements
import SuperSbc.Reports.Rollup
import SuperSbc.Rating.Exact
import SuperSbc.Ledger.ReconcilePasses
import SuperSbc.CallControl.AddressOwner
import SuperSbc.Admin.Simulate
import SuperSbc.Ledger.LegOrder
import SuperSbc.Watchdog.Delivery
import SuperSbc.CallControl.Offer
import SuperSbc.CallControl.Lossless
import SuperSbc.CallControl.DialledGateways
import SuperSbc.CallControl.IdentityHeaders
import SuperSbc.Ledger.Margins
import SuperSbc.Billing.PostDialDelay
import SuperSbc.Security.BanExpiry
import SuperSbc.Tables.Areas
import SuperSbc.Store.CarrierEndpoints
import SuperSbc.CallControl.FailoverRun
import SuperSbc.TimeWindow.Parse
import SuperSbc.Admin.RateImport
import SuperSbc.Codec.Bcg729
import SuperSbc.CallControl.Breaker
import SuperSbc.CallControl.GatewayPoller
