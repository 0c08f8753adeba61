import ExchangeCore.Framework.Word
import ExchangeCore.Framework.SortedMap
import ExchangeCore.Framework.HashMap
import ExchangeCore.Framework.Machine
import ExchangeCore.Framework.Posting
import ExchangeCore.Framework.Bytes
import ExchangeCore.Framework.Fallible
import ExchangeCore.Framework.RecentWindow
import ExchangeCore.Framework.Workers
import ExchangeCore.Framework.TwoPhase
import ExchangeCore.Models.Order
import ExchangeCore.Models.Snowflake
import ExchangeCore.Models.Ids
import ExchangeCore.Models.IdText
import ExchangeCore.Book.OrderBook
import ExchangeCore.Book.Reference
import ExchangeCore.Book.Matching
import ExchangeCore.Book.Invariant
import ExchangeCore.Book.Properties
import ExchangeCore.Book.History
import ExchangeCore.Engine.Output
import ExchangeCore.Engine.TamperEvidence
import ExchangeCore.Engine.Ledger
import ExchangeCore.Engine.MatchingEngine
import ExchangeCore.Ubs.Balance
import ExchangeCore.Ubs.Core
import ExchangeCore.Ubs.Funds
import ExchangeCore.Engine.Processing
import ExchangeCore.Engine.Chain
import ExchangeCore.Engine.Obligation
import ExchangeCore.Engine.BalanceEvents
import ExchangeCore.Engine.EventSeq
import ExchangeCore.Engine.Lifecycle
import ExchangeCore.Engine.Snapshot
import ExchangeCore.Engine.Recovery
import ExchangeCore.System.Exchange
import ExchangeCore.System.FundSafety
import ExchangeCore.Server.MessageDeduplicator
import ExchangeCore.Server.Matcher
import ExchangeCore.Server.Delivery
import ExchangeCore.Transfer.State
import ExchangeCore.Transfer.Coordinator
import ExchangeCore.Transfer.Saga
import ExchangeCore.Transfer.ProcessNow
import ExchangeCore.Transfer.TradingSource
import ExchangeCore.Transfer.FundingAdapter
import ExchangeCore.Framework.Contracts
import ExchangeCore.Transfer.StepContract
import ExchangeCore.Transfer.Service
import ExchangeCore.Transfer.ServiceSafety
import ExchangeCore.Transfer.Completion
import ExchangeCore.Ubs.Handler
import ExchangeCore.Comm.AeronChannel
import ExchangeCore.Comm.Correlation
import ExchangeCore.Ubs.Dedup
import ExchangeCore.Ubs.Debts
import ExchangeCore.Ubs.Conservation
import ExchangeCore.Ubs.Service
import ExchangeCore.Ubs.Locks
import ExchangeCore.Ubs.Wal
import ExchangeCore.Ubs.Dispatch
import ExchangeCore.Ubs.Batch
import ExchangeCore.Ubs.Durability
import ExchangeCore.Server.ValidatedOrders
import ExchangeCore.Ubs.Replay
import ExchangeCore.Comm.PollThread
import ExchangeCore.Gateway.Transfers
import ExchangeCore.Ubs.Positions
import ExchangeCore.TigerBeetle.Worker
import ExchangeCore.TigerBeetle.ShadowLedger
import ExchangeCore.Framework.Image
import ExchangeCore.Ledger.Transactions
import ExchangeCore.Ledger.WalSegment
import ExchangeCore.Framework.SegmentedLog
import ExchangeCore.Ledger.RollingWal
import ExchangeCore.Ledger.GlobalLedger
import ExchangeCore.Ledger.Recovery
import ExchangeCore.Ledger.Restart
import ExchangeCore.Framework.Decimal
import ExchangeCore.Framework.Digits
import ExchangeCore.Models.BalanceManager
import ExchangeCore.Models.ClientBalance
import ExchangeCore.Models.ClientOrder
import ExchangeCore.System.OrderUnits
import ExchangeCore.Gateway.Orders
import ExchangeCore.Ubs.LedgerStream
import ExchangeCore.Engine.Checked
import ExchangeCore.Engine.Overflow
import ExchangeCore.Ubs.WalFormat
import ExchangeCore.Ubs.WalReplay
import ExchangeCore.Ubs.GroupCommitFile
import ExchangeCore.Ubs.WalSessions
import ExchangeCore.Framework.Blocks
import ExchangeCore.Ubs.MmapFile
import ExchangeCore.Framework.Filter
import ExchangeCore.Settlement.ChainVerifier
import ExchangeCore.Framework.Table
import ExchangeCore.Settlement.SourceOfTruth
import ExchangeCore.Framework.Redelivery
import ExchangeCore.Settlement.Restarts
import ExchangeCore.Server.Outputs
import ExchangeCore.System.Settled
import ExchangeCore.Settlement.BalanceLedger
import ExchangeCore.Framework.Interleaving
import ExchangeCore.Settlement.OrderStatistics
import ExchangeCore.Engine.Cancellation
import ExchangeCore.Engine.OrderUpdates
import ExchangeCore.Engine.TradeIds
import ExchangeCore.Engine.Books
import ExchangeCore.Framework.Drawdown
import ExchangeCore.Ubs.AccountFunds
import ExchangeCore.Ubs.Atomicity
import ExchangeCore.Ledger.MatchSettlement
import ExchangeCore.Ledger.Atomicity
import ExchangeCore.Framework.Walk
import ExchangeCore.Ledger.DamagedFiles
import ExchangeCore.Ubs.BalanceDelta
import ExchangeCore.Ubs.Fees
import ExchangeCore.Ubs.ReplayScan
import ExchangeCore.Ubs.DamagedLogs
import ExchangeCore.Gateway.ClientRequests
import ExchangeCore.Ubs.Mutations
import ExchangeCore.Ubs.RecordCodec
import ExchangeCore.Ubs.KafkaService
import ExchangeCore.Ledger.SegmentReadBack
import ExchangeCore.Framework.Channels
import ExchangeCore.Settlement.DerivedWriters
import ExchangeCore.Settlement.OrderHistory
