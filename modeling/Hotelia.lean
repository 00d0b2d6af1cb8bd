import Hotelia.Offline.Agreement
import Hotelia.Hardware.LockDrain
import Hotelia.Payments.Pairing
import Hotelia.Process.Recovery
import Hotelia.Process.Publication
import Hotelia.Process.Alone
import Hotelia.Offline.RowHistory
import Hotelia.Process.Lobby
import Hotelia.Process.Keycards
import Hotelia.Process.KeptRows
import Hotelia.Process.Acknowledged
import Hotelia.Process.CheckIn
import Hotelia.Payments.Replay
import Hotelia.Payments.Summary
import Hotelia.Database.Schema
import Hotelia.Database.Ledger
import Hotelia.Database.Pos
import Hotelia.Database.Calls
import Hotelia.Database.References
import Hotelia.Database.Accounts
import Hotelia.Database.Carrying
import Hotelia.Database.Reversal
import Hotelia.Database.Freeze
import Hotelia.Database.NightAudit
import Hotelia.Database.DoubleReversal
import Hotelia.Database.Bookings
import Hotelia.Database.ChannelLock
import Hotelia.Database.Isolation
import Hotelia.Database.PosVerify
import Hotelia.Broker.Stream
import Hotelia.Foundation.Frames
import Hotelia.Kitchen.Board
import Hotelia.Kitchen.History
import Hotelia.Process.Badges
import Hotelia.Shared.Tax
import Hotelia.Shared.Quotes
import Hotelia.Database.ActiveDay
import Hotelia.Database.Cents
import Hotelia.Database.ClosedFolios
import Hotelia.Database.AuditScope
import Hotelia.Channels.Adapters
import Hotelia.Payments.Receipts
import Hotelia.Payments.Matching
import Hotelia.Payments.Returned
import Hotelia.Payments.Reconciliation
import Hotelia.Hardware.BreakerHistory
import Hotelia.Foundation.Separators
import Hotelia.Hardware.TcpChannel
import Hotelia.Hardware.Packets
import Hotelia.Hardware.Endpoints
import Hotelia.Process.RetryLoop
import Hotelia.Offline.InOrder
import Hotelia.Foundation.TokenBucket
import Hotelia.Broker.RateBound
import Hotelia.Broker.Connections
import Hotelia.Foundation.Timeline
import Hotelia.Hardware.DrainBudget
import Hotelia.Events.Emitter
import Hotelia.Guest.ServiceWorker
import Hotelia.Foundation.Readers
import Hotelia.Shared.JsonText
import Hotelia.Foundation.Decimals
import Hotelia.Foundation.IsoText
import Hotelia.Foundation.Answers
import Hotelia.Offline.TextStore
import Hotelia.Process.Journey
import Hotelia.Process.Logger
import Hotelia.Broker.Hub
import Hotelia.Broker.Gate
import Hotelia.Kitchen.Reconnect
import Hotelia.Guest.Fetching
import Hotelia.Payments.Evidence
import Hotelia.Database.Housekeeping
import Hotelia.Events.Subscriptions
import Hotelia.Broker.Refusal
import Hotelia.Process.Ipc
import Hotelia.Database.FrontDesk
import Hotelia.Database.AuditLog
