import ReliableDelivery.Support.Decimal
import ReliableDelivery.Support.SortedSet
import ReliableDelivery.Support.Redis
import ReliableDelivery.Support.Program
import ReliableDelivery.Support.Interleaving
import ReliableDelivery.Store.Keys
import ReliableDelivery.Store.Record
import ReliableDelivery.Store.Scripts
import ReliableDelivery.Store.MessageStore
import ReliableDelivery.Store.Ledger
import ReliableDelivery.Store.Representation
import ReliableDelivery.Store.Refinement
import ReliableDelivery.Store.Answers
import ReliableDelivery.Store.Sequence
import ReliableDelivery.Protocol.Codec
import ReliableDelivery.Server.UserState
import ReliableDelivery.Server.ChatServer
import ReliableDelivery.Server.Dispatcher
import ReliableDelivery.Server.System
import ReliableDelivery.Server.Justification
import ReliableDelivery.Server.Schedule
import ReliableDelivery.Protocol.Wire
import ReliableDelivery.Server.Retention
import ReliableDelivery.Server.Identity
import ReliableDelivery.Server.Marks
import ReliableDelivery.Server.Terminal
import ReliableDelivery.Server.Duties
import ReliableDelivery.Server.Wakeup
import ReliableDelivery.Client.Client
import ReliableDelivery.Client.Process
import ReliableDelivery.Client.Rules
import ReliableDelivery.Client.Bookkeeping
import ReliableDelivery.Client.Retransmission
import ReliableDelivery.EndToEnd.World
import ReliableDelivery.EndToEnd.ExactlyOnce
import ReliableDelivery.EndToEnd.Forgetting
import ReliableDelivery.EndToEnd.Schedule
import ReliableDelivery.Client.Receiver
import ReliableDelivery.Gateway.ImProtocol
import ReliableDelivery.Server.Sessions
import ReliableDelivery.Server.Footprint
import ReliableDelivery.Server.Traces
import ReliableDelivery.Server.Retries
import ReliableDelivery.Server.Confirmation
import ReliableDelivery.Server.Pushes
import ReliableDelivery.Server.FrameSize
import ReliableDelivery.Server.Order
import ReliableDelivery.Gateway.ImClient
import ReliableDelivery.Gateway.WebSocketServer
import ReliableDelivery.Gateway.Exceptions
import ReliableDelivery.Store.Queries
import ReliableDelivery.Store.RoundTrip
import ReliableDelivery.Protocol.Grammar
import ReliableDelivery.Client.Timing
import ReliableDelivery.Gateway.Rules
import ReliableDelivery.Gateway.Traffic
import ReliableDelivery.Gateway.Registry
import ReliableDelivery.Gateway.Correlation
import ReliableDelivery.Gateway.Redelivery
import ReliableDelivery.Browser.App
import ReliableDelivery.Browser.Display
import ReliableDelivery.Browser.Session
import ReliableDelivery.Gateway.Attachment
import ReliableDelivery.EndToEnd.Bridge
import ReliableDelivery.EndToEnd.Agreement
import ReliableDelivery.EndToEnd.Tabs
import ReliableDelivery.Browser.Window
import ReliableDelivery.Support.Fairness
import ReliableDelivery.Support.SerialQueue
import ReliableDelivery.Server.PoolTasks
import ReliableDelivery.Server.PoolProgress
import ReliableDelivery.Server.PoolShutdown
import ReliableDelivery.Store.RedisContexts
import ReliableDelivery.Gateway.AuthService
import ReliableDelivery.Support.PosixPath
import ReliableDelivery.Gateway.StaticFiles
import ReliableDelivery.Store.KeySpace
import ReliableDelivery.EndToEnd.Transport
import ReliableDelivery.Gateway.HttpServer
import ReliableDelivery.EndToEnd.Site
import ReliableDelivery.Support.SharedStream
import ReliableDelivery.Gateway.Provenance
import ReliableDelivery.Server.Replies
import ReliableDelivery.EndToEnd.Authenticity
import ReliableDelivery.EndToEnd.Refusals
import ReliableDelivery.EndToEnd.SiteSchedule
import ReliableDelivery.Client.Receipts
import ReliableDelivery.EndToEnd.Receipts
import ReliableDelivery.Browser.Page
import ReliableDelivery.Browser.Rendering
import ReliableDelivery.Browser.Drawing
import ReliableDelivery.Server.Overdue
