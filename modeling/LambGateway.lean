import LambGateway.Framework.Transition
import LambGateway.Framework.CondWait
import LambGateway.Framework.CText
import LambGateway.Framework.CommandLine
import LambGateway.Framework.Decimal
import LambGateway.Framework.SqlText
import LambGateway.Framework.SqlInsert
import LambGateway.Framework.NamedPlaceholders
import LambGateway.Framework.Charset
import LambGateway.Framework.Recode
import LambGateway.Framework.Renewal
import LambGateway.Framework.Requests
import LambGateway.Framework.ShardedStore
import LambGateway.Framework.HashCounter
import LambGateway.Framework.Pacing
import LambGateway.Framework.RowTable
import LambGateway.Framework.FixedWindow
import LambGateway.Framework.LinkedChain
import LambGateway.Framework.ExclusiveFile
import LambGateway.Container.LinkedList
import LambGateway.Container.Clearing
import LambGateway.Message.Records
import LambGateway.Message.Encoding
import LambGateway.Message.Ucs2Length
import LambGateway.Storage.Statements
import LambGateway.Cache.Nodes
import LambGateway.Content.Copies
import LambGateway.Sp.Correlation
import LambGateway.Sp.CorrelationMap
import LambGateway.Sp.Confirmation
import LambGateway.QueueServer.Handshake
import LambGateway.QueueServer.ChildServer
import LambGateway.QueueServer.Pull
import LambGateway.QueueServer.Push
import LambGateway.Server.Unsubscribe
import LambGateway.Server.Frequency
import LambGateway.Server.Arrears
import LambGateway.Server.Billing
import LambGateway.Server.WorkLoop
import LambGateway.Server.Handover
import LambGateway.Server.Storage
import LambGateway.QueueServer.Pool
import LambGateway.QueueServer.Routing
import LambGateway.QueueServer.Operators
import LambGateway.QueueServer.Backpressure
import LambGateway.Sp.Sender
import LambGateway.Content.Reencoding
import LambGateway.Relay.Uplink
import LambGateway.Framework.InOrder
import LambGateway.Framework.Ledger
import LambGateway.Relay.Platform
import LambGateway.Relay.PlatformOrder
import LambGateway.Relay.PlatformCount
import LambGateway.Relay.Downlink
import LambGateway.Server.Unsubscription
import LambGateway.Sp.Carrier
import LambGateway.Relay.Report
import LambGateway.Relay.PlatformReturn
import LambGateway.Sp.FlowControl
import LambGateway.Sp.Statistics
import LambGateway.Sp.Keepalive
import LambGateway.Ismg.Acknowledgement
import LambGateway.Ismg.MsgId
import LambGateway.Ismg.Submit
import LambGateway.Ismg.Login
import LambGateway.Console.Signal
import LambGateway.Console.Statistics
import LambGateway.Reload.AccountTables
import LambGateway.Reload.Routes
import LambGateway.Reload.Tables
import LambGateway.Console.Listing
import LambGateway.Server.TextFilter
import LambGateway.QueueServer.Placement
import LambGateway.Startup.InstanceLock
import LambGateway.Startup.TaskQueue
import LambGateway.Web.Accounts
import LambGateway.Ismg.Connect
import LambGateway.Web.Filter
import LambGateway.Web.Models
import LambGateway.Web.NumberImport
