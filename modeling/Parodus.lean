import Parodus.Clients.Registration
import Parodus.Partners.EventPath
import Parodus.Crud.Answers
import Parodus.Crud.RoundTrip
import Parodus.Crud.Frame
import Parodus.Crud.Status
import Parodus.Crud.CloudDisconnect
import Parodus.Downstream.Fragments
import Parodus.Token.Reassembly
import Parodus.Token.Jwt
import Parodus.Connection.OnlineStatus
import Parodus.Connection.CurrentServer
import Parodus.Connection.Targets
import Parodus.Connection.MainLoop
import Parodus.Connection.ReconnectDuty
import Parodus.Connection.InterfaceWait
import Parodus.Connection.HeartBeat
import Parodus.Foundation.Mailbox
import Parodus.Queues
import Parodus.Foundation.Segments
import Parodus.Upstream.Route
import Parodus.Downstream.Route
import Parodus.Clients.Select
import Parodus.Upstream.Tasks
import Parodus.Upstream.Release
import Parodus.Upstream.CrudQueue
import Parodus.Upstream.Feedback
import Parodus.Upstream.SendResponse
import Parodus.Crud.Relations
import Parodus.Foundation.Access
import Parodus.Crud.DestArray
import Parodus.Crud.DestReads
import Parodus.Crud.Response
import Parodus.Config.UrlBuffer
import Parodus.Config.UrlForm
import Parodus.Downstream.Copy
import Parodus.Clients.KeepAlive
import Parodus.Foundation.Folds
import Parodus.Config.Numbers
import Parodus.Connection.Backoff
import Parodus.Connection.DnsOutage
import Parodus.Foundation.Buffers
import Parodus.Token.AuthToken
import Parodus.Connection.ConveyHeader
import Parodus.Token.Endpoint
import Parodus.Connection.Attempts
import Parodus.Upstream.DecodedMsg
import Parodus.Upstream.Metadata
import Parodus.Foundation.Streaks
import Parodus.Token.SeqNumber
import Parodus.Partners.PartnerList
import Parodus.Config.KeyFile
import Parodus.Token.Answers
import Parodus.Connection.Shutdown
import Parodus.Connection.HealthFile
import Parodus.Connection.Headers
import Parodus.Connection.Context
import Parodus.Foundation.Accounts
import Parodus.Foundation.Lines
import Parodus.Foundation.References
import Parodus.Downstream.Messages
import Parodus.Upstream.SendMessage
import Parodus.Foundation.Descriptors
import Parodus.Clients.Sockets
import Parodus.Foundation.Commuting
import Parodus.Config.OptionOrder
import Parodus.Foundation.LinkedLists
import Parodus.Clients.Pointers
import Parodus.Clients.Interleaving
import Parodus.Clients.Dangling
import Parodus.Progress
import Parodus.Foundation.Framing
import Parodus.Upstream.Senders
import Parodus.Upstream.Wires
import Parodus.Upstream.Arrivals
import Parodus.Connection.Announced
import Parodus.Upstream.LiveConns
import Parodus.Foundation.Handlers
import Parodus.Foundation.Deadlocks
import Parodus.Signals
