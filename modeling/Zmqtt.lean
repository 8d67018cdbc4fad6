import Zmqtt.Packets.RoundTrip
import Zmqtt.Lib.Dict
import Zmqtt.Lib.Framing
import Zmqtt.Lib.Readers
import Zmqtt.Packets.SelfContained
import Zmqtt.Packets.Reader
import Zmqtt.Topics.Filter
import Zmqtt.Topics.Specificity
import Zmqtt.Topics.SubscriptionIndex
import Zmqtt.Topics.Routing
import Zmqtt.Lib.Machine
import Zmqtt.Session.PacketIds
import Zmqtt.Session.Protocol
import Zmqtt.Session.Ownership
import Zmqtt.Session.Broker
import Zmqtt.Session.Attribution
import Zmqtt.Session.OutboundResumption
import Zmqtt.Inbound.Flow
import Zmqtt.Inbound.Drain
import Zmqtt.Inbound.FinalAck
import Zmqtt.Inbound.Conservation
import Zmqtt.Inbound.Accounting
import Zmqtt.Inbound.Exchanges
import Zmqtt.Inbound.AtMostOnce
import Zmqtt.Inbound.TopicOrder
import Zmqtt.Client.GetMessage
import Zmqtt.Client.RunLoop
import Zmqtt.Session.Guards
import Zmqtt.Session.GuardExclusion
import Zmqtt.Session.Interests
import Zmqtt.Session.Moves
import Zmqtt.Session.FailedSubscribe
import Zmqtt.Session.DeadConnection
import Zmqtt.Session.OutboundHandshake
import Zmqtt.Session.FailedPublish
import Zmqtt.Requests.Dispatcher
import Zmqtt.Requests.Capacity
import Zmqtt.Inbound.Recipients
import Zmqtt.Requests.Claims
import Zmqtt.Inbound.Handled
import Zmqtt.Requests.LateReplies
import Zmqtt.Requests.Observers
import Zmqtt.Requests.Interest
import Zmqtt.Requests.ObservedTopics
import Zmqtt.Client.Subscriptions
import Zmqtt.Session.Entries
import Zmqtt.Client.Orphans
import Zmqtt.Client.FailedStart
import Zmqtt.Inbound.Redelivery
import Zmqtt.Inbound.ResumedSession
import Zmqtt.Session.Guarded
import Zmqtt.Session.RejectedSubscribe
import Zmqtt.Packets.ErrorDiscipline
import Zmqtt.Lib.Writers
import Zmqtt.Packets.Reencoding
import Zmqtt.Packets.Varints
import Zmqtt.Topics.Grammar
import Zmqtt.Topics.IndexInvariant
import Zmqtt.Topics.PublicMatcher
import Zmqtt.Session.PingAttribution
import Zmqtt.Requests.Validation
import Zmqtt.Session.GuardProgress
import Zmqtt.Lib.FrameStream
import Zmqtt.Packets.Streams
import Zmqtt.Session.SentPackets
import Zmqtt.Session.LeastIds
import Zmqtt.Client.Transmission
import Zmqtt.Lib.Backoff
import Zmqtt.Client.Lifecycle
import Zmqtt.Client.Transports
import Zmqtt.Client.Disconnects
import Zmqtt.Client.Snapshots
import Zmqtt.Client.Reconnects
import Zmqtt.Client.LoopRefinement
import Zmqtt.Inbound.Selection
import Zmqtt.Session.Outcomes
import Zmqtt.Inbound.Answers
import Zmqtt.Session.OutboundWire
import Zmqtt.Inbound.DrainEnds
import Zmqtt.Inbound.Wakeups
import Zmqtt.Inbound.AckCounts
import Zmqtt.Lib.Gather
import Zmqtt.Session.Keepalive
