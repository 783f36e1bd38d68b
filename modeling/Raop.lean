import Raop.Audio.Decoder
import Raop.Audio.Format
import Raop.Audio.Gain
import Raop.Audio.Sink
import Raop.Bytes
import Raop.Challenge
import Raop.ClockSync
import Raop.Config.Proxy
import Raop.Config.Receiver
import Raop.Config.Service
import Raop.Config.Value
import Raop.Connection
import Raop.Crypto.Aes
import Raop.Crypto.Base64
import Raop.Crypto.Cbc
import Raop.Crypto.Error
import Raop.Crypto.Pem
import Raop.Crypto.Rsa
import Raop.Crypto.Sha1
import Raop.Datagram.Audio
import Raop.Datagram.PayloadType
import Raop.Datagram.Retransmit
import Raop.Datagram.Sync
import Raop.Datagram.Timing
import Raop.Discovery.Advertiser
import Raop.Discovery.Browser
import Raop.Discovery.Daemon
import Raop.Discovery.Name
import Raop.Duration
import Raop.Error
import Raop.Event
import Raop.Message.Headers
import Raop.Message.Method
import Raop.Message.Reader
import Raop.Message.Request
import Raop.Message.Response
import Raop.Moment
import Raop.Negotiation
import Raop.Net.Address
import Raop.Net.Channel
import Raop.Net.Ports
import Raop.Net.Role
import Raop.Ntp
import Raop.Number.Rounding
import Raop.Number.Single
import Raop.Output
import Raop.Parameters
import Raop.Player.Pipeline
import Raop.Player.Session
import Raop.Proofs.Message.Head
import Raop.Proofs.Message.Headers
import Raop.Proofs.Message.Pieces
import Raop.Proofs.Message.Preamble
import Raop.Proofs.Message.RoundTrip
import Raop.Proofs.Net.ChannelSet
import Raop.Proofs.Player.Invariant
import Raop.Proofs.Player.Steps
import Raop.Proofs.Reading
import Raop.Proofs.Sdp.FormatOptions
import Raop.Proofs.Lists
import Raop.Proofs.Text.Blank
import Raop.Proofs.Text.Numeral
import Raop.Proofs.Text.Split
import Raop.Proofs.Text.Utf8
import Raop.Proxy.Barrier
import Raop.Proxy.History
import Raop.Proxy.Peer
import Raop.Proxy.PeerAddress
import Raop.Proxy.Relay
import Raop.Proxy.Session
import Raop.Proxy.TimingKeys
import Raop.Scene
import Raop.Scene.Act
import Raop.Scene.Holder
import Raop.Scene.Launch
import Raop.Scene.Outcome
import Raop.Scene.Receiver
import Raop.Scene.Redaction
import Raop.Sdp.Alac
import Raop.Sdp.Error
import Raop.Sdp.Line
import Raop.Sdp.Stream
import Raop.SequenceTracker
import Raop.Server
import Raop.Service
import Raop.Session
import Raop.SessionKeys
import Raop.SessionState
import Raop.Text.Blank
import Raop.Text.Numeral
import Raop.Text.Printable
import Raop.Text.Quoted
import Raop.Text.Split
import Raop.Text.Utf8
import Raop.Transport
import Raop.Proofs.Transport.RoundTrip
import Raop.Proofs.Negotiation
import Raop.Proofs.Proxy.Steps
import Raop.Proofs.Proxy.Run
import Raop.Proofs.SetupAnswer
import Raop.Proofs.Proxy.PeerSetup
import Raop.Proofs.Player.Parameters
import Raop.Proofs.Player.SharedSink
import Raop.Proofs.Proxy.TimingKeys
import Raop.Proofs.Proxy.Inputs
import Raop.Proofs.Proxy.TimingRoutes
import Raop.Proofs.Proxy.Separation
import Raop.Proofs.Proxy.PeerAccepts
import Raop.Proofs.Proxy.PeerAnswers
import Raop.Proofs.Proxy.PeerLog
import Raop.Proofs.Proxy.PeerWait
import Raop.Proofs.Proxy.Reset
import Raop.Proofs.Connection
import Raop.Proofs.Proxy.Turns
import Raop.Proofs.Proxy.Invariant
import Raop.Proofs.Proxy.PeerRecord
import Raop.Proofs.ControlPlane
import Raop.Proofs.Lockstep
import Raop.Proofs.SequenceTracker
import Raop.Proofs.Datagram.Audio
import Raop.Proofs.Player.Sound
import Raop.Proofs.Proxy.History
import Raop.Proofs.Proxy.Retransmission
import Raop.Proofs.Datagram.RoundTrip
import Raop.Proofs.Message.Responses
import Raop.Proofs.Service
import Raop.Proofs.Ending
import Raop.Proofs.Server.Steps
import Raop.Proofs.Server.Life
import Raop.Proofs.Server.Stop
import Raop.Proofs.Proxy.Eviction
import Raop.Proofs.Message.HeadLimit
import Raop.Proofs.Sdp.Acceptance
import Raop.Proofs.Negotiation.Opens
import Raop.Proofs.Proxy.TimingLog
import Raop.Proofs.Transport.Grammar
import Raop.Proofs.Message.Replies
import Raop.Proofs.Crypto.Aes
import Raop.Proofs.Crypto.Cbc
import Raop.Proofs.Proxy.PeerPorts
import Raop.Proofs.Proxy.PeerAddress
import Raop.Proofs.Proxy.SelfPeers
import Raop.Proofs.Clock
import Raop.Proofs.Datagram.FastReads
import Raop.Proofs.Parameters
import Raop.Proofs.Proxy.Volume
import Raop.Proofs.Parameters.Grammar
import Raop.Proofs.Message.HeaderLog
import Raop.Proofs.Net.ChannelLog
import Raop.Proofs.Discovery.Name
import Raop.Proofs.Discovery.Scan
import Raop.Proofs.Crypto.Base64
import Raop.Proofs.Proxy.HistoryQueue
import Raop.Proofs.Sdp.Key
import Raop.Proofs.Announcement
import Raop.Proofs.Message.Taken
import Raop.Proofs.Sdp.Alac
