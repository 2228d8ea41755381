import WebrtcCaller.Client.Calling
import WebrtcCaller.Client.Codec
import WebrtcCaller.Client.Decoding
import WebrtcCaller.Client.Exit
import WebrtcCaller.Client.Ledger
import WebrtcCaller.Client.Losses
import WebrtcCaller.Client.Manager
import WebrtcCaller.Client.Moves
import WebrtcCaller.Client.Negotiation
import WebrtcCaller.Client.PeerService
import WebrtcCaller.Client.PeerTasks
import WebrtcCaller.Client.Redial
import WebrtcCaller.Client.Release
import WebrtcCaller.Client.Roster
import WebrtcCaller.Client.Sdp
import WebrtcCaller.Client.Separation
import WebrtcCaller.Client.Twice
import WebrtcCaller.Client.WsService
import WebrtcCaller.Core.Boxes
import WebrtcCaller.Core.Buckets
import WebrtcCaller.Core.Bytes
import WebrtcCaller.Core.Run
import WebrtcCaller.Core.Slots
import WebrtcCaller.Core.Task
import WebrtcCaller.Core.Triple
import WebrtcCaller.Media.Capturer
import WebrtcCaller.Media.Frames
import WebrtcCaller.Media.Latches
import WebrtcCaller.Media.Sessions
import WebrtcCaller.Media.Switching
import WebrtcCaller.Media.Texture
import WebrtcCaller.Server.DeadMember
import WebrtcCaller.Server.Delivery
import WebrtcCaller.Server.Im
import WebrtcCaller.Server.Registry
import WebrtcCaller.Server.Runner
import WebrtcCaller.Server.Signalling
import WebrtcCaller.Server.Tasks
import WebrtcCaller.System.Calls
import WebrtcCaller.System.Confinement
import WebrtcCaller.System.Fidelity
import WebrtcCaller.System.Initiation
import WebrtcCaller.System.Membership
import WebrtcCaller.System.News
import WebrtcCaller.System.Ordering
import WebrtcCaller.System.Waiting
import WebrtcCaller.System.World
import WebrtcCaller.Turn.Address
import WebrtcCaller.Turn.Allocation
import WebrtcCaller.Turn.Bindings
import WebrtcCaller.Turn.Fingerprint
import WebrtcCaller.Turn.Grants
import WebrtcCaller.Turn.IpPorts
import WebrtcCaller.Turn.Maps
import WebrtcCaller.Turn.Message
import WebrtcCaller.Turn.Peers
import WebrtcCaller.Turn.Pool
import WebrtcCaller.Turn.Ports
import WebrtcCaller.Turn.Relay
import WebrtcCaller.Turn.Responses
import WebrtcCaller.Turn.Session
import WebrtcCaller.Turn.Stream
import WebrtcCaller.Turn.Stun
import WebrtcCaller.View.Display
import WebrtcCaller.View.Group
import WebrtcCaller.View.Tiles
import WebrtcCaller.Wire.Json
