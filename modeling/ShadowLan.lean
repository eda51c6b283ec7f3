import ShadowLan.Lib.Runs
import ShadowLan.Lib.ChunkQueue
import ShadowLan.Hook.Slot
import ShadowLan.Hook.Thread
import ShadowLan.Hook.Pump
import ShadowLan.Hook.Receive
import ShadowLan.Hook.Send
import ShadowLan.Hook.Release
import ShadowLan.Hook.Leak
import ShadowLan.Lib.Dict
import ShadowLan.Wire.Bytes
import ShadowLan.Wire.Udp
import ShadowLan.Lib.Pick
import ShadowLan.Relay.Nodes
import ShadowLan.Relay.Datagram
import ShadowLan.Relay.Routes
import ShadowLan.Relay.Echo
import ShadowLan.Relay.Once
import ShadowLan.Relay.Reply
import ShadowLan.Hook.Alias
import ShadowLan.Wire.Game
import ShadowLan.Wire.Inet
import ShadowLan.Hook.GameUdp
import ShadowLan.Hook.Demux
import ShadowLan.Hook.Hosted
import ShadowLan.Relay.Members
import ShadowLan.Relay.Addresses
import ShadowLan.Relay.Links
import ShadowLan.Relay.Queue
import ShadowLan.Relay.Stall
import ShadowLan.Relay.Assign
import ShadowLan.Relay.Views
import ShadowLan.Hook.Control
import ShadowLan.Hook.Egress
import ShadowLan.Hook.Ledger
import ShadowLan.Hook.Ingress
import ShadowLan.Relay.HalfClose
import ShadowLan.Hook.Wake
import ShadowLan.Relay.Departure
import ShadowLan.Relay.HostClaims
import ShadowLan.Relay.Implicit
import ShadowLan.Hook.Accept
import ShadowLan.Hook.Confine
import ShadowLan.Hook.Frames
import ShadowLan.Hook.Interop
import ShadowLan.Hook.TcpMode
import ShadowLan.Hook.Unsource
import ShadowLan.Hook.CloseFlush
import ShadowLan.Hook.CtlQueue
import ShadowLan.Hook.Inbound
import ShadowLan.Hook.JoinPump
import ShadowLan.Hook.Listen
import ShadowLan.Hook.Poll
import ShadowLan.Hook.StRecv
import ShadowLan.Hook.Verdict
import ShadowLan.Lib.Struct
import ShadowLan.Relay.Keepalive
import ShadowLan.Wire.Codec
import ShadowLan.Wire.CodecExact
import ShadowLan.Wire.Readers
import ShadowLan.Hook.Lease
import ShadowLan.Relay.Beacon
import ShadowLan.Relay.Filters
import ShadowLan.Relay.Ping
import ShadowLan.Relay.Refusal
import ShadowLan.Hook.AliasMap
import ShadowLan.Hook.NetEvents
import ShadowLan.Hook.SendDoor
import ShadowLan.Hook.InQueue
import ShadowLan.Hook.WinPing
import ShadowLan.Client.Redial
import ShadowLan.Relay.Accounting
import ShadowLan.Hook.EchoSum
import ShadowLan.Hook.DgramAddressed
import ShadowLan.Client.Tunnel
import ShadowLan.Hook.SelectCall
import ShadowLan.Hook.Hairpin
import ShadowLan.Client.UdpProxy
import ShadowLan.Hook.JoinSockets
import ShadowLan.Client.Beacons
import ShadowLan.Hook.NodeTree
