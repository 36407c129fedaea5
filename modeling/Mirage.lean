import Mirage.Foundations.Run
import Mirage.Foundations.MutualMaps
import Mirage.Foundations.Text
import Mirage.Foundations.Net
import Mirage.Dns.FakeIp
import Mirage.Dns.FakeIp.Invariant
import Mirage.Crypto.Aead
import Mirage.Crypto.KeySchedule
import Mirage.Crypto.Nonces
import Mirage.Crypto.RoundTrip
import Mirage.Foundations.SlotTable
import Mirage.Proxy.Address
import Mirage.Routing.Decision
import Mirage.Routing.Gate
import Mirage.Tun.Engine
import Mirage.Tun.Download
import Mirage.Tun.Download.Integrity
import Mirage.Tun.Logs
import Mirage.Tun.Sockets
import Mirage.Tun.Sockets.Accept
import Mirage.Tun.Stack
import Mirage.Tun.Stack.Containment
import Mirage.Tun.Stack.EngineSwap
import Mirage.Tun.TcpRelay.Upload
import Mirage.Routing.Gate.Soundness
import Mirage.Tun.DirectDns
import Mirage.Tun.DirectDns.Foreign
import Mirage.Tun.TcpRelay.Rebinding
import Mirage.Tun.UdpRelay.Verdict
import Mirage.Crypto.HelloAuth
import Mirage.Crypto.HelloAuth.Replay
import Mirage.Foundations.Resolution
import Mirage.Proxy.Outbound
import Mirage.Proxy.Outbound.Graph
import Mirage.Proxy.Pool
import Mirage.Proxy.Pool.Draining
import Mirage.Proxy.Pool.Wakeups
import Mirage.Failover
import Mirage.Jni
import Mirage.Jni.Agreement
import Mirage.Jni.Discipline
import Mirage.Jni.Isolation
import Mirage.Jni.Ownership
import Mirage.Monitor
import Mirage.Monitor.Kill
import Mirage.Shell.CoreService
import Mirage.Shell.CoreService.Revival
import Mirage.Shell.CoreService.Coherence
import Mirage.Shell.CoreService.Lifecycle
import Mirage.Shell.CoreService.Moves
import Mirage.Shell.VpnRepository
import Mirage.Shell.VpnRepository.StopWins
import Mirage.Shell.SessionSequence
import Mirage.Shell.Nodes
import Mirage.Shell.Nodes.Agreement
import Mirage.Foundations.Replacement
import Mirage.Foundations.Totals
import Mirage.Foundations.Splitting
import Mirage.Foundations.Encodings
import Mirage.Foundations.Access
import Mirage.Foundations.Elf
import Mirage.Foundations.FirstMatch
import Mirage.Routing.CustomRules
import Mirage.Routing.CustomRules.Verdict
import Mirage.NodeUri
import Mirage.Monitor.Statics
import Mirage.Monitor.Counting
import Mirage.Jni.Probing
import Mirage.Jni.Probing.Frame
import Mirage.Shell.JvmText
import Mirage.Shell.GeoManager
import Mirage.Shell.GeoManager.Install
import Mirage.Shell.GeoManager.Integrity
import Mirage.Shell.CoreController
import Mirage.Shell.CoreController.Deferred
import Mirage.Shell.TrafficStats
import Mirage.Shell.TrafficStats.Exact
import Mirage.Shell.NodeLink
import Mirage.Shell.NodeLink.Encoding
import Mirage.Shell.NodeLink.Agreement
import Mirage.Shell.ElfChecker
import Mirage.Shell.ElfChecker.Agreement
import Mirage.Shell.NativeSymbolPolicy
import Mirage.Shell.CoreManager
import Mirage.Shell.CoreManager.Intact
import Mirage.Shell.CoreManager.Safety
import Mirage.Shell.RuleStore
import Mirage.Shell.NodeStore
import Mirage.Shell.ConfigBackup
import Mirage.Shell.ConfigBackup.Restore
import Mirage.Foundations.Records
import Mirage.Foundations.Prefixes
import Mirage.Tun.Pump
import Mirage.Tun.Pump.Clock
import Mirage.Tun.Descriptor
import Mirage.Tun.Descriptor.Closing
import Mirage.Tun.UdpFlows
import Mirage.Tun.UdpFlows.Feed
import Mirage.Tun.UdpFlows.HalfOpen
import Mirage.Tun.DirectDns.Barrier
import Mirage.CommandServer
import Mirage.CommandServer.Delivery
import Mirage.Tun.Stack.FakeEscape
import Mirage.Proxy.UdpMux
import Mirage.Proxy.UdpMux.Sessions
import Mirage.Proxy.UdpMux.Framing
import Mirage.Routing.CustomRules.Cidr
import Mirage.Foundations.Ranges
import Mirage.Foundations.Checked
import Mirage.Foundations.Wire
import Mirage.Routing.Geo.CnTable
import Mirage.Routing.Geo.Indexing
import Mirage.Routing.CustomRules.NormalForm
import Mirage.Routing.CustomRules.FakeIpGuard
import Mirage.Routing.CustomRules.Cleaning
import Mirage.TimeSync
import Mirage.Crypto.ClientHello
import Mirage.Crypto.ClientHello.Template
import Mirage.Routing.GeoFiles
import Mirage.Routing.GeoFiles.Scan
import Mirage.Routing.GeoFiles.Total
import Mirage.Routing.GeoFiles.Format
import Mirage.Routing.GeoFiles.Blocks
import Mirage.Routing.GeoFiles.Sites
import Mirage.Routing.GeoFiles.Reload
import Mirage.Foundations.Buffers
import Mirage.Foundations.OnesComplement
import Mirage.Foundations.Trimming
import Mirage.Tun.Datagrams
import Mirage.Tun.Datagrams.Layout
import Mirage.Tun.Datagrams.RoundTrip
import Mirage.Tun.Datagrams.Checksums
import Mirage.Tun.Icmp
import Mirage.Tun.LegacyFrames
import Mirage.Tun.LegacyFrames.Progress
import Mirage.Tun.LegacyFrames.Encoding
import Mirage.Tun.DnsMessage
import Mirage.Tun.DnsMessage.RoundTrip
import Mirage.Tun.DnsMessage.Upstream
import Mirage.Crypto.ClientHello.Builders
import Mirage.Tun.Sniffer
import Mirage.Tun.Sniffer.Builders
import Mirage.Tun.Sniffer.Http
import Mirage.Crypto.HandshakeCache
import Mirage.Proxy.ServerHandshake
import Mirage.Proxy.ServerHandshake.Acceptance
import Mirage.Proxy.Pool.Sizing
import Mirage.Proxy.MirageStream
import Mirage.Proxy.MirageStream.Polling
import Mirage.Jni.Rotation
import Mirage.Tun.UdpFlows.Counting
import Mirage.Tun.Sockets.Sweeping
import Mirage.Tun.LegacyFrames.Uplink
import Mirage.Tun.UdpRelay.Attribution
import Mirage.Tun.UdpRelay.Idle
import Mirage.Proxy.Pool.AuthPause
import Mirage.Proxy.Outbound.Selection
import Mirage.Proxy.Outbound.Queries
import Mirage.Tun.AdaptiveIdle
import Mirage.Tun.AdaptiveIdle.Bounds
import Mirage.Tun.TcpRelay.IdleClose
import Mirage.Dns.FakeIp.Stability
import Mirage.Dns.FakeIp.Persistence
import Mirage.NodeUri.RoundTrip
import Mirage.Foundations.Selection
import Mirage.Foundations.Merging
import Mirage.Foundations.SocketText
import Mirage.Shell.NodeLists
import Mirage.Shell.NodeLists.Testing
import Mirage.Shell.ConfigBackup.Merge
import Mirage.Shell.LanBypass
import Mirage.Routing.Spelling
import Mirage.Tun.DnsMessage.Answers
import Mirage.Tun.Sniffer.Places
import Mirage.Tun.Device
import Mirage.Monitor.Logging
import Mirage.Proxy.Pool.Supply
import Mirage.Proxy.UdpMux.Tunnels
import Mirage.Crypto.ClientHello.Fingerprint
import Mirage.Crypto.HelloAuth.Identify
import Mirage.Crypto.Bootstrap
import Mirage.CommandServer.Clients
