import LanLink.Lib.Actions
import LanLink.Lib.Runs
import LanLink.Lib.Maps
import LanLink.Lib.Guards
import LanLink.Lib.Bytes
import LanLink.Lib.Prefixes
import LanLink.Lib.Streams
import LanLink.Lib.Windows
import LanLink.Lib.Buckets
import LanLink.Lib.Slices
import LanLink.Lib.Spans
import LanLink.Lib.Formats
import LanLink.Lib.Streaks
import LanLink.Lib.Tiling
import LanLink.Lib.DenyOverrides
import LanLink.Lib.Gaps
import LanLink.Lib.Utf8
import LanLink.Lib.Texts
import LanLink.Lib.Decimal
import LanLink.Basic
import LanLink.Protocol.NetworkPolicy
import LanLink.Protocol.Decisions
import LanLink.Protocol.Subnets
import LanLink.Protocol.PrivateCidr
import LanLink.Protocol.PolicyCodec
import LanLink.Protocol.Messages
import LanLink.Protocol.MessageCodec
import LanLink.Protocol.MessageRoundTrip
import LanLink.Protocol.NetworkNames
import LanLink.Protocol.JoinTargets
import LanLink.Protocol.Binary
import LanLink.Protocol.Capabilities
import LanLink.Protocol.Frames
import LanLink.Protocol.StreamDecoder
import LanLink.Auth.PacketCrypto
import LanLink.Auth.CipherState
import LanLink.Protocol.PacketCodec
import LanLink.Auth.KeyEnvelopes
import LanLink.Auth.Directory
import LanLink.Auth.RelayHealth
import LanLink.Auth.Handshake
import LanLink.Auth.HandshakeRuns
import LanLink.Auth.HandshakePairs
import LanLink.Auth.HandshakeSafety
import LanLink.Storage.Schema
import LanLink.Storage.RelayStore
import LanLink.Storage.Transitions
import LanLink.Storage.Invariant
import LanLink.Storage.Addresses
import LanLink.Storage.Migration
import LanLink.Storage.Documents
import LanLink.Storage.Retention
import LanLink.Relay.ForwardingQuota
import LanLink.Relay.QuotaBounds
import LanLink.Relay.QuotaHistory
import LanLink.Relay.Limiters
import LanLink.Relay.AccessAttempts
import LanLink.Relay.FanoutBounds
import LanLink.Relay.ServiceState
import LanLink.Relay.NetworkService
import LanLink.Relay.Access
import LanLink.Relay.Management
import LanLink.Relay.Sessions
import LanLink.Auth.ReplayWindow
import LanLink.Protocol.Ipv4
import LanLink.Protocol.Ipv4Headers
import LanLink.Protocol.Fragments
import LanLink.Protocol.FragmentationNeeded
import LanLink.Protocol.Ipv4Reads
import LanLink.Protocol.Checksums
import LanLink.Network.Filters
import LanLink.Network.Ethernet
import LanLink.Network.DiscoveryGuard
import LanLink.Network.MembershipReads
import LanLink.Network.Membership
import LanLink.P2P.PathQuality
import LanLink.P2P.Candidates
import LanLink.P2P.Connectivity
import LanLink.P2P.Stun
import LanLink.Protocol.AccessCodec
import LanLink.Protocol.ManagementCodec
import LanLink.Protocol.LocalControl
import LanLink.Protocol.LocalDiagnostics
import LanLink.Protocol.Diagnostics
import LanLink.Transport.SendBudget
import LanLink.Transport.RelayPool
import LanLink.Transport.PacketBridge
import LanLink.Transport.BridgeTrace
import LanLink.Transport.BridgeRuns
import LanLink.Transport.Replays
import LanLink.Transport.Link
import LanLink.Transport.Continuity
import LanLink.Transport.PeerCache
import LanLink.Transport.CacheOrder
import LanLink.Transport.PolicyLeases
import LanLink.Relay.Steps
import LanLink.Relay.Core
import LanLink.Relay.Effects
import LanLink.Relay.Machine
import LanLink.Relay.Simulation
import LanLink.Relay.Runs
import LanLink.Relay.Policies
import LanLink.Relay.Roles
import LanLink.Relay.Gateways
import LanLink.Relay.Integrity
import LanLink.Relay.Routes
import LanLink.Relay.PolicyUpdates
import LanLink.Relay.Epochs
import LanLink.Relay.Revocation
import LanLink.Relay.Delivery
import LanLink.Relay.Consent
import LanLink.Relay.ControlChannel
import LanLink.Relay.Permanence
import LanLink.Relay.Grounded
import LanLink.Relay.SessionKeys
import LanLink.Relay.PeerViews
import LanLink.Relay.Enforcement
import LanLink.Relay.Emission
import LanLink.Relay.Revisions
import LanLink.Relay.AuditTrail
import LanLink.Relay.Audit
import LanLink.Relay.AuditedAccess
import LanLink.Relay.Accounts
import LanLink.Relay.InvitationLinks
import LanLink.Relay.LinkAccounting
import LanLink.Relay.Supersession
import LanLink.Session.Agreement
import LanLink.Auth.Admission
import LanLink.Network.RoutedNetwork
import LanLink.Network.Tunnels
import LanLink.Transport.SessionState
import LanLink.Transport.RouteChoice
import LanLink.Transport.InstalledRoutes
import LanLink.Transport.RoutedTunnel
import LanLink.Transport.TlsChannel
import LanLink.Transport.TlsLink
import LanLink.Lib.Serials
import LanLink.Transport.EventQueue
import LanLink.Transport.ControlCalls
import LanLink.Transport.ControlSession
import LanLink.Transport.ControlOutcomes
import LanLink.Transport.RelayServer
import LanLink.Transport.RelayPresence
import LanLink.Relay.ChannelRuns
import LanLink.Relay.Answers
import LanLink.Lib.Swarms
import LanLink.P2P.Bindings
import LanLink.P2P.Punch
import LanLink.P2P.PunchRuns
import LanLink.P2P.PunchAgreement
import LanLink.P2P.DirectQuic
import LanLink.P2P.DirectRuns
import LanLink.P2P.DirectAgreement
import LanLink.Network.VirtualNetwork
import LanLink.Network.VirtualNetworkRuns
