import Resurrect.Foundation.Abi
import Resurrect.Foundation.AssocMap
import Resurrect.Foundation.Bisection
import Resurrect.Foundation.BoundedSample
import Resurrect.Foundation.Duration
import Resurrect.Foundation.Evm
import Resurrect.Foundation.Hex
import Resurrect.Foundation.Interaction
import Resurrect.Foundation.Interleaving
import Resurrect.Foundation.Json
import Resurrect.Foundation.JsonText
import Resurrect.Foundation.Numeral
import Resurrect.Foundation.Rendezvous
import Resurrect.Foundation.Upsert
import Resurrect.Foundation.Varint
import Resurrect.Foundation.Wire
import Resurrect.Foundation.Word64
import Resurrect.Core.PeerRecord
import Resurrect.Core.Descriptor
import Resurrect.Core.DescriptorJson
import Resurrect.Core.Validation
import Resurrect.Core.CandidateStore
import Resurrect.Core.StoreSample
import Resurrect.Ethereum.Beacon
import Resurrect.Ethereum.Provider
import Resurrect.Ethereum.Scanner
import Resurrect.Ethereum.ScanWindow
import Resurrect.Ethereum.ScanBounds
import Resurrect.Ethereum.ScanLogs
import Resurrect.Ethereum.ScanAnswers
import Resurrect.Ethereum.Placement
import Resurrect.Bootstrap.Controller
import Resurrect.Bootstrap.CycleContract
import Resurrect.Bootstrap.Connectivity
import Resurrect.Bootstrap.BoundedDialing
import Resurrect.Libp2p.EndpointPolicy
import Resurrect.Libp2p.EndpointTunnels
import Resurrect.Libp2p.AddressText
import Resurrect.Libp2p.SignedPeerRecord
import Resurrect.Libp2p.RecordRoundTrip
import Resurrect.Libp2p.RecordBinding
import Resurrect.Libp2p.Behaviour
import Resurrect.Libp2p.DialBridge
import Resurrect.Libp2p.DialAttribution
import Resurrect.Libp2p.DialBacklog
import Resurrect.Node.RegistryDiscovery
import Resurrect.Node.SequenceOrder
import Resurrect.Node.Supervisor
import Resurrect.Node.ScanPacing
import Resurrect.Node.Announcer
import Resurrect.Node.Rediscovery
import Resurrect.Node.AnnounceRuns
import Resurrect.Node.SequenceDraws
import Resurrect.Node.RenewalSpacing
import Resurrect.Node.EventLoop
import Resurrect.Node.DialHost
import Resurrect.Node.HostBoard
import Resurrect.Node.WaiterPruning
import Resurrect.Node.NativeReplies
import Resurrect.Node.SqlValue
import Resurrect.Node.PeerCache
import Resurrect.Node.CacheLoading
import Resurrect.Node.CacheStoring
import Resurrect.Node.CacheHistory
import Resurrect.Node.Identity
import Resurrect.Node.IdentityCalls
import Resurrect.Node.IdentityDisk
import Resurrect.Node.IdentityAtomicity
import Resurrect.Browser.AnnouncementData
import Resurrect.Browser.Candidate
import Resurrect.Browser.Descriptor
import Resurrect.Browser.DescriptorAgreement
import Resurrect.Browser.PeerDiscovery
import Resurrect.Browser.ScanGuard
import Resurrect.Browser.Emission
import Resurrect.Contracts.BytecodeStorage
import Resurrect.Contracts.OnchainSite
import Resurrect.Contracts.ExplorerDeployment
import Resurrect.Browser.ScanWindow
import Resurrect.Browser.ScannerAgreement
import Resurrect.Node.DrawnDelays
import Resurrect.Browser.NamespaceDerivation
import Resurrect.Browser.PeerRecord
import Resurrect.Browser.EndpointAgreement
import Resurrect.Node.CachePruning
import Resurrect.Node.SupervisorRuns
import Resurrect.Node.StatusFile
import Resurrect.Node.RegistryCounters
import Resurrect.Ethereum.AlloyProvider
import Resurrect.Bootstrap.Exhaustion
import Resurrect.Node.Resurrection
import Resurrect.Libp2p.EnrCodec
import Resurrect.Node.Startup
import Resurrect.Node.StartedNodes
import Resurrect.Explorer.Model
import Resurrect.Browser.Findings
import Resurrect.Foundation.Handover
import Resurrect.Explorer.PeerProbe
import Resurrect.Explorer.Page
import Resurrect.Explorer.PageRuns
import Resurrect.Explorer.LivePeers
import Resurrect.Explorer.Sessions
