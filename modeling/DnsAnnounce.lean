import DnsAnnounce.Effect
import DnsAnnounce.Embed
import DnsAnnounce.Runs
import DnsAnnounce.Interleave
import DnsAnnounce.Failover
import DnsAnnounce.OnesComplement
import DnsAnnounce.Canonical
import DnsAnnounce.LengthPrefixed
import DnsAnnounce.Separated
import DnsAnnounce.Utf8
import DnsAnnounce.Str
import DnsAnnounce.Address
import DnsAnnounce.Route
import DnsAnnounce.RouteConfig
import DnsAnnounce.Faults
import DnsAnnounce.FileSystem
import DnsAnnounce.Nameservers
import DnsAnnounce.NameserverLines
import DnsAnnounce.StaticBackend
import DnsAnnounce.StaticRestore
import DnsAnnounce.StaticSets
import DnsAnnounce.StaticOwners
import DnsAnnounce.StaticBackup
import DnsAnnounce.StaticCrash
import DnsAnnounce.StaticFaults
import DnsAnnounce.StaticRetry
import DnsAnnounce.ResolvedBackend
import DnsAnnounce.ResolvedLinks
import DnsAnnounce.ResolvconfBackend
import DnsAnnounce.TruncationKnob
import DnsAnnounce.ResolvconfRecords
import DnsAnnounce.BackendAgreement
import DnsAnnounce.Chain
import DnsAnnounce.ChainProbe
import DnsAnnounce.ChainRuns
import DnsAnnounce.ResetFaults
import DnsAnnounce.SetFaults
import DnsAnnounce.Recovery
import DnsAnnounce.OwnCalls
import DnsAnnounce.Tenants
import DnsAnnounce.Packet
import DnsAnnounce.UdpCodec
import DnsAnnounce.SimpleDns
import DnsAnnounce.DnsServer
import DnsAnnounce.SuffixMatch
import DnsAnnounce.Forwarding
import DnsAnnounce.Framing
import DnsAnnounce.RouterAdvert
import DnsAnnounce.Checksum
import DnsAnnounce.RaReceiver
import DnsAnnounce.RaFraming
import DnsAnnounce.SearchDomains
import DnsAnnounce.Stack
import DnsAnnounce.Spawn
import DnsAnnounce.Shutdown
import DnsAnnounce.Solicitation
import DnsAnnounce.Reflection
import DnsAnnounce.Progress
import DnsAnnounce.SplitDns
import DnsAnnounce.Deployment
import DnsAnnounce.Discovery
import DnsAnnounce.TenantForwarding
