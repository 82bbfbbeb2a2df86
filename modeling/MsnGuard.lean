import MsnGuard.TunnelReadiness
import MsnGuard.NetstackClosing
import MsnGuard.NetstackRemoval
import MsnGuard.NetstackUpload
import MsnGuard.NetstackPorts
import MsnGuard.InlineRoutes
import MsnGuard.DirectTargets
import MsnGuard.NativeJobLife
import MsnGuard.SessionWorkers
import MsnGuard.StaleVariables
import MsnGuard.CoreJobs
import MsnGuard.DroppedStarts
import MsnGuard.HealthTicks
import MsnGuard.ReconnectCount
import MsnGuard.TrafficTotals
import MsnGuard.SessionTeardown
import MsnGuard.UdpgwMatching
import MsnGuard.ChannelFrames
import MsnGuard.DetourReuse
import MsnGuard.LastConnections
import MsnGuard.EndpointChecks
import MsnGuard.SmartDnsMatching
import MsnGuard.SmartDnsLifetimes
import MsnGuard.SmartDnsAnswers
import MsnGuard.SocksHeaders
import MsnGuard.SmartDnsStreams
import MsnGuard.SmartDnsAssociations
import MsnGuard.SocksLookups
import MsnGuard.WarpAssociations
import MsnGuard.ShardMatching
import MsnGuard.SmartDnsReplies
import MsnGuard.SettingsReaders
import MsnGuard.SettingsBackups
import MsnGuard.RemotePolicies
import MsnGuard.EdgeRaces
import MsnGuard.FoxySessions
import MsnGuard.BareNetworks
import MsnGuard.StreamReads
import MsnGuard.EchSessions
import MsnGuard.FragmentedWrites
import MsnGuard.NativeErrors
import MsnGuard.NestedEndpoints
import MsnGuard.ResolverFiles
import MsnGuard.HttpCuts
import MsnGuard.MtuProbe
import MsnGuard.HealthVerdicts
