import FleetingDns.SlotExclusivity
import FleetingDns.RoutingIsolation
import FleetingDns.GrantIsolation
import FleetingDns.SlotGate
import FleetingDns.ListenerLifetime
import FleetingDns.DeletionFootprint
import FleetingDns.ListExactness
import FleetingDns.BruteForceBound
import FleetingDns.RevocationFinality
import FleetingDns.IssuanceCap
import FleetingDns.CertificateAcceptance
import FleetingDns.CreateAtomicity
import FleetingDns.QuotaExactness
import FleetingDns.DnsVisibility
import FleetingDns.PlanAssignments
import FleetingDns.HubStartup
import FleetingDns.GrantChecks
import FleetingDns.TunnelHealth
import FleetingDns.PortAllocation
import FleetingDns.ConnectionRaces
import FleetingDns.RateLimiting
import FleetingDns.LimiterCleanup
import FleetingDns.TierChanges
import FleetingDns.ViewerReaper
import FleetingDns.WildcardRenewal
import FleetingDns.DnsReflection
import FleetingDns.DotFraming
import FleetingDns.TunnelJson
import FleetingDns.KeyLifecycle
import FleetingDns.RrsigWindow
import FleetingDns.ValidationStats
import FleetingDns.ResponseCompression
import FleetingDns.ActiveTunnels
import FleetingDns.GithubScopes
import FleetingDns.ControlSocket
import FleetingDns.AttemptMemory
import FleetingDns.TunnelClient
import FleetingDns.CliSessions
import FleetingDns.AuthorizedKeys
import FleetingDns.KeyLifetimes
import FleetingDns.StoreOrigins
import FleetingDns.EdgeAnswers
