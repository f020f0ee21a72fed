import Deltix.Auth.LastAdmin
import Deltix.Transfer.TicketLifetime
import Deltix.Transfer.JobMachine
import Deltix.Transfer.NasFreshness
import Deltix.Transfer.TicketMachine
import Deltix.Transfer.SlidingExpiry
import Deltix.Transfer.PushCleanup
import Deltix.Versioning.RepoAccess
import Deltix.Auth.LoginParity
import Deltix.Auth.RepoRoles
import Deltix.Addons.AddonPhase
import Deltix.Server.PushAudit
import Deltix.Versioning.MergeErrors
import Deltix.Versioning.ClosureRemedy
import Deltix.Versioning.PreferenceRows
import Deltix.Versioning.HeadLookup
import Deltix.Versioning.AllowList
import Deltix.TlsDiscovery.BootstrapRateLimiter
import Deltix.Addons.CircuitBreaker
import Deltix.Versioning.CommitStream
import Deltix.TlsDiscovery.CertificateBootstrap
import Deltix.Transfer.RepoPaths
import Deltix.Transfer.PushReplies
import Deltix.Server.ProvisioningOutcome
import Deltix.Versioning.MutexMap
import Deltix.Bootstrap.Ports
import Deltix.Config.ExportRoundTrip
import Deltix.Versioning.PullSnapshot
import Deltix.Versioning.BranchHistory
import Deltix.Transfer.PullDelivery
import Deltix.Auth.AdminGate
