import TribeHub.Library.Js
import TribeHub.Library.Transition
import TribeHub.Library.Expiring
import TribeHub.Library.Threshold
import TribeHub.Library.UniqueTable
import TribeHub.Library.Window
import TribeHub.Library.Text
import TribeHub.Library.Url
import TribeHub.Library.Regex
import TribeHub.Library.Tally
import TribeHub.Library.Glob
import TribeHub.Library.Simulation
import TribeHub.SystemConfig.Service
import TribeHub.SystemConfig.Interleaving
import TribeHub.SystemConfig.Staleness
import TribeHub.SystemConfig.Invalidation
import TribeHub.SystemConfig.WholeOperations
import TribeHub.SystemConfig.ClearNamespace
import TribeHub.SystemConfig.MonotoneReads
import TribeHub.SystemConfig.CacheHits
import TribeHub.SystemConfig.KeyIsolation
import TribeHub.SystemConfig.SerialRuns
import TribeHub.SystemConfig.FeatureFlags
import TribeHub.Auth.UsersTable
import TribeHub.Auth.Register
import TribeHub.Auth.RegisterAtomicity
import TribeHub.Auth.ConcurrentRegister
import TribeHub.Auth.RegistrationOrigin
import TribeHub.Auth.RegistrationLedger
import TribeHub.Auth.RegisterValidation
import TribeHub.Auth.Availability
import TribeHub.Auth.Logout
import TribeHub.Auth.RefreshTokens
import TribeHub.Auth.BearerTokens
import TribeHub.Auth.SecurityAlerts
import TribeHub.SystemConfig.Seed
import TribeHub.Queues.RedisConnection
import TribeHub.Observability.Alerts
import TribeHub.Observability.AppMonitor
import TribeHub.Observability.LatencyP95
import TribeHub.Observability.SecurityMonitor
import TribeHub.Observability.SecurityWindow
import TribeHub.Observability.StaleEvents
import TribeHub.Observability.MonitorLoop
import TribeHub.Observability.MonitorSteadiness
import TribeHub.Observability.MonitorShutdown
import TribeHub.Observability.MonitorPacing
import TribeHub.Observability.ErrorStatus
import TribeHub.Observability.RouteLabels
import TribeHub.Observability.HttpMetrics
import TribeHub.Observability.RequestAccounting
import TribeHub.Observability.LatencyAlerts
import TribeHub.Observability.UnmatchedRoutes
import TribeHub.Observability.MetricsEndpoint
import TribeHub.Http.Cors
