import PaperBoxing.Lib.Threads
import PaperBoxing.Lib.Disk
import PaperBoxing.Lib.Patterns
import PaperBoxing.Lib.IsoTime
import PaperBoxing.Common.Naming
import PaperBoxing.Backend.Routes
import PaperBoxing.Common.FakeBackend
import PaperBoxing.Backend.Alone
import PaperBoxing.Backend.SiteLocks
import PaperBoxing.Agreement.Histories
import PaperBoxing.Frontend.Auth
import PaperBoxing.Mcp.Confirmed
import PaperBoxing.Backend.Sessions
import PaperBoxing.Backend.LastUser
import PaperBoxing.Backend.Revocation
import PaperBoxing.Backend.PasswordChange
import PaperBoxing.Backend.Reconcile
import PaperBoxing.Backend.Pairing
import PaperBoxing.Backend.Index
import PaperBoxing.Common.SitePaths
import PaperBoxing.Backend.Timestamps
import PaperBoxing.Mcp.Limits
import PaperBoxing.Frontend.Paths
import PaperBoxing.Common.Outages
import PaperBoxing.Backend.Served
import PaperBoxing.Mcp.Refusals
import PaperBoxing.Mcp.Downloads
import PaperBoxing.Common.Slugs
import PaperBoxing.Frontend.Downloads
import PaperBoxing.Mcp.RoundTrip
import PaperBoxing.Backend.Racing
import PaperBoxing.Backend.InFlight
import PaperBoxing.Backend.Cancelled
import PaperBoxing.Backend.LongPaths
import PaperBoxing.Backend.Scoped
import PaperBoxing.Backend.Whole
import PaperBoxing.Backend.FailedUpload
import PaperBoxing.Agreement.Backends
import PaperBoxing.Agreement.Concurrent
