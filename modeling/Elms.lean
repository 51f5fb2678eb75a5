import Elms.Lib.Transition
import Elms.Balance.Store
import Elms.Requests.Store
import Elms.Requests.Main
import Elms.Requests.Service
import Elms.Requests.Lifecycle
import Elms.Requests.Booking
import Elms.Shared.CircuitBreakers
import Elms.Shared.BreakerRecovery
import Elms.Manager.Main
import Elms.System.World
import Elms.System.Invariant
import Elms.System.Ledger
import Elms.System.Authority
import Elms.System.Conservation
import Elms.Manager.Alone
import Elms.Gateway.Main
import Elms.Gateway.Identity
import Elms.Gateway.Paths
import Elms.Balance.Calls
import Elms.Requests.BalanceClient
import Elms.System.Events
import Elms.Requests.Apply
import Elms.Lib.Paging
import Elms.Requests.History
import Elms.Manager.TeamView
import Elms.System.Serial
import Elms.System.Independence
import Elms.Lib.Json
import Elms.Lib.JsonDumps
import Elms.Notifications.Consumer
import Elms.Notifications.Publisher
import Elms.Requests.Index
import Elms.Requests.Listing
import Elms.Requests.Pages
import Elms.Lib.Itertools
import Elms.Lib.JsonOps
import Elms.Shared.ServiceClient
import Elms.Gateway.ConsulResolver
import Elms.Gateway.Discovery
import Elms.Lib.Streak
import Elms.Shared.BreakerTrips
