import Sandrun.PyDict
import Sandrun.Json.Basic
import Sandrun.Json.RoundTrip
import Sandrun.JobQueue.Basic
import Sandrun.JobQueue.Lock
import Sandrun.JobQueue.Spec
import Sandrun.JobQueue.Step
import Sandrun.JobQueue.Invariant
import Sandrun.JobQueue.Isolation
import Sandrun.JobQueue.Users
import Sandrun.JobQueue.Lifecycle
import Sandrun.JobQueue.Failure
import Sandrun.JobQueue.Ledger
import Sandrun.JobQueue.AsWritten
import Sandrun.RateLimiter.Basic
import Sandrun.RateLimiter.Window
import Sandrun.RateLimiter.Keys
import Sandrun.RateLimiter.Admission
import Sandrun.RateLimiter.Wait
import Sandrun.Pool.Basic
import Sandrun.Pool.Step
import Sandrun.Pool.Invariant
import Sandrun.Pool.Status
import Sandrun.Pool.Accounting
import Sandrun.Broker.Basic
import Sandrun.Broker.Step
import Sandrun.Broker.Claims
import Sandrun.Broker.Results
import Sandrun.Broker.Nodes
import Sandrun.Routes.Upload
import Sandrun.Routes.Handlers
import Sandrun.Broker.Node
import Sandrun.Broker.Protocol
import Sandrun.JobQueue.Commands
import Sandrun.Routes.Create
import Sandrun.Startup
