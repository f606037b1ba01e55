import LibE3.CApi.Ownership
import LibE3.CApi.Registrations
import LibE3.Connector.Descriptors
import LibE3.Connector.Endpoints
import LibE3.Connector.Limits
import LibE3.Connector.Publisher
import LibE3.Connector.Shutdown
import LibE3.Connector.Stream
import LibE3.Connector.Zmq
import LibE3.Connector.ZmqSockets
import LibE3.Connector.ZmqThreads
import LibE3.Interface.Agent
import LibE3.Interface.Control
import LibE3.Interface.Emissions
import LibE3.Interface.Lifecycle
import LibE3.Interface.Locking
import LibE3.Interface.Notifications
import LibE3.Interface.Outbound
import LibE3.Interface.Pointers
import LibE3.Interface.Providers
import LibE3.Interface.Restarts
import LibE3.Interface.Sessions
import LibE3.Interface.Setup
import LibE3.Interface.SetupFailures
import LibE3.Interface.SetupKinds
import LibE3.Interface.SetupQueue
import LibE3.Interface.Subscriber
import LibE3.Json.Documents
import LibE3.Json.RoundTrip
import LibE3.Mistagged
import LibE3.Mpmc.Capacity
import LibE3.Mpmc.Progress
import LibE3.Mpmc.ResponseQueue
import LibE3.Mpmc.Size
import LibE3.Mpmc.Solo
import LibE3.Mpmc.Verdicts
import LibE3.Subscription.Clear
import LibE3.Subscription.Concurrent
import LibE3.Subscription.Deletion
import LibE3.Subscription.Frame
import LibE3.Subscription.Memory
import LibE3.Subscription.Observed
import LibE3.Subscription.Resolve
import LibE3.Subscription.Reuse
import LibE3.Wire
