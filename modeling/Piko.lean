import Piko.Cluster.Node
import Piko.Cluster.State
import Piko.Cluster.WellFormed
import Piko.Cluster.LocalEndpoints
import Piko.Cluster.Metrics
import Piko.Cluster.RemoteEndpoints
import Piko.Cluster.Replay
import Piko.Proxy.Request
import Piko.Proxy.Forwarding
import Piko.Rpc.Message
import Piko.Rpc.Stream
import Piko.Rpc.Steps
import Piko.Rpc.Shutdown
import Piko.Rpc.Responses
import Piko.Rpc.Cancel
import Piko.Rpc.ResponseTable
import Piko.Rpc.Wire
import Piko.Rpc.Fifo
import Piko.Rpc.Requests
import Piko.Rpc.Monitor
import Piko.Rpc.MonitorRelease
import Piko.Rpc.Frame
import Piko.Rpc.Pair
import Piko.Rpc.AtMostOnce
import Piko.Rpc.ReaderBlock
