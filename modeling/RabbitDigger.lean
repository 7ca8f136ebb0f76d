import RabbitDigger.Builtin.ForwardRetry
import RabbitDigger.Builtin.HappyEyeballs
import RabbitDigger.Http.Proxy
import RabbitDigger.Interface.ContextValue
import RabbitDigger.Manager.Applied
import RabbitDigger.Manager.BuildEnds
import RabbitDigger.Manager.ServerCalls
import RabbitDigger.Manager.Sniffed
import RabbitDigger.Manager.StartStreamProgress
import RabbitDigger.Manager.StopCalls
import RabbitDigger.Manager.Wrapped
import RabbitDigger.Relay.TcpFlush
import RabbitDigger.Relay.UdpWakeup
import RabbitDigger.Rule.Merge
import RabbitDigger.Socks5.Connect
import RabbitDigger.Socks5.ControlStream
import RabbitDigger.Socks5.Tunnel
import RabbitDigger.Tls.PushingStream
import RabbitDigger.Transparent.TProxy
import RabbitDigger.Util.AsyncFn
import RabbitDigger.Util.FailedBind
import RabbitDigger.Util.PeekableTcpStream
import RabbitDigger.Util.TopologicalSort
import RabbitDigger.Util.UdpConnector
