import RabbitDigger.Foundation.Procedure
import RabbitDigger.Manager.ServerNet
import RabbitDigger.Rule.RuleNet
import RabbitDigger.Socks5.Handshake

/-!
# Nets and the calls between them

`rd-interface/src/interface.rs`: a net **provides** up to four methods, and a call of a method
that it does not provide is `NotImplemented`.  `src/rabbit_digger/running.rs`: the nets of a
config refer to each other through `RunningNet`s, which provide everything, write their name into
the context and pass the call on to the net that they hold at this moment.

A method is a program over the calls it makes on other `RunningNet`s and the operations it
performs outside of the nets (`Foundation.Procedure`), and where the source panics it aborts;
which net a `RunningNet` holds is a table
that `update_net` can change, so it is no part of the program.

`RunningServerNet` stands between a server and its net.  Its `tcp_connect` writes the destination
into the context first (`Manager.ServerNet`), and every socket it hands out is wrapped.
-/

namespace RabbitDigger.Nets

open Procedure

/-- The methods that are given a context and make a socket. -/
inductive Method where
  | tcpConnect
  | tcpBind
  | udpBind
deriving Repr, DecidableEq

/-- The errors of a net: those of the interface, and an `io::Error` of the kind `NotFound`. -/
inductive NetError where
  | error (e : Error)
  | ioNotFound (message : String)
deriving Repr, DecidableEq

/-- An error that has become an `io::Error` and is an error of the interface again. -/
def NetError.viaIo : NetError → NetError
  | .error e => .error (.io e.toIoError)
  | .ioNotFound message => .ioNotFound message

/-- `TcpStream`, `TcpListener` and `UdpSocket`: the objects that nets make. -/
inductive Socket (deps : MatcherDeps) where
  /-- A socket or listener of the operating system. -/
  | system (id : ℕ)
  /-- `BlackItem`. -/
  | blackhole
  /-- `Socks5TcpStream`. -/
  | socks5Tcp (stream : Socket deps)
  /-- `HttpTcpStream`. -/
  | httpTcp (stream : Socket deps)
  /-- The stream of a `TlsNet`. -/
  | tls (stream : Socket deps)
  /-- `Socks5UdpSocket`, which keeps its control stream. -/
  | socks5Udp (udp tcp : Socket deps) (serverAddr : SocketAddr)
  /-- `MitmUdp`, with the `ReverseLookup` it reports to. -/
  | mitmUdp (udp : Socket deps) (rl : ℕ)
  /-- The `UdpConnector` of a `RuleNet`, which binds when the first packet is sent. -/
  | udpConnector (rules : List (RuleItem deps ℕ)) (ctx : Context) (bindAddr : Address)
  /-- `WrapTcpStream` and `WrapUdpSocket`. -/
  | wrapped (inner : Socket deps) (addr : Address) (ctx : Context)

/-- A call on a `RunningNet`, given by its number. -/
inductive Call where
  | socket (net : ℕ) (method : Method) (ctx : Context) (addr : Address)
  | lookupHost (net : ℕ) (addr : Address)

/-- The `RunningNet` that is called. -/
def Call.net : Call → ℕ
  | .socket net _ _ _ => net
  | .lookupHost net _ => net

/-- What the nets do outside of the nets. -/
inductive Op (deps : MatcherDeps) where
  /-- `tokio::net::lookup_host`. -/
  | lookupHost (domain : String) (port : UInt16)
  /-- `AsyncResolver::lookup_ip` begins: the addresses it binds sockets to. -/
  | resolverBinds (host : String)
  /-- `AsyncResolver::lookup_ip` ends. -/
  | lookupIp (host : String)
  /-- The race of `tcp_connect_single` over addresses, in the order in which they are started. -/
  | race (addrs : List SocketAddr)
  /-- `tcp_bind_single` and `udp_bind_single`. -/
  | bindSingle (method : Method) (addr : SocketAddr)
  /-- `ReverseLookup::reverse_lookup`. -/
  | reverseLookup (rl : ℕ) (ip : IpAddr)
  /-- `Socks5Client::send_command`, the address of the response. -/
  | sendCommand (stream : Socket deps) (command : Socks5Handshake.CommandRequest)
  /-- `client_conn::handshake`. -/
  | httpHandshake (stream : Socket deps)
  /-- The request `CONNECT`. -/
  | httpConnect (stream : Socket deps) (uri : String)
  /-- `TlsConnector::connect`. -/
  | tlsConnect (stream : Socket deps) (host : String)

/-- The calls and the operations, with what they result in.  A call hands back the context, which
it may have changed even if it failed. -/
def netSig (deps : MatcherDeps) : Signature where
  Call := Call
  Reply
    | .socket _ _ _ _ => Context × Except NetError (Socket deps)
    | .lookupHost _ _ => Except NetError (List SocketAddr)
  Op := Op deps
  Answer
    | .lookupHost _ _ => IoResult (List SocketAddr)
    | .resolverBinds _ => List SocketAddr
    | .lookupIp _ => IoResult (List IpAddr)
    | .race _ => Except NetError ℕ
    | .bindSingle _ _ => Except NetError ℕ
    | .reverseLookup _ _ => Option String
    | .sendCommand _ _ => Except NetError SocksAddress
    | .httpHandshake _ => Except NetError Unit
    | .httpConnect _ _ => Except NetError Unit
    | .tlsConnect _ _ => Except NetError Unit

/-- A program of a net. -/
abbrev NetProg (deps : MatcherDeps) (α : Type) := Prog (netSig deps) α

/-- A method that makes sockets. -/
abbrev SocketMethod (deps : MatcherDeps) :=
  Context → Address → NetProg deps (Context × Except NetError (Socket deps))

/-- `LookupHost::lookup_host`. -/
abbrev LookupMethod (deps : MatcherDeps) :=
  Address → NetProg deps (Except NetError (List SocketAddr))

/-- `INet`: the methods that a net provides. -/
structure INet (deps : MatcherDeps) where
  provide : Method → Option (SocketMethod deps)
  provideLookupHost : Option (LookupMethod deps)

variable {deps : MatcherDeps}

namespace INet

/-- `Net::tcp_connect`, `Net::tcp_bind` and `Net::udp_bind`. -/
def socket (net : INet deps) (method : Method) : SocketMethod deps := fun ctx addr =>
  match net.provide method with
  | none => pure (ctx, .error (.error .notImplemented))
  | some f => f ctx addr

/-- `Net::lookup_host`. -/
def lookupHost (net : INet deps) : LookupMethod deps := fun addr =>
  match net.provideLookupHost with
  | none => pure (.error (.error .notImplemented))
  | some f => f addr

end INet

/-! ## `RunningNet` -/

/-- `RunningNet`: its name and the net it holds. -/
structure RunningNet (deps : MatcherDeps) where
  name : String
  net : INet deps

/-- `RunningNet::as_net`, seen from outside: it provides everything, by a call. -/
def RunningNet.asNet (deps : MatcherDeps) (x : ℕ) : INet deps where
  provide method := some fun ctx addr => .call (Call.socket x method ctx addr) .done
  provideLookupHost := some fun addr => .call (Call.lookupHost x addr) .done

/-- What a `RunningNet` does when it is called: `RunningNet::tcp_connect`, `tcp_bind` and
`udp_bind` append its name, `RunningNet::lookup_host` does not. -/
def RunningNet.body (nets : ℕ → RunningNet deps) :
    (c : Call) → NetProg deps ((netSig deps).Reply c)
  | .socket x method ctx addr =>
      (nets x).net.socket method (ctx.appendNet (nets x).name) addr
  | .lookupHost x addr => (nets x).net.lookupHost addr

/-! ## `RunningServerNet` -/

namespace RunningServerNet

variable (text : StdText) (serverName : String) (net : INet deps)

/-- Wrap what the net behind has made. -/
def wrap (addr : Address) :
    Context × Except NetError (Socket deps) → Context × Except NetError (Socket deps)
  | (ctx, .error e) => (ctx, .error e)
  | (ctx, .ok socket) => (ctx, .ok (.wrapped socket addr ctx))

/-- `RunningServerNet::tcp_connect`. -/
def tcpConnect : SocketMethod deps := fun ctx addr =>
  match RabbitDigger.RunningServerNet.prepare text (ctx.appendNet serverName) addr with
  | (ctx, .error e) => pure (ctx, .error (.error (.context e)))
  | (ctx, .ok ()) => do
      let result ← net.socket .tcpConnect ctx addr
      pure (wrap addr result)

/-- `RunningServerNet::tcp_bind`. -/
def tcpBind : SocketMethod deps := fun ctx addr =>
  net.socket .tcpBind (ctx.appendNet serverName) addr

/-- `RunningServerNet::udp_bind`. -/
def udpBind : SocketMethod deps := fun ctx addr => do
  let result ← net.socket .udpBind (ctx.appendNet serverName) addr
  pure (wrap addr result)

/-- `INet for RunningServerNet`. -/
def inet : INet deps where
  provide
    | .tcpConnect => some (tcpConnect text serverName net)
    | .tcpBind => some (tcpBind serverName net)
    | .udpBind => some (udpBind serverName net)
  provideLookupHost := net.provideLookupHost

end RunningServerNet

end RabbitDigger.Nets
