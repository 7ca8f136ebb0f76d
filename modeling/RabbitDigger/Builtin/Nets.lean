import RabbitDigger.Interface.Net

/-!
# The nets of the standard plugins

Every net that `rd-std` registers, as the methods it provides.  Most of them hold other nets and
pass calls on:

* `alias` and `combine` **are** the methods of other nets;
* `resolve` turns a domain into addresses, asks another net for them, and tries one after the
  other; `local` does so with the sockets of the operating system;
* `rule` chooses the net by the first rule that matches;
* `dns_sniffer` recovers a domain from an address that was seen in a DNS response;
* `socks5`, `http` and `tls` connect to a proxy through their net and hand the destination on;
* `dns` has no sockets of its own either: its resolver binds them through a net, in a context that
  knows nothing of the connection for which a name is looked up.

`rule_net.rs` looks a rule up through a cache.  What it finds is what scanning the rules finds
(`Rule.RuleNet`), and this is what stands here.

The constructors of `Kind` are the nets with their references, which in a running config are
always `RunningNet`s, given by their numbers.
-/

namespace RabbitDigger.Nets

open Procedure

variable {deps : MatcherDeps}

/-! ## Operations -/

/-- `tokio::net::lookup_host`. -/
def systemLookup (domain : String) (port : UInt16) :
    NetProg deps (IoResult (List SocketAddr)) :=
  .perform (Op.lookupHost domain port) .done

/-- `AsyncResolver::lookup_ip` begins. -/
def resolverBinds (host : String) : NetProg deps (List SocketAddr) :=
  .perform (Op.resolverBinds host) .done

/-- `AsyncResolver::lookup_ip` ends. -/
def lookupIp (host : String) : NetProg deps (IoResult (List IpAddr)) :=
  .perform (Op.lookupIp host) .done

/-- The race of the connections to some addresses. -/
def race (addrs : List SocketAddr) : NetProg deps (Except NetError ℕ) :=
  .perform (Op.race addrs) .done

/-- `tcp_bind_single` and `udp_bind_single`. -/
def bindSingle (method : Method) (addr : SocketAddr) : NetProg deps (Except NetError ℕ) :=
  .perform (Op.bindSingle method addr) .done

/-- `ReverseLookup::reverse_lookup`. -/
def lookupName (rl : ℕ) (ip : IpAddr) : NetProg deps (Option String) :=
  .perform (Op.reverseLookup rl ip) .done

/-- `Socks5Client::send_command`. -/
def sendCommand (stream : Socket deps) (command : Socks5Handshake.CommandRequest) :
    NetProg deps (Except NetError SocksAddress) :=
  .perform (Op.sendCommand stream command) .done

/-- `client_conn::handshake`. -/
def httpHandshake (stream : Socket deps) : NetProg deps (Except NetError Unit) :=
  .perform (Op.httpHandshake stream) .done

/-- `send_request` of an HTTP client. -/
def httpConnect (stream : Socket deps) (uri : String) : NetProg deps (Except NetError Unit) :=
  .perform (Op.httpConnect stream uri) .done

/-- `TlsConnector::connect`. -/
def tlsConnect (stream : Socket deps) (host : String) : NetProg deps (Except NetError Unit) :=
  .perform (Op.tlsConnect stream host) .done

/-! ## Addresses -/

/-- `SocketAddr::is_ipv4`. -/
def isIpv4 : SocketAddr → Bool
  | .v4 _ _ => true
  | .v6 _ _ _ _ => false

/-- `SocketAddr::is_ipv6`. -/
def isIpv6 : SocketAddr → Bool
  | .v4 _ _ => false
  | .v6 _ _ _ _ => true

/-- `Address::resolve`. -/
def resolve (addr : Address)
    (f : String → UInt16 → NetProg deps (Except NetError (List SocketAddr))) :
    NetProg deps (Except NetError (List SocketAddr)) :=
  match addr.normalize deps.std with
  | .inl s => pure (.ok [s])
  | .inr (domain, port) => f domain port

/-- `for addr in addrs`: the first attempt that succeeds; otherwise the last error, or the given
error if there was no attempt. -/
def tryEach
    (attempt : Context → SocketAddr → NetProg deps (Context × Except NetError (Socket deps)))
    (noAddress : NetError) :
    Option NetError → List SocketAddr → Context →
      NetProg deps (Context × Except NetError (Socket deps))
  | lastErr, [], ctx => pure (ctx, .error (lastErr.getD noAddress))
  | _, addr :: addrs, ctx => do
      match ← attempt ctx addr with
      | (ctx, .ok socket) => pure (ctx, .ok socket)
      | (ctx, .error e) => tryEach attempt noAddress (some e) addrs ctx

/-- The text of the error when there is no address. -/
def noAddressText : String := "could not resolve to any address"

/-! ## Nets without other nets -/

/-- `NotImplementedNet`. -/
def NotImplementedNet.inet : INet deps := ⟨fun _ => none, none⟩

/-- `BlackholeNet`. -/
def BlackholeNet.inet : INet deps where
  provide _ := some fun ctx _ => pure (ctx, .ok .blackhole)
  provideLookupHost := none

/-! ## `LocalNet` -/

namespace LocalNet

/-- `Resolver::lookup_host`. -/
def lookupHost (net : Option (INet deps)) (domain : String) (port : UInt16) :
    NetProg deps (Except NetError (List SocketAddr)) :=
  match net with
  | some net => do
      let result ← net.lookupHost (.domain domain port)
      pure (result.mapError .viaIo)
  | none => do
      let result ← systemLookup domain port
      pure (result.mapError fun e => .error (.io e))

/-- `itertools::interleave`. -/
def interleave {α : Type} : List α → List α → List α
  | [], bs => bs
  | a :: as, [] => a :: as
  | a :: as, b :: bs => a :: b :: interleave as bs

/-- The addresses in the order in which they are tried: interleaved, v6 first. -/
def eyeballs (addrs : List SocketAddr) : List SocketAddr :=
  interleave (addrs.filter isIpv6) (addrs.filter isIpv4)

/-- The error when there is no address. -/
def noAddress : NetError := .error (.io { kind := .invalidInput, message := noAddressText })

/-- `tcp_connect_happy_eyeballs`.  The race over no address at all is lost. -/
def tcpConnectHappyEyeballs (net : Option (INet deps)) (addr : Address) :
    NetProg deps (Except NetError (Socket deps)) := do
  match ← resolve addr (lookupHost net) with
  | .error e => pure (.error e)
  | .ok addrs =>
      if (eyeballs addrs).isEmpty then pure (.error noAddress)
      else do
        let result ← race (eyeballs addrs)
        pure (result.map .system)

/-- `TcpBind::tcp_bind` and `UdpBind::udp_bind`. -/
def bind (method : Method) (net : Option (INet deps)) : SocketMethod deps := fun ctx addr => do
  match ← resolve addr (lookupHost net) with
  | .error e => pure (ctx, .error e)
  | .ok addrs =>
      tryEach (fun ctx addr => do
        let result ← bindSingle method addr
        pure (ctx, result.map .system)) noAddress none addrs ctx

/-- `INet for LocalNet`. -/
def inet (net : Option (INet deps)) : INet deps where
  provide
    | .tcpConnect => some fun ctx addr => do
        let result ← tcpConnectHappyEyeballs net addr
        pure (ctx, result)
    | .tcpBind => some (bind .tcpBind net)
    | .udpBind => some (bind .udpBind net)
  provideLookupHost := some fun addr => resolve addr (lookupHost net)

end LocalNet

/-! ## `DnsNet` -/

namespace DnsNet

variable (net : INet deps)

/-- `RDUdpSocket::bind`, for one socket of the resolver after the other.  What comes of them is up
to the resolver. -/
def bindEach : List SocketAddr → NetProg deps Unit
  | [] => pure ()
  | addr :: addrs => do
      let _ ← net.socket .udpBind Context.new (.socketAddr addr)
      bindEach addrs

/-- `DnsNet::lookup_host`. -/
def lookupHost (addr : Address) : NetProg deps (Except NetError (List SocketAddr)) :=
  resolve addr fun host port => do
    let addrs ← resolverBinds host
    bindEach net addrs
    match ← lookupIp host with
    | .error e => pure (.error (.error (.io e)))
    | .ok ips => pure (.ok (ips.map fun ip => SocketAddr.new ip port))

/-- `INet for DnsNet`. -/
def inet : INet deps where
  provide _ := none
  provideLookupHost := some (lookupHost net)

end DnsNet

/-! ## Nets that pass on what they are asked -/

/-- `AliasNet`. -/
def AliasNet.inet (net : INet deps) : INet deps where
  provide := net.provide
  provideLookupHost := net.provideLookupHost

/-- `CombineNet`. -/
def CombineNet.inet (tcpConnect tcpBind udpBind lookupHost : INet deps) : INet deps where
  provide
    | .tcpConnect => tcpConnect.provide .tcpConnect
    | .tcpBind => tcpBind.provide .tcpBind
    | .udpBind => udpBind.provide .udpBind
  provideLookupHost := lookupHost.provideLookupHost

namespace ResolveNet

variable (net resolveNet : INet deps) (ipv4 ipv6 : Bool)

/-- Whether an address is of a family that is enabled. -/
def enabled (i : SocketAddr) : Bool := (ipv4 && isIpv4 i) || (ipv6 && isIpv6 i)

/-- The `resolver` of `ResolveNet::new`. -/
def resolver (domain : String) (port : UInt16) :
    NetProg deps (Except NetError (List SocketAddr)) := do
  match ← resolveNet.lookupHost (.domain domain port) with
  | .error e => pure (.error e.viaIo)
  | .ok addrs => pure (.ok (addrs.filter (enabled ipv4 ipv6)))

/-- `ResolveNet::tcp_connect` and `ResolveNet::udp_bind`. -/
def connect (method : Method) : SocketMethod deps := fun ctx addr => do
  match ← resolve addr (resolver resolveNet ipv4 ipv6) with
  | .error e => pure (ctx, .error e)
  | .ok addrs =>
      tryEach (fun ctx addr => net.socket method ctx (.socketAddr addr))
        (.ioNotFound noAddressText) none addrs ctx

/-- `INet for ResolveNet`. -/
def inet : INet deps where
  provide
    | .tcpConnect => some (connect net resolveNet ipv4 ipv6 .tcpConnect)
    | .tcpBind => net.provide .tcpBind
    | .udpBind => some (connect net resolveNet ipv4 ipv6 .udpBind)
  provideLookupHost := net.provideLookupHost

end ResolveNet

namespace RuleNet

variable (rules : List (RuleItem deps ℕ))

/-- `RuleNet::tcp_connect`. -/
def tcpConnect : SocketMethod deps := fun ctx addr =>
  match scanRules rules ctx addr with
  | .error e => pure (ctx, .error (.error e))
  | .ok rule => (RunningNet.asNet deps rule.target).socket .tcpConnect ctx addr

/-- `INet for RuleNet`.  `udp_bind` keeps a copy of the context. -/
def inet : INet deps where
  provide
    | .tcpConnect => some (tcpConnect rules)
    | .tcpBind => none
    | .udpBind => some fun ctx bindAddr => pure (ctx, .ok (.udpConnector rules ctx bindAddr))
  provideLookupHost := none

end RuleNet

namespace DNSSnifferNet

variable (text : StdText) (net : INet deps) (rl : ℕ)

/-- The context with the domain that was recovered. -/
def recovered (ctx : Context) (name : String) (port : UInt16) : Context :=
  (ctx.insertCommon text .destDomain { domain := name, port }).1

/-- `DNSSnifferNet::reverse_lookup`. -/
def reverseLookup (ctx : Context) : Address → NetProg deps (Context × Address)
  | .socketAddr sa => do
      match ← lookupName rl sa.ip with
      | some name => pure (recovered text ctx name sa.port, .domain name sa.port)
      | none => pure (ctx, .socketAddr sa)
  | .domain name port => pure (ctx, .domain name port)

/-- `DNSSnifferNet::tcp_connect`. -/
def tcpConnect : SocketMethod deps := fun ctx addr => do
  let (ctx, addr) ← reverseLookup text rl ctx addr
  net.socket .tcpConnect ctx addr

/-- `DNSSnifferNet::udp_bind`. -/
def udpBind : SocketMethod deps := fun ctx addr => do
  match ← net.socket .udpBind ctx addr with
  | (ctx, .error e) => pure (ctx, .error e)
  | (ctx, .ok udp) => pure (ctx, .ok (.mitmUdp udp rl))

/-- `INet for DNSSnifferNet`. -/
def inet : INet deps where
  provide
    | .tcpConnect => some (tcpConnect text net rl)
    | .tcpBind => net.provide .tcpBind
    | .udpBind => some (udpBind net rl)
  provideLookupHost := net.provideLookupHost

end DNSSnifferNet

/-! ## Nets that speak to a proxy -/

namespace Socks5Client

variable (toSocketAddr : SocksAddress → Except SocksError SocketAddr) (net : INet deps)
  (server : Address)

/-- `Socks5Client::tcp_connect`. -/
def tcpConnect : SocketMethod deps := fun ctx addr => do
  match ← net.socket .tcpConnect ctx server with
  | (ctx, .error e) => pure (ctx, .error e)
  | (ctx, .ok socket) => do
      match ← sendCommand socket ⟨.connect, ra2sa addr⟩ with
      | .error e => pure (ctx, .error e)
      | .ok _ => pure (ctx, .ok (.socks5Tcp socket))

/-- The error when the server has no address. -/
def noServer : NetError :=
  .error (.io { kind := .addrNotAvailable, message := "Failed to lookup domain" })

/-- `Socks5Client::udp_bind`, once the server has an address and is connected. -/
def associate (serverAddr : SocketAddr) (socket : Socket deps) (ctx : Context) (addr : Address) :
    NetProg deps (Context × Except NetError (Socket deps)) := do
  match ← sendCommand socket ⟨.udpAssociate, ra2sa addr⟩ with
  | .error e => pure (ctx, .error e)
  | .ok resp => do
      match ← net.socket .udpBind ctx (.anyAddrPort serverAddr) with
      | (ctx, .error e) => pure (ctx, .error e)
      | (ctx, .ok client) =>
          match toSocketAddr resp with
          | .error e => pure (ctx, .error (.error (mapErr e)))
          | .ok addr => pure (ctx, .ok (.socks5Udp client socket addr))

/-- `Socks5Client::udp_bind`. -/
def udpBind : SocketMethod deps := fun ctx addr => do
  match ← net.lookupHost server with
  | .error e => pure (ctx, .error e)
  | .ok [] => pure (ctx, .error noServer)
  | .ok (serverAddr :: _) => do
      match ← net.socket .tcpConnect ctx (.socketAddr serverAddr) with
      | (ctx, .error e) => pure (ctx, .error e)
      | (ctx, .ok socket) => associate toSocketAddr net serverAddr socket ctx addr

/-- `INet for Socks5Client`. -/
def inet : INet deps where
  provide
    | .tcpConnect => some (tcpConnect net server)
    | .tcpBind => none
    | .udpBind => some (udpBind toSocketAddr net server)
  provideLookupHost := none

end Socks5Client

namespace HttpClient

variable (text : StdText) (isUri : String → Bool) (net : INet deps) (server : Address)

/-- `HttpClient::tcp_connect`.  The request is unwrapped, although its builder fails if the
destination is no URI. -/
def tcpConnect : SocketMethod deps := fun ctx addr => do
  match ← net.socket .tcpConnect ctx server with
  | (ctx, .error e) => pure (ctx, .error e)
  | (ctx, .ok socket) => do
      match ← httpHandshake socket with
      | .error e => pure (ctx, .error e)
      | .ok () =>
          if isUri (addr.display text) then do
            match ← httpConnect socket (addr.display text) with
            | .error e => pure (ctx, .error e)
            | .ok () => pure (ctx, .ok (.httpTcp socket))
          else .abort

/-- `INet for HttpClient`. -/
def inet : INet deps where
  provide
    | .tcpConnect => some (tcpConnect text isUri net server)
    | .tcpBind => none
    | .udpBind => none
  provideLookupHost := none

end HttpClient

namespace TlsNet

variable (text : StdText) (net : INet deps) (sni : Option String)

/-- `TlsNet::tcp_connect`. -/
def tcpConnect : SocketMethod deps := fun ctx addr => do
  match ← net.socket .tcpConnect ctx addr with
  | (ctx, .error e) => pure (ctx, .error e)
  | (ctx, .ok stream) => do
      match ← tlsConnect stream (sni.getD (addr.host text)) with
      | .error e => pure (ctx, .error e)
      | .ok () => pure (ctx, .ok (.tls stream))

/-- `INet for TlsNet`. -/
def inet : INet deps where
  provide
    | .tcpConnect => some (tcpConnect text net sni)
    | .tcpBind => none
    | .udpBind => none
  provideLookupHost := none

end TlsNet

/-! ## All nets, with their references -/

/-- The nets that the plugins build, with the `RunningNet`s that their references stand for.  The
`ReverseLookup` of a `DNSSnifferNet` is given by a number too. -/
inductive Kind (deps : MatcherDeps) where
  | noop
  | blackhole
  | dns (net : Option ℕ)
  | localNet (lookupHost : Option ℕ)
  | aliasNet (net : ℕ)
  | combine (tcpConnect tcpBind udpBind lookupHost : ℕ)
  | resolve (net resolveNet : ℕ) (ipv4 ipv6 : Bool)
  | rule (rules : List (RuleItem deps ℕ))
  | dnsSniffer (net : ℕ) (rl : ℕ)
  | socks5 (net : ℕ) (server : Address)
  | http (net : ℕ) (server : Address)
  | tls (net : ℕ) (sni : Option String)

/-- What other crates say about addresses. -/
structure Crates where
  text : StdText
  /-- `socks5_protocol::Address::to_socket_addr`. -/
  toSocketAddr : SocksAddress → Except SocksError SocketAddr
  /-- `http::Uri::try_from`. -/
  isUri : String → Bool

namespace Kind

/-- The references of a net, in the order in which its configuration is visited. -/
def refs : Kind deps → List ℕ
  | .noop | .blackhole => []
  | .dns net => net.toList
  | .localNet lookupHost => lookupHost.toList
  | .aliasNet net | .dnsSniffer net _ | .socks5 net _ | .http net _ | .tls net _ => [net]
  | .combine tcpConnect tcpBind udpBind lookupHost => [tcpConnect, tcpBind, udpBind, lookupHost]
  | .resolve net resolveNet _ _ => [net, resolveNet]
  | .rule rules => rules.map RuleItem.target

/-- The references through which a net makes the sockets that it is asked for. -/
def socketRefs : Kind deps → List ℕ
  | .noop | .blackhole | .dns _ | .localNet _ => []
  | .aliasNet net | .resolve net _ _ _ | .dnsSniffer net _ | .socks5 net _ | .http net _
  | .tls net _ => [net]
  | .combine tcpConnect tcpBind udpBind _ => [tcpConnect, tcpBind, udpBind]
  | .rule rules => rules.map RuleItem.target

/-- `Builder::build`, with the nets that the references stand for. -/
def build (crates : Crates) : Kind deps → INet deps
  | .noop => NotImplementedNet.inet
  | .blackhole => BlackholeNet.inet
  | .dns net => DnsNet.inet (net.elim (LocalNet.inet none) (RunningNet.asNet deps))
  | .localNet lookupHost => LocalNet.inet (lookupHost.map (RunningNet.asNet deps))
  | .aliasNet net => AliasNet.inet (RunningNet.asNet deps net)
  | .combine tcpConnect tcpBind udpBind lookupHost =>
      CombineNet.inet (RunningNet.asNet deps tcpConnect) (RunningNet.asNet deps tcpBind)
        (RunningNet.asNet deps udpBind) (RunningNet.asNet deps lookupHost)
  | .resolve net resolveNet ipv4 ipv6 =>
      ResolveNet.inet (RunningNet.asNet deps net) (RunningNet.asNet deps resolveNet) ipv4 ipv6
  | .rule rules => RuleNet.inet rules
  | .dnsSniffer net rl => DNSSnifferNet.inet crates.text (RunningNet.asNet deps net) rl
  | .socks5 net server =>
      Socks5Client.inet crates.toSocketAddr (RunningNet.asNet deps net) server
  | .http net server => HttpClient.inet crates.text crates.isUri (RunningNet.asNet deps net) server
  | .tls net sni => TlsNet.inet crates.text (RunningNet.asNet deps net) sni

end Kind

end RabbitDigger.Nets
