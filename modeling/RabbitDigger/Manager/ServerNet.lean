import RabbitDigger.Rule.Matcher

/-!
# What a server's net tells the nets behind it

`RunningServerNet::tcp_connect` (`src/rabbit_digger/running.rs`): before the connection is
handed to the net of the server, its destination is **written into the context**, a domain
under one key and a socket address under another.  The nets behind may replace the address
that they pass on; a rule then still finds the original destination in the context.

A destination travels as text inside of a JSON value.  It is written by the `Display` of an
address and read by the `FromStr` of a common field, in another crate.  This module shows
that nothing is lost on the way (`tcp_connect_routing_view`), whatever the domain looks
like.  Of a socket address the flow label is lost, which `std` does not print.
-/

namespace RabbitDigger

/-- `WrapTcpStream::new`: the connection is registered with its address and its context. -/
structure WrapTcpStream (Stream : Type) where
  inner : Stream
  addr : Address
  ctx : Context

/-- `RunningServerNet`.  The net behind may change the context it is given. -/
structure RunningServerNet (Stream : Type) where
  serverName : String
  net : Context → Address → Context × Except Error Stream

namespace RunningServerNet

variable {Stream : Type}

/-- prepare context -/
def prepare (text : StdText) (ctx : Context) : Address → Context × Except ContextError Unit
  | .domain domain port => ctx.insertCommon text .destDomain { domain, port }
  | .socketAddr addr => ctx.insertCommon text .destSocketAddr addr

/-- Connect through the net behind, and register the connection. -/
def connectBehind (server : RunningServerNet Stream) (ctx : Context) (addr : Address) :
    Context × Except Error (WrapTcpStream Stream) :=
  match server.net ctx addr with
  | (ctx, .error e) => (ctx, .error e)
  | (ctx, .ok tcp) => (ctx, .ok { inner := tcp, addr, ctx })

/-- `tcp_connect`. -/
def tcpConnect (server : RunningServerNet Stream) (text : StdText) (ctx : Context)
    (addr : Address) : Context × Except Error (WrapTcpStream Stream) :=
  match prepare text (ctx.appendNet server.serverName) addr with
  | (ctx, .error e) => (ctx, .error (.context e))
  | (ctx, .ok ()) => server.connectBehind ctx addr

/-- A destination can always be serialized. -/
theorem tcpConnect_eq (server : RunningServerNet Stream) (text : StdText) (ctx : Context)
    (addr : Address) :
    server.tcpConnect text ctx addr =
      server.connectBehind (prepare text (ctx.appendNet server.serverName) addr).1 addr := by
  cases addr with
  | domain | socketAddr => rfl

end RunningServerNet

namespace MatchContext

/-- The routing view of a connection to `addr'` whose original destination is `addr`. -/
def withDestination (mc : MatchContext) : Address → MatchContext
  | .domain domain port => { mc with destDomain := some { domain, port } }
  | .socketAddr addr => { mc with destSocketAddr := some addr.dropFlowinfo }

end MatchContext

/-- **No malformed common field** among those that a rule reads. -/
structure Context.WellFormed (std : StdNet) (ctx : Context) : Prop where
  src : ∃ v, ctx.getCommon std .srcSocketAddr = .ok v
  destSocket : ∃ v, ctx.getCommon std .destSocketAddr = .ok v
  destDomain : ∃ v, ctx.getCommon std .destDomain = .ok v

namespace MatchContext

variable {std : StdNet} {text : StdText}

/-- What a rule sees when the three fields decode. -/
theorem fromContextAddress_eq {ctx : Context} {src destSocket : Option SocketAddr}
    {destDomain : Option AddressDomain}
    (hsrc : ctx.getCommon std .srcSocketAddr = .ok src)
    (hsocket : ctx.getCommon std .destSocketAddr = .ok destSocket)
    (hdomain : ctx.getCommon std .destDomain = .ok destDomain) (addr : Address) :
    fromContextAddress std ctx addr
      = .ok ⟨addr.toNormalized std, src.map SocketAddr.ip, destSocket, destDomain⟩ := by
  simp only [fromContextAddress, hsrc, hsocket, hdomain]
  rfl

/-- The net list is no part of what a rule sees. -/
theorem fromContextAddress_appendNet (ctx : Context) (names : List String) (addr : Address) :
    fromContextAddress std (names.foldl Context.appendNet ctx) addr
      = fromContextAddress std ctx addr := by
  induction names generalizing ctx with
  | nil => rfl
  | cons name names ih => exact ih (ctx.appendNet name)

/-- A domain is decoded as it was inserted. -/
theorem getCommon_prepare_domain (text : StdText) (ctx : Context) (d : String) (p : UInt16) :
    (RunningServerNet.prepare text ctx (.domain d p)).1.getCommon std .destDomain
      = .ok (some ⟨d, p⟩) := by
  apply Context.getCommon_insertValue_self
  simp only [AddressDomain.display, CommonField.destDomain, CommonField.ofFromStr,
    AddressDomain.fromStr_print]
  rfl

/-- A socket address is decoded without its flow label. -/
theorem getCommon_prepare_socketAddr (laws : std.ReadsSocketAddr text) (ctx : Context)
    (s : SocketAddr) :
    (RunningServerNet.prepare text ctx (.socketAddr s)).1.getCommon std .destSocketAddr
      = .ok (some s.dropFlowinfo) := by
  apply Context.getCommon_insertValue_self
  simp only [CommonField.destSocketAddr, CommonField.ofFromStr, laws.parse_display]

/-- **The destination is added to what a rule sees**, and nothing else changes. -/
theorem fromContextAddress_prepare (laws : std.ReadsSocketAddr text) {ctx : Context}
    {addr' : Address} {before : MatchContext}
    (hbefore : fromContextAddress std ctx addr' = .ok before) (hctx : ctx.WellFormed std)
    (addr : Address) :
    fromContextAddress std (RunningServerNet.prepare text ctx addr).1 addr'
      = .ok (before.withDestination addr) := by
  obtain ⟨⟨src, hsrc⟩, ⟨destSocket, hsocket⟩, ⟨destDomain, hdomain⟩⟩ := hctx
  rw [fromContextAddress_eq hsrc hsocket hdomain] at hbefore
  obtain rfl := Except.ok.inj hbefore
  cases addr with
  | domain d p =>
      rw [← Context.getCommon_insertValue_of_ne std .srcSocketAddr ctx
        (.string (d ++ ":" ++ showU16 p)) (by decide : _ ≠ "dest_domain")] at hsrc
      rw [← Context.getCommon_insertValue_of_ne std .destSocketAddr ctx
        (.string (d ++ ":" ++ showU16 p)) (by decide : _ ≠ "dest_domain")] at hsocket
      exact fromContextAddress_eq hsrc hsocket (getCommon_prepare_domain text ctx d p) addr'
  | socketAddr s =>
      rw [← Context.getCommon_insertValue_of_ne std .srcSocketAddr ctx
        (.string (s.display text)) (by decide : _ ≠ "dest_socket_addr")] at hsrc
      rw [← Context.getCommon_insertValue_of_ne std .destDomain ctx
        (.string (s.display text)) (by decide : _ ≠ "dest_socket_addr")] at hdomain
      exact fromContextAddress_eq hsrc (getCommon_prepare_socketAddr laws ctx s) hdomain addr'

/-- A `DomainMatcher` sees the destination behind a socket address. -/
theorem matchRule_withDestination {deps : MatcherDeps} {mc : MatchContext} {s : SocketAddr}
    (h : mc.address = .socketAddr s) (d : String) (p : UInt16) (m : DomainMatcher) :
    (Matcher.domain m : Matcher deps).matchRule (mc.withDestination (.domain d p))
      = m.test d := by
  simp only [Matcher.matchRule, getDomain, withDestination, h]

end MatchContext

/-- **The routing view is lossless.**  Reading undoes writing for every domain and port.  The
net behind a server is called with a context from which every later address, after any
number of further nets, gets its routing view: the view of the context before, with the
destination added.  A destination that is a domain is seen exactly as it was, and a
`DomainMatcher` tests it even when the later address is a socket address. -/
theorem tcp_connect_routing_view (deps : MatcherDeps) (text : StdText)
    (laws : deps.std.ReadsSocketAddr text) {Stream : Type} (server : RunningServerNet Stream)
    (ctx : Context) (hctx : ctx.WellFormed deps.std) (addr : Address) :
    (∀ a : AddressDomain, AddressDomain.fromStr a.display = .ok a) ∧
      ∃ seen : Context, server.tcpConnect text ctx addr = server.connectBehind seen addr ∧
        ∀ (names : List String) (addr' : Address), ∃ before mc,
          MatchContext.fromContextAddress deps.std ctx addr' = .ok before ∧
          MatchContext.fromContextAddress deps.std (names.foldl Context.appendNet seen) addr'
            = .ok mc ∧
          mc = before.withDestination addr ∧
          ∀ d p, addr = .domain d p →
            mc.destDomain = some ⟨d, p⟩ ∧
            ∀ s, addr'.toNormalized deps.std = .socketAddr s →
              ∀ m : DomainMatcher, (Matcher.domain m : Matcher deps).matchRule mc = m.test d := by
  refine ⟨fun a => AddressDomain.fromStr_print a.domain a.port, _,
    server.tcpConnect_eq text ctx addr, ?_⟩
  intro names addr'
  obtain ⟨⟨src, hsrc⟩, ⟨destSocket, hsocket⟩, ⟨destDomain, hdomain⟩⟩ := hctx
  have hbefore := MatchContext.fromContextAddress_eq hsrc hsocket hdomain addr'
  -- the name of the server is in the net list only
  have happended : (ctx.appendNet server.serverName).WellFormed deps.std :=
    ⟨⟨src, hsrc⟩, ⟨destSocket, hsocket⟩, ⟨destDomain, hdomain⟩⟩
  refine ⟨_, _, hbefore, ?_, rfl, ?_⟩
  · rw [MatchContext.fromContextAddress_appendNet]
    have hsame : MatchContext.fromContextAddress deps.std (ctx.appendNet server.serverName) addr'
        = .ok _ := hbefore
    exact MatchContext.fromContextAddress_prepare laws hsame happended addr
  · rintro d p rfl
    exact ⟨rfl, fun s hs m => MatchContext.matchRule_withDestination hs d p m⟩

/-- A domain with a colon and a bracket, behind a net that resolves it. -/
theorem tcp_connect_routing_view_resolved :
    ∃ (seen : Context) (mc : MatchContext),
      MatchContext.fromContextAddress Numeric.std seen (.socketAddr (.v4 0x01020304 80)) = .ok mc ∧
      mc.destDomain = some ⟨"a:[b", 443⟩ := by
  let deps : MatcherDeps := ⟨Numeric.std, Unit, fun _ _ => false, fun _ => .addressNotFound⟩
  let server : RunningServerNet Unit := ⟨"server", fun ctx _ => (ctx, .ok ())⟩
  have hctx : Context.new.WellFormed deps.std := ⟨⟨none, rfl⟩, ⟨none, rfl⟩, ⟨none, rfl⟩⟩
  obtain ⟨-, seen, -, hseen⟩ := tcp_connect_routing_view deps Numeric.text Numeric.readsSocketAddr
    server Context.new hctx (.domain "a:[b" 443)
  obtain ⟨-, mc, -, hmc, -, hdomain⟩ := hseen [] (.socketAddr (.v4 0x01020304 80))
  exact ⟨seen, mc, hmc, (hdomain "a:[b" 443 rfl).1⟩

end RabbitDigger
