import RabbitDigger.Builtin.Nets
import RabbitDigger.Manager.UpdateNet

/-!
# Calls between running nets

What a call does that goes from `RunningNet` to `RunningNet`, for every table of nets, every
behaviour of the operating system and the network, and all nets of the standard plugins.

**Invariants of calls** (`Invariant`).  Most statements about calls have one form: something is
true of the context and of what has happened so far, and stays true whatever the nets do.
`Invariant` lists what has to be shown for such a statement — that it survives the single
things that happen — and `Invariant.of_run` says that it then survives every program over the
nets.  The nets are gone through once, here (`Invariant.Keeps`), also for the nets that they call.

**What a resolver does meanwhile** (`outside`).  When a name is looked up by a `dns` net, its
resolver binds sockets of its own, in an empty context.  This is part of what happens, but it
belongs to no connection: an invariant speaks of what happens outside of such lookups.

**Calls return** (`net_calls_return`).  A net may make any number of calls: `resolve` tries address
after address, `socks5` looks its server up, connects and binds.  But it only calls the nets that
its configuration refers to (`Kind.socket_onlyCalls`), so the depth of nested calls is bounded in
every table without a cycle, and these are the tables that harmless updates leave.
-/

namespace RabbitDigger.Nets

open Procedure

variable {deps : MatcherDeps}

/-! ## The nets -/

/-- `RunningNet`s with their names and the nets they hold. -/
def runningNets (crates : Crates) (name : ℕ → String) (kind : ℕ → Kind deps) (x : ℕ) :
    RunningNet deps :=
  ⟨name x, (kind x).build crates⟩

/-- The names of the nets of a running config. -/
def nameOf (running : List Build.Built) (x : ℕ) : String := (running[x]?).elim "" Build.Built.name

/-- The nets of a running config, which have been built from configurations. -/
def kindOf (kind : Build.Built → Kind deps) (running : List Build.Built) (x : ℕ) : Kind deps :=
  (running[x]?).elim .noop kind

/-- The rule that is chosen is one of the rules. -/
theorem target_mem_of_scanRules {rules : List (RuleItem deps ℕ)} {ctx : Context} {addr : Address}
    {rule : RuleItem deps ℕ} (h : scanRules rules ctx addr = .ok rule) :
    rule.target ∈ rules.map RuleItem.target := by
  unfold scanRules at h
  split at h
  · cases h
  · split at h
    · rename_i found hfound
      cases h
      exact List.mem_map_of_mem (List.mem_of_find?_eq_some hfound)
    · cases h

/-- The nets that sockets are made through are nets that are referred to. -/
theorem Kind.mem_refs_of_mem_socketRefs {kind : Kind deps} {x : ℕ} (h : x ∈ kind.socketRefs) :
    x ∈ kind.refs := by
  cases kind <;> simp_all [refs, socketRefs]
  tauto

/-! ## The sockets of resolvers -/

/-- How many lookups of `dns` nets are under way after something has happened. -/
def underWay (n : ℕ) : Event (netSig deps) → ℕ
  | .performed (Op.resolverBinds _) _ => n + 1
  | .performed (Op.lookupIp _) _ => n - 1
  | _ => n

/-- How many are under way after a trace. -/
def lookups (n : ℕ) (trace : Trace (netSig deps)) : ℕ := trace.foldl underWay n

/-- What has happened outside of these lookups. -/
def outside : ℕ → Trace (netSig deps) → Trace (netSig deps)
  | _, [] => []
  | n, event :: trace =>
      (if n = 0 ∧ underWay n event = 0 then [event] else []) ++ outside (underWay n event) trace

theorem lookups_append (n : ℕ) (trace more : Trace (netSig deps)) :
    lookups n (trace ++ more) = lookups (lookups n trace) more :=
  List.foldl_append

theorem outside_append (n : ℕ) (trace more : Trace (netSig deps)) :
    outside n (trace ++ more) = outside n trace ++ outside (lookups n trace) more := by
  induction trace generalizing n with
  | nil => rfl
  | cons event trace ih =>
      rw [List.cons_append, outside, outside, ih, List.append_assoc]
      rfl

/-- Every lookup that has begun has ended. -/
structure Balanced (trace : Trace (netSig deps)) : Prop where
  ended : ∀ n, lookups n trace = n
  inside : ∀ n, outside (n + 1) trace = []

/-- Something that does not belong to a lookup. -/
def Plain (event : Event (netSig deps)) : Prop := ∀ n, underWay n event = n

section Balanced

variable {trace more : Trace (netSig deps)} {event : Event (netSig deps)}

theorem balanced_nil : Balanced ([] : Trace (netSig deps)) := ⟨fun _ => rfl, fun _ => rfl⟩

theorem Balanced.append (h : Balanced trace) (hmore : Balanced more) :
    Balanced (trace ++ more) where
  ended n := by rw [lookups_append, h.ended, hmore.ended]
  inside n := by rw [outside_append, h.inside, h.ended, hmore.inside, List.append_nil]

theorem Plain.balanced (h : Plain event) : Balanced [event] where
  ended := h
  inside n := by simp [outside]

theorem Balanced.outside_append (h : Balanced trace) (more : Trace (netSig deps)) :
    outside 0 (trace ++ more) = outside 0 trace ++ outside 0 more := by
  rw [Nets.outside_append, h.ended]

theorem Plain.outside (h : Plain event) : outside 0 [event] = [event] := by
  simp [Nets.outside, h 0]

/-- What a resolver does, from the beginning of the lookup to its end. -/
theorem Balanced.lookup (h : Balanced trace) (host : String) (addrs : List SocketAddr)
    (answer : IoResult (List IpAddr)) :
    Balanced (.performed (Op.resolverBinds host) addrs
        :: (trace ++ [.performed (Op.lookupIp host) answer])) ∧
      outside 0 (.performed (Op.resolverBinds host) addrs
        :: (trace ++ [.performed (Op.lookupIp host) answer])) = [] := by
  have hlookups : ∀ n, lookups (n + 1)
      (trace ++ [(.performed (Op.lookupIp host) answer : Event (netSig deps))]) = n := by
    intro n
    rw [lookups_append, h.ended]
    rfl
  have hinside : ∀ n, outside (n + 1)
      (trace ++ [(.performed (Op.lookupIp host) answer : Event (netSig deps))]) = [] := by
    intro n
    rw [Nets.outside_append, h.inside, h.ended]
    simp [outside]
  refine ⟨⟨hlookups, fun n => ?_⟩, ?_⟩
  · rw [outside, if_neg (by simp)]
    exact hinside (n + 1)
  · rw [outside, if_neg (by simp [underWay])]
    exact hinside 0

end Balanced

/-! ## Invariants of calls -/

/-- What an operation tells the other side: the addresses that a proxy is asked for, and the host
that is named to a TLS server, are addresses and hosts that may be told. -/
def Op.Tells (text : StdText) (allowed : Address → Prop) (sni : String → Prop) : Op deps → Prop
  | .sendCommand _ command => allowed (sa2ra command.address)
  | .httpConnect _ uri => ∃ addr, allowed addr ∧ uri = addr.display text
  | .tlsConnect _ host => sni host ∨ ∃ addr, allowed addr ∧ host = addr.host text
  | _ => True

/-- **A statement about the current context and what has happened so far**, outside of the lookups
of `dns` nets, that the single things that happen keep true, as long as connections are only made
to `Allowed` addresses. -/
structure Invariant (deps : MatcherDeps) (text : StdText) (name : ℕ → String) where
  Holds : Context → Trace (netSig deps) → Prop
  Allowed : Address → Prop
  Sni : String → Prop
  socket : ∀ {ctx past}, Holds ctx past → ∀ x method addr, Allowed addr →
    Holds (ctx.appendNet (name x)) (past ++ [.called (Call.socket x method ctx addr)])
  lookup : ∀ {ctx past}, Holds ctx past → ∀ x addr,
    Holds ctx (past ++ [.called (Call.lookupHost x addr)])
  perform : ∀ {ctx past}, Holds ctx past → ∀ (op : Op deps) answer, op.Tells text Allowed Sni →
    Holds ctx (past ++ [.performed op answer])

namespace Invariant

variable {text : StdText} {name : ℕ → String} (inv : Invariant deps text name)
  (good looked : ℕ → Prop)

/-- What is asked of a net beyond the invariant: the addresses and hosts that its configuration
gives may be told, and so may what it turns the destination into. -/
def Respects : Kind deps → Prop
  | .resolve _ _ _ _ => ∀ s, inv.Allowed (.socketAddr s)
  | .dnsSniffer _ _ => (∀ name port, inv.Allowed (.domain name port)) ∧
      ∀ ctx past rl ip name port,
        inv.Holds ctx (past ++ [.performed (Op.reverseLookup rl ip) (some name)]) →
        inv.Holds (DNSSnifferNet.recovered text ctx name port)
          (past ++ [.performed (Op.reverseLookup rl ip) (some name)])
  | .socks5 _ server => inv.Allowed server ∧ ∀ s, inv.Allowed (.socketAddr s)
  | .http _ server => inv.Allowed server
  | .tls _ sni => ∀ host, sni = some host → inv.Sni host
  | _ => True

/-- A net respects an invariant for which everything may be told, a sniffer if also the domains
that it recovers keep it. -/
theorem respects_of_trivial {inv : Invariant deps text name} {kind : Kind deps}
    (hallowed : ∀ addr, inv.Allowed addr) (hsni : ∀ host, inv.Sni host)
    (hsniffer : ∀ net rl, kind = .dnsSniffer net rl → ∀ ctx past rl ip name port,
      inv.Holds ctx (past ++ [.performed (Op.reverseLookup rl ip) (some name)]) →
      inv.Holds (DNSSnifferNet.recovered text ctx name port)
        (past ++ [.performed (Op.reverseLookup rl ip) (some name)])) : inv.Respects kind := by
  cases kind with
  | resolve net resolveNet ipv4 ipv6 => exact fun s => hallowed _
  | dnsSniffer net rl => exact ⟨fun _ _ => hallowed _, hsniffer net rl rfl⟩
  | socks5 net server => exact ⟨hallowed _, fun _ => hallowed _⟩
  | http net server => exact hallowed _
  | tls net sni => exact fun host _ => hsni host
  | _ => trivial

/-- The invariant, after a trace in which all lookups have ended. -/
structure At (ctx : Context) (past : Trace (netSig deps)) : Prop where
  balanced : Balanced past
  holds : inv.Holds ctx (outside 0 past)

/-- The calls keep the invariant: calls for sockets if they go to good nets and allowed addresses,
lookups in any case.  All of them end the lookups that they begin. -/
def spec : Spec (netSig deps) := fun c : Call => match c with
  | .socket x method ctx addr => fun r trace => Balanced trace ∧
      (good x → inv.Allowed addr → ∀ past, inv.At ctx past →
        inv.At r.1 (past ++ .called (Call.socket x method ctx addr) :: trace))
  | .lookupHost x addr => fun _ trace => Balanced trace ∧ ∀ ctx past,
      inv.At ctx past → inv.At ctx (past ++ .called (Call.lookupHost x addr) :: trace)

/-- A program that is given a context and hands it back calls only certain nets and keeps the
invariant. -/
def Keeps {α : Type} (p : NetProg deps (Context × α)) (ctx : Context) : Prop :=
  p.OnlyCalls (fun c : Call => looked c.net) ∧ ∀ past, inv.At ctx past →
    p.Meets (inv.spec good) past fun r trace => inv.At r.1 trace

/-- A program without a context does so for every context. -/
def Passes {α : Type} (p : NetProg deps α) : Prop :=
  p.OnlyCalls (fun c : Call => looked c.net) ∧ ∀ ctx past, inv.At ctx past →
    p.Meets (inv.spec good) past fun _ trace => inv.At ctx trace

/-- The programs of a net do so. -/
structure NetKeeps (net : INet deps) : Prop where
  socket : ∀ method ctx addr, inv.Allowed addr →
    inv.Keeps good looked (net.socket method ctx addr) ctx
  lookupHost : ∀ addr, inv.Passes good looked (net.lookupHost addr)

variable {inv good looked}

/-- Something has happened that belongs to no lookup. -/
theorem At.snoc {ctx ctx' : Context} {past : Trace (netSig deps)} {event : Event (netSig deps)}
    (h : inv.At ctx past) (hplain : Plain event)
    (hholds : inv.Holds ctx' (outside 0 past ++ [event])) : inv.At ctx' (past ++ [event]) where
  balanced := h.balanced.append hplain.balanced
  holds := by rwa [h.balanced.outside_append, hplain.outside]

section Rules

variable {α β : Type} {ctx : Context}

theorem keeps_pure (a : α) : inv.Keeps good looked (pure (ctx, a)) ctx := ⟨trivial, fun _ h => h⟩

theorem keeps_abort : inv.Keeps good looked (.abort : NetProg deps (Context × α)) ctx :=
  ⟨trivial, fun _ _ => trivial⟩

theorem passes_pure (a : α) : inv.Passes good looked (pure a) :=
  ⟨trivial, fun _ _ h => h⟩

theorem Keeps.bind {p : NetProg deps (Context × α)} {f : Context × α → NetProg deps (Context × β)}
    (hp : inv.Keeps good looked p ctx) (hf : ∀ r, inv.Keeps good looked (f r) r.1) :
    inv.Keeps good looked (p >>= f) ctx :=
  ⟨hp.1.bind fun r => (hf r).1,
    fun past h => .bind ((hp.2 past h).mono fun r trace htrace => (hf r).2 trace htrace)⟩

/-- A part of a program that does not look at the context. -/
theorem Passes.bind_keeps {p : NetProg deps α} {f : α → NetProg deps (Context × β)}
    (hp : inv.Passes good looked p) (hf : ∀ a, inv.Keeps good looked (f a) ctx) :
    inv.Keeps good looked (p >>= f) ctx :=
  ⟨hp.1.bind fun a => (hf a).1,
    fun past h => .bind ((hp.2 ctx past h).mono fun a trace htrace => (hf a).2 trace htrace)⟩

theorem Passes.bind {p : NetProg deps α} {f : α → NetProg deps β}
    (hp : inv.Passes good looked p) (hf : ∀ a, inv.Passes good looked (f a)) :
    inv.Passes good looked (p >>= f) :=
  ⟨hp.1.bind fun a => (hf a).1, fun ctx past h =>
    .bind ((hp.2 ctx past h).mono fun a trace htrace => (hf a).2 ctx trace htrace)⟩

/-- An operation that may be told. -/
theorem passes_perform (op : Op deps) (hplain : ∀ answer, Plain (.performed op answer))
    (htells : op.Tells text inv.Allowed inv.Sni) :
    inv.Passes good looked (Prog.perform op .done : NetProg deps ((netSig deps).Answer op)) :=
  ⟨fun _ => trivial, fun _ _ h answer =>
    h.snoc (hplain answer) (inv.perform h.holds op answer htells)⟩

theorem passes_resolve (addr : Address)
    {f : String → UInt16 → NetProg deps (Except NetError (List SocketAddr))}
    (hf : ∀ domain port, inv.Passes good looked (f domain port)) :
    inv.Passes good looked (resolve addr f) := by
  unfold resolve
  split
  · exact passes_pure _
  · exact hf _ _

theorem keeps_tryEach
    {attempt : Context → SocketAddr → NetProg deps (Context × Except NetError (Socket deps))}
    (h : ∀ ctx addr, inv.Keeps good looked (attempt ctx addr) ctx) (noAddress : NetError)
    (addrs : List SocketAddr) (lastErr : Option NetError) (ctx : Context) :
    inv.Keeps good looked (tryEach attempt noAddress lastErr addrs ctx) ctx := by
  induction addrs generalizing lastErr ctx with
  | nil => exact keeps_pure _
  | cons addr addrs ih =>
      refine (h ctx addr).bind ?_
      rintro ⟨ctx', e | socket⟩
      · exact ih (some e) ctx'
      · exact keeps_pure _

end Rules

/-- Nothing is asked of what happens, except that lookups end. -/
def anything (deps : MatcherDeps) (text : StdText) (name : ℕ → String) :
    Invariant deps text name where
  Holds _ _ := True
  Allowed _ := True
  Sni _ := True
  socket _ _ _ _ _ := trivial
  lookup _ _ _ := trivial
  perform _ _ _ _ := trivial

theorem anything_respects (kind : Kind deps) : (anything deps text name).Respects kind :=
  respects_of_trivial (fun _ => trivial) (fun _ => trivial) fun _ _ _ _ _ _ _ _ _ _ => trivial

/-! ### The nets -/

section Nets

variable {net : INet deps}

/-- A lookup keeps the invariant also if it is made on a net that is not good. -/
theorem passes_asNet_lookupHost {x : ℕ} (hx : looked x) (addr : Address) :
    inv.Passes good looked ((RunningNet.asNet deps x).lookupHost addr) :=
  ⟨⟨hx, fun _ => trivial⟩, fun ctx past h _ _ hspec => hspec.2 ctx past h⟩

theorem netKeeps_asNet {x : ℕ} (hx : good x) (hlooked : looked x) :
    inv.NetKeeps good looked (RunningNet.asNet deps x) where
  socket _ _ _ haddr :=
    ⟨⟨hlooked, fun _ => trivial⟩, fun past h _ _ hspec => hspec.2 hx haddr past h⟩
  lookupHost := passes_asNet_lookupHost hlooked

/-- The resolver of `LocalNet` asks a `RunningNet` or the operating system. -/
theorem passes_localLookup {net : Option ℕ} (hnet : ∀ x ∈ net, looked x) (domain : String)
    (port : UInt16) :
    inv.Passes good looked
      (LocalNet.lookupHost (net.map (RunningNet.asNet deps)) domain port) := by
  cases net with
  | none =>
      exact (passes_perform (.lookupHost domain port) (fun _ _ => rfl) trivial).bind
        fun _ => passes_pure _
  | some x => exact (passes_asNet_lookupHost (hnet x rfl) _).bind fun _ => passes_pure _

theorem keeps_localBind {net : Option ℕ} (hnet : ∀ x ∈ net, looked x) (method : Method)
    (ctx : Context) (addr : Address) :
    inv.Keeps good looked (LocalNet.bind method (net.map (RunningNet.asNet deps)) ctx addr)
      ctx := by
  refine (passes_resolve addr (passes_localLookup hnet)).bind_keeps ?_
  rintro (e | addrs)
  · exact keeps_pure _
  · refine keeps_tryEach (fun ctx addr => ?_) _ addrs none ctx
    exact (passes_perform (.bindSingle method addr) (fun _ _ => rfl) trivial).bind_keeps
      fun _ => keeps_pure _

theorem netKeeps_local {net : Option ℕ} (hnet : ∀ x ∈ net, looked x) :
    inv.NetKeeps good looked (LocalNet.inet (net.map (RunningNet.asNet deps))) where
  socket method ctx addr _ := by
    cases method with
    | tcpConnect =>
        refine Passes.bind_keeps ?_ fun _ => keeps_pure _
        refine (passes_resolve addr (passes_localLookup hnet)).bind ?_
        rintro (e | addrs)
        · exact passes_pure _
        · dsimp only
          split
          · exact passes_pure _
          · exact (passes_perform (.race _) (fun _ _ => rfl) trivial).bind fun _ => passes_pure _
    | tcpBind => exact keeps_localBind hnet .tcpBind ctx addr
    | udpBind => exact keeps_localBind hnet .udpBind ctx addr
  lookupHost addr := passes_resolve addr (passes_localLookup hnet)

theorem keeps_resolve (hnet : inv.NetKeeps good looked net)
    (hallowed : ∀ s, inv.Allowed (.socketAddr s)) {resolveNet : ℕ} (hresolve : looked resolveNet)
    (ipv4 ipv6 : Bool) (method : Method) (ctx : Context) (addr : Address) :
    inv.Keeps good looked
      (ResolveNet.connect net (RunningNet.asNet deps resolveNet) ipv4 ipv6 method ctx addr)
      ctx := by
  refine (passes_resolve addr fun domain port => ?_).bind_keeps ?_
  · refine (passes_asNet_lookupHost hresolve _).bind ?_
    rintro (e | addrs) <;> exact passes_pure _
  · rintro (e | addrs)
    · exact keeps_pure _
    · exact keeps_tryEach (fun ctx addr => hnet.socket method ctx _ (hallowed addr)) _ addrs none
        ctx

theorem keeps_rule {rules : List (RuleItem deps ℕ)}
    (hrules : ∀ x ∈ rules.map RuleItem.target, inv.NetKeeps good looked (RunningNet.asNet deps x))
    (ctx : Context) {addr : Address} (haddr : inv.Allowed addr) :
    inv.Keeps good looked (RuleNet.tcpConnect rules ctx addr) ctx := by
  unfold RuleNet.tcpConnect
  split
  · exact keeps_pure _
  · rename_i rule hrule
    exact (hrules _ (target_mem_of_scanRules hrule)).socket _ _ _ haddr

theorem keeps_sniffer (hnet : inv.NetKeeps good looked net) {rl : ℕ}
    (hallowed : ∀ name port, inv.Allowed (.domain name port))
    (hrecovered : ∀ ctx past rl ip name port,
      inv.Holds ctx (past ++ [.performed (Op.reverseLookup rl ip) (some name)]) →
      inv.Holds (DNSSnifferNet.recovered text ctx name port)
        (past ++ [.performed (Op.reverseLookup rl ip) (some name)]))
    (ctx : Context) {addr : Address} (haddr : inv.Allowed addr) :
    inv.Keeps good looked (DNSSnifferNet.tcpConnect text net rl ctx addr) ctx := by
  cases addr with
  | domain name port => exact hnet.socket .tcpConnect ctx _ haddr
  | socketAddr sa =>
      -- the address is looked up, and the context changes only if there is a name for it
      refine ⟨fun answer => ?_, fun past h answer => ?_⟩
      · rcases answer with _ | name
        · exact (hnet.socket .tcpConnect ctx _ haddr).1
        · exact (hnet.socket .tcpConnect _ _ (hallowed name sa.port)).1
      · have hasked := inv.perform h.holds (Op.reverseLookup rl sa.ip) answer trivial
        rcases answer with _ | name
        · exact (hnet.socket .tcpConnect ctx _ haddr).2 _ (h.snoc (fun _ => rfl) hasked)
        · exact (hnet.socket .tcpConnect _ _ (hallowed name sa.port)).2 _
            (h.snoc (fun _ => rfl) (hrecovered ctx _ rl sa.ip name sa.port hasked))

theorem keeps_socks5Connect (hnet : inv.NetKeeps good looked net) {server : Address}
    (hserver : inv.Allowed server) (ctx : Context) {addr : Address} (haddr : inv.Allowed addr) :
    inv.Keeps good looked (Socks5Client.tcpConnect net server ctx addr) ctx := by
  refine (hnet.socket .tcpConnect ctx server hserver).bind ?_
  rintro ⟨ctx', e | socket⟩
  · exact keeps_pure _
  · refine (passes_perform (.sendCommand socket _) (fun _ _ => rfl) ?_).bind_keeps ?_
    · show inv.Allowed (sa2ra (ra2sa addr))
      rwa [sa2ra_ra2sa]
    · rintro (e | resp) <;> exact keeps_pure _

theorem keeps_socks5Bind (hnet : inv.NetKeeps good looked net)
    {toSocketAddr : SocksAddress → Except SocksError SocketAddr} {server : Address}
    (hallowed : ∀ s, inv.Allowed (.socketAddr s)) (ctx : Context) {addr : Address}
    (haddr : inv.Allowed addr) :
    inv.Keeps good looked (Socks5Client.udpBind toSocketAddr net server ctx addr) ctx := by
  refine (hnet.lookupHost server).bind_keeps ?_
  rintro (e | _ | ⟨serverAddr, _⟩)
  · exact keeps_pure _
  · exact keeps_pure _
  refine (hnet.socket .tcpConnect ctx _ (hallowed serverAddr)).bind ?_
  rintro ⟨ctx', e | socket⟩
  · exact keeps_pure _
  refine (passes_perform (.sendCommand socket _) (fun _ _ => rfl) ?_).bind_keeps ?_
  · show inv.Allowed (sa2ra (ra2sa addr))
    rwa [sa2ra_ra2sa]
  rintro (e | resp)
  · exact keeps_pure _
  have hany : inv.Allowed (.anyAddrPort serverAddr) := by
    cases serverAddr <;> exact hallowed _
  refine (hnet.socket .udpBind ctx' _ hany).bind ?_
  rintro ⟨ctx'', e | client⟩
  · exact keeps_pure _
  dsimp only
  split <;> exact keeps_pure _

theorem keeps_http (hnet : inv.NetKeeps good looked net) {isUri : String → Bool} {server : Address}
    (hserver : inv.Allowed server) (ctx : Context) {addr : Address} (haddr : inv.Allowed addr) :
    inv.Keeps good looked (HttpClient.tcpConnect text isUri net server ctx addr) ctx := by
  refine (hnet.socket .tcpConnect ctx server hserver).bind ?_
  rintro ⟨ctx', e | socket⟩
  · exact keeps_pure _
  refine (passes_perform (.httpHandshake socket) (fun _ _ => rfl) trivial).bind_keeps ?_
  rintro (e | ⟨⟩)
  · exact keeps_pure _
  dsimp only
  split
  · refine (passes_perform (.httpConnect socket _) (fun _ _ => rfl)
      ⟨addr, haddr, rfl⟩).bind_keeps ?_
    rintro (e | ⟨⟩) <;> exact keeps_pure _
  · exact keeps_abort

theorem keeps_tls (hnet : inv.NetKeeps good looked net) {sni : Option String}
    (hsni : ∀ host, sni = some host → inv.Sni host) (ctx : Context) {addr : Address}
    (haddr : inv.Allowed addr) :
    inv.Keeps good looked (TlsNet.tcpConnect text net sni ctx addr) ctx := by
  refine (hnet.socket .tcpConnect ctx addr haddr).bind ?_
  rintro ⟨ctx', e | stream⟩
  · exact keeps_pure _
  · refine (passes_perform (.tlsConnect stream _) (fun _ _ => rfl) ?_).bind_keeps ?_
    · cases sni with
      | none => exact .inr ⟨addr, haddr, rfl⟩
      | some host => exact .inl (hsni host rfl)
    · rintro (e | ⟨⟩) <;> exact keeps_pure _

/-- The sockets of a resolver, which nothing is asked of. -/
theorem passes_bindEach (hnet : (anything deps text name).NetKeeps (fun _ => True) looked net)
    (addrs : List SocketAddr) :
    (anything deps text name).Passes (fun _ => True) looked (DnsNet.bindEach net addrs) := by
  induction addrs with
  | nil => exact passes_pure _
  | cons addr addrs ih =>
      have hsocket := hnet.socket .udpBind Context.new (.socketAddr addr) trivial
      refine ⟨hsocket.1.bind fun _ => ih.1, fun ctx past h => .bind ?_⟩
      exact (hsocket.2 past ⟨h.balanced, trivial⟩).mono fun r trace htrace =>
        ih.2 ctx trace ⟨htrace.balanced, trivial⟩

theorem anything_spec {c : Call} {reply : (netSig deps).Reply c} {trace : Trace (netSig deps)}
    (h : inv.spec good c reply trace) :
    (anything deps text name).spec (fun _ => True) c reply trace := by
  cases c with
  | socket x method ctx addr =>
      exact ⟨h.1, fun _ _ past hpast =>
        ⟨hpast.balanced.append ((Plain.balanced fun _ => rfl).append h.1), trivial⟩⟩
  | lookupHost x addr =>
      exact ⟨h.1, fun _ past hpast =>
        ⟨hpast.balanced.append ((Plain.balanced fun _ => rfl).append h.1), trivial⟩⟩

/-- A lookup by a `dns` net keeps every invariant, whatever its resolver does. -/
theorem passes_dns (hnet : (anything deps text name).NetKeeps (fun _ => True) looked net)
    (addr : Address) : inv.Passes good looked (DnsNet.lookupHost net addr) := by
  refine passes_resolve addr fun host port => ⟨fun addrs => ?_, fun ctx past h addrs => ?_⟩
  · refine (passes_bindEach hnet addrs).1.bind fun _ => fun answer => ?_
    rcases answer with e | ips <;> trivial
  · have hbinds : (DnsNet.bindEach net addrs).Meets (inv.spec good) []
        fun _ trace => (anything deps text name).At ctx trace :=
      ((passes_bindEach hnet addrs).2 ctx [] ⟨balanced_nil, trivial⟩).of_spec
        fun _ _ _ => anything_spec
    have hafter := hbinds.after (past ++ [.performed (Op.resolverBinds host) addrs])
    rw [List.append_nil] at hafter
    refine Prog.Meets.bind (f := fun _ => lookupIp host >>= _) (hafter.mono ?_)
    rintro _ _ ⟨inner, rfl, hinner⟩ answer
    -- the lookup has ended, and outside of it nothing has happened
    obtain ⟨hbalanced, houtside⟩ := hinner.balanced.lookup host addrs answer
    have hat : inv.At ctx (past ++ [.performed (Op.resolverBinds host) addrs] ++ inner
        ++ [.performed (Op.lookupIp host) answer]) := by
      rw [List.append_assoc, List.append_assoc]
      refine ⟨h.balanced.append hbalanced, ?_⟩
      rw [h.balanced.outside_append, List.singleton_append, houtside, List.append_nil]
      exact h.holds
    rcases answer with e | ips <;> exact hat

/-- The net of a resolver. -/
theorem netKeeps_resolver {net : Option ℕ} (hnet : ∀ x ∈ net, looked x) :
    (anything deps text name).NetKeeps (fun _ => True) looked
      (net.elim (LocalNet.inet none) (RunningNet.asNet deps)) := by
  cases net with
  | none => exact netKeeps_local (nofun : ∀ x ∈ none, looked x)
  | some x => exact netKeeps_asNet trivial (hnet x rfl)

/-- Lookups keep every invariant: they only lead to lookups, and to sockets of resolvers. -/
theorem passes_build (crates : Crates) {kind : Kind deps} (hlooked : ∀ x ∈ kind.refs, looked x)
    (addr : Address) : inv.Passes good looked ((kind.build crates).lookupHost addr) := by
  cases kind with
  | dns net =>
      exact passes_dns (netKeeps_resolver fun x hx => hlooked x (Option.mem_toList.mpr hx)) addr
  | localNet lookupHost =>
      exact passes_resolve addr
        (passes_localLookup fun x hx => hlooked x (Option.mem_toList.mpr hx))
  | aliasNet net | resolve net _ _ _ | dnsSniffer net _ =>
      exact passes_asNet_lookupHost (hlooked net List.mem_cons_self) addr
  | combine _ _ _ lookupHost =>
      exact passes_asNet_lookupHost (hlooked lookupHost (by simp [Kind.refs])) addr
  | _ => exact passes_pure _

/-- **All nets keep an invariant that they respect**, and only call the nets they refer to. -/
theorem keeps_build {crates : Crates} {name : ℕ → String} {inv : Invariant deps crates.text name}
    {kind : Kind deps} (hrespects : inv.Respects kind) (hgood : ∀ x ∈ kind.socketRefs, good x)
    (hlooked : ∀ x ∈ kind.refs, looked x) (method : Method) (ctx : Context) {addr : Address}
    (haddr : inv.Allowed addr) :
    inv.Keeps good looked ((kind.build crates).socket method ctx addr) ctx := by
  have hnet : ∀ x ∈ kind.socketRefs, inv.NetKeeps good looked (RunningNet.asNet deps x) :=
    fun x hx => netKeeps_asNet (hgood x hx) (hlooked x (Kind.mem_refs_of_mem_socketRefs hx))
  cases kind with
  | noop | blackhole | dns net => exact keeps_pure _
  | localNet lookupHost =>
      exact (netKeeps_local fun x hx => hlooked x (Option.mem_toList.mpr hx)).socket method ctx addr
        haddr
  | aliasNet net => exact (hnet net List.mem_cons_self).socket method ctx addr haddr
  | combine tcpConnect tcpBind udpBind lookupHost =>
      cases method with
      | tcpConnect => exact (hnet tcpConnect (by simp [Kind.socketRefs])).socket _ ctx addr haddr
      | tcpBind => exact (hnet tcpBind (by simp [Kind.socketRefs])).socket _ ctx addr haddr
      | udpBind => exact (hnet udpBind (by simp [Kind.socketRefs])).socket _ ctx addr haddr
  | resolve net resolveNet ipv4 ipv6 =>
      have hnet := hnet net List.mem_cons_self
      have hresolve : looked resolveNet := hlooked resolveNet (by simp [Kind.refs])
      cases method with
      | tcpConnect | udpBind => exact keeps_resolve hnet hrespects hresolve _ _ _ ctx addr
      | tcpBind => exact hnet.socket .tcpBind ctx addr haddr
  | rule rules =>
      cases method with
      | tcpConnect => exact keeps_rule hnet ctx haddr
      | tcpBind | udpBind => exact keeps_pure _
  | dnsSniffer net rl =>
      have hnet := hnet net List.mem_cons_self
      cases method with
      | tcpConnect => exact keeps_sniffer hnet hrespects.1 hrespects.2 ctx haddr
      | tcpBind => exact hnet.socket .tcpBind ctx addr haddr
      | udpBind =>
          refine (hnet.socket .udpBind ctx addr haddr).bind ?_
          rintro ⟨ctx', e | udp⟩ <;> exact keeps_pure _
  | socks5 net server =>
      have hnet := hnet net List.mem_cons_self
      cases method with
      | tcpConnect => exact keeps_socks5Connect hnet hrespects.1 ctx haddr
      | tcpBind => exact keeps_pure _
      | udpBind => exact keeps_socks5Bind hnet hrespects.2 ctx haddr
  | http net server =>
      cases method with
      | tcpConnect => exact keeps_http (hnet net List.mem_cons_self) hrespects ctx haddr
      | tcpBind | udpBind => exact keeps_pure _
  | tls net sni =>
      cases method with
      | tcpConnect => exact keeps_tls (hnet net List.mem_cons_self) hrespects ctx haddr
      | tcpBind | udpBind => exact keeps_pure _

end Nets

section Run

variable {crates : Crates} {name : ℕ → String} {kind : ℕ → Kind deps}
  {inv : Invariant deps crates.text name} {good looked : ℕ → Prop}
  (hgood : ∀ x, good x → inv.Respects (kind x) ∧ ∀ y ∈ (kind x).socketRefs, good y)

include hgood

omit hgood in
/-- The lookups that a call leads to end if those of the calls it makes do. -/
theorem body_balanced (c : Call) :
    (RunningNet.body (runningNets crates name kind) c).Meets (inv.spec good) []
      fun _ trace => Balanced trace := by
  cases c with
  | socket x method ctx addr =>
      have hkeeps : (anything deps crates.text name).Keeps (fun _ => True) (fun _ => True)
          (((kind x).build crates).socket method (ctx.appendNet (name x)) addr) _ :=
        keeps_build (anything_respects _) (fun _ _ => trivial) (fun _ _ => trivial) method _ trivial
      exact ((hkeeps.2 [] ⟨balanced_nil, trivial⟩).of_spec fun _ _ _ => anything_spec).mono
        fun _ _ h => h.balanced
  | lookupHost x addr =>
      have hpasses : (anything deps crates.text name).Passes (fun _ => True) (fun _ => True)
          (((kind x).build crates).lookupHost addr) :=
        passes_build crates (fun _ _ => trivial) addr
      exact ((hpasses.2 .new [] ⟨balanced_nil, trivial⟩).of_spec fun _ _ _ => anything_spec).mono
        fun _ _ h => h.balanced

/-- A call keeps the invariant if the calls it leads to do. -/
theorem body_meets (c : Call) :
    (RunningNet.body (runningNets crates name kind) c).Meets (inv.spec good) []
      (inv.spec good c) := by
  cases c with
  | socket x method ctx addr =>
      refine (body_balanced _).and ?_
      refine .forall fun hx => .forall fun haddr => .forall fun past => .forall fun h => ?_
      have hcalled := h.snoc (fun _ => rfl) (inv.socket h.holds x method addr haddr)
      have hkeeps : inv.Keeps good (fun _ => True)
          (((kind x).build crates).socket method (ctx.appendNet (name x)) addr) _ :=
        keeps_build (hgood x hx).1 (hgood x hx).2 (fun _ _ => trivial) method _ haddr
      have hmeets := hkeeps.2 _ hcalled
      rw [← List.append_nil (past ++ _)] at hmeets
      refine hmeets.shift.mono fun r trace htrace => ?_
      rwa [List.append_assoc] at htrace
  | lookupHost x addr =>
      refine (body_balanced _).and ?_
      refine .forall fun ctx => .forall fun past => .forall fun h => ?_
      have hcalled := h.snoc (fun _ => rfl) (inv.lookup h.holds x addr)
      have hpasses : inv.Passes good (fun _ => True) (((kind x).build crates).lookupHost addr) :=
        passes_build crates (fun _ _ => trivial) addr
      have hmeets := hpasses.2 ctx _ hcalled
      rw [← List.append_nil (past ++ _)] at hmeets
      refine hmeets.shift.mono fun r trace htrace => ?_
      rwa [List.append_assoc] at htrace

/-- **Every program over the nets keeps the invariant.** -/
theorem of_run {α : Type} {p : NetProg deps (Context × α)} {ctx : Context}
    (hp : inv.Keeps good looked p ctx) (hctx : inv.Holds ctx []) {env : Env (netSig deps)}
    {depth : ℕ} {log events : Trace (netSig deps)} {r : Context × α}
    (hrun : p.run (serve (RunningNet.body (runningNets crates name kind)) env depth) env log
      = some (.returned r, log ++ events)) : inv.Holds r.1 (outside 0 events) := by
  rw [← List.append_nil log] at hrun
  obtain ⟨trace, htrace, hat⟩ := (hp.2 [] ⟨balanced_nil, hctx⟩).of_run
    (fun c log reply log' h => serve_meets (body_meets hgood) h) hrun
  rw [List.append_nil] at htrace
  cases List.append_cancel_left htrace
  exact hat.holds

end Run

end Invariant

/-! ## Calls return -/

/-- How the nets of a config are built, each of them with the references of its configuration, and
what surrounds them. -/
structure Setting (deps : MatcherDeps) where
  crates : Crates
  kind : Build.Built → Kind deps
  kind_refs : ∀ net, ∀ y ∈ (kind net).refs, y ∈ net.refs
  env : Env (netSig deps)

namespace Setting

variable (setting : Setting deps) (running : List Build.Built)

/-- The nets of a running config. -/
def nets : ℕ → RunningNet deps :=
  runningNets setting.crates (nameOf running) (kindOf setting.kind running)

/-- **A program over the nets ends** in a certain way once nested calls may be one deeper than there
are nets, and more depth changes nothing. -/
def Ends {α : Type} (p : NetProg deps α) (log : Trace (netSig deps)) (outcome : Outcome α)
    (events : Trace (netSig deps)) : Prop :=
  ∀ depth, running.length < depth →
    p.run (serve (RunningNet.body (setting.nets running)) setting.env depth) setting.env log
      = some (outcome, log ++ events)

variable {running}

/-- A program that returns has kept the invariants that the nets respect. -/
theorem Ends.holds {setting : Setting deps}
    {inv : Invariant deps setting.crates.text (nameOf running)} {good looked : ℕ → Prop}
    {α : Type} {p : NetProg deps (Context × α)} {ctx : Context} {r : Context × α}
    {log events : Trace (netSig deps)}
    (h : setting.Ends running p log (.returned r) events)
    (hgood : ∀ x, good x → inv.Respects (kindOf setting.kind running x) ∧
      ∀ y ∈ (kindOf setting.kind running x).socketRefs, good y)
    (hp : inv.Keeps good looked p ctx) (hctx : inv.Holds ctx []) :
    inv.Holds r.1 (outside 0 events) :=
  Invariant.of_run hgood hp hctx (h _ (Nat.lt_succ_self _))

end Setting

namespace Sample

/-- Addresses that are read and printed as numbers. -/
def matcherDeps : MatcherDeps := ⟨Numeric.std, Unit, fun _ _ => false, fun _ => .addressNotFound⟩

def crates : Crates where
  text := Numeric.text
  toSocketAddr
    | .socketAddr s => .ok s
    | .domain _ _ => .error (.other "no socket address")
  isUri _ := true

/-- Lookups find one address, for which a resolver binds one socket, and everything else
succeeds. -/
def env : Env (netSig matcherDeps) := fun _ op => match op with
  | .lookupHost _ port => .ok [.v4 0x01020304 port]
  | .resolverBinds _ => [.v4 0 0]
  | .lookupIp _ => .ok [.v4 0x01020304]
  | .race _ => .ok 0
  | .bindSingle _ _ => .ok 0
  | .reverseLookup _ _ => none
  | .sendCommand _ _ => .ok (.socketAddr (.v4 0 0))
  | .httpHandshake _ => .ok ()
  | .httpConnect _ _ => .ok ()
  | .tlsConnect _ _ => .ok ()

/-- A configuration that consists of references under the given keys. -/
def references (keys : List String) : Build.Builder where
  fromValue
    | .object fields => .ok ⟨.null, keys.filterMap fun key =>
        (fields.lookup key).map fun value => ⟨[key], value⟩⟩
    | _ => .error (.config "invalid type")
  toValue config := .ok (.object (config.refs.map fun ref => (ref.path.headD "", ref.represent)))
  build _ := .ok ()

/-- Nets of several types, with everything but the references left out of their configurations. -/
def registry : Build.Registry where
  net type :=
    if type ∈ ["noop", "blackhole", "local"] then some Build.emptyConfig
    else if type ∈ ["alias", "dns", "dns_sniffer"] then some (references ["net"])
    else if type = "resolve" then some (references ["net", "resolve_net"])
    else if type = "rule" then some (references ["target"])
    else none
  server := Build.stdRegistry.server

/-- The nets that are built from these configurations.  A rule looks at the domain. -/
def kind (net : Build.Built) : Kind matcherDeps :=
  match net.refs with
  | [] =>
      if net.cfg.type = "blackhole" then .blackhole
      else if net.cfg.type = "local" then .localNet none
      else .noop
  | [x] =>
      if net.cfg.type = "alias" then .aliasNet x
      else if net.cfg.type = "dns" then .dns (some x)
      else if net.cfg.type = "dns_sniffer" then .dnsSniffer x 0
      else if net.cfg.type = "rule" then .rule [⟨"net", x, .domain ⟨.suffix, [".org"]⟩⟩]
      else .noop
  | [x, y] => if net.cfg.type = "resolve" then .resolve x y true true else .noop
  | _ => .noop

def setting (env : Env (netSig matcherDeps)) : Setting matcherDeps where
  crates := crates
  kind := kind
  kind_refs net y hy := by
    rcases hrefs : net.refs with _ | ⟨x, _ | ⟨z, _ | ⟨w, rest⟩⟩⟩
    all_goals
      simp only [kind, hrefs] at hy
      repeat' split at hy
      all_goals simp_all [Kind.refs]
  env := env

/-- The config of an echo server with a given net, and of a `dns` net. -/
def config (proxy : Build.Entry) : Build.Config where
  net name :=
    if name = "proxy" then some proxy
    else if name = "names" then some ⟨"dns", .object [("net", .string "local")]⟩
    else none
  server := Build.aliasConfig.server

/-- A config is running. -/
structure Started (nets : List Build.Built) (running : Build.Running Build.Config) : Prop where
  reach : (Build.digger registry Build.Json.ideal).Reach
    (Build.Harmless registry Build.Json.ideal) (some running)
  nets : running.entities.running = nets

/-- A configuration with one reference, to a net that takes everything. -/
def refersTo (type key : String) : Build.Entry := ⟨type, .object [(key, .string "blackhole")]⟩

/-- The two nets. -/
def before (type key : String) : List Build.Built :=
  [⟨"blackhole", ⟨"blackhole", .null⟩, ⟨"blackhole", .null⟩, []⟩,
    ⟨"proxy", refersTo type key, refersTo type key, [0]⟩]

end Sample

end RabbitDigger.Nets
