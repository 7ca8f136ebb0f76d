import RabbitDigger.Util.ForwardOrder
import RabbitDigger.Util.LruCache

/-!
# The transparent proxy for UDP

`rd-std/src/transparent/tproxy.rs`: the `tproxy` server receives datagrams that were sent to any
address whatsoever, and forwards them with `forward_udp`.  A reply has to reach the client **as if
it came from the address that the client has sent to**, so it leaves through a socket of its own
that is bound to that foreign address.  `UdpSource` keeps these sockets in a cache.

Sockets that are bound to a reserved address (`is_reserved`) would get in the way of others that
want to use it.  They are removed from the cache when the reply has been sent, but while the socket
asks to wait, the reply stays with the forwarder and its socket in the cache.

The model is the forwarder of `Util.ForwardUdp` with this source in place of an arbitrary one; the
cache of the crate (`TimeCache`) and what smoltcp says of addresses (`Smoltcp`) are parameters.
`tproxy_transparent` says of every run: a datagram leaves from the address that the reply came from,
to the client whose connection has received it, in order and at most once; a reserved address is
never occupied except by the reply that is waiting; and no failure of such a socket ends the server.

`sent` is there for the statement only: nothing in the model depends on it.
-/

namespace RabbitDigger.TProxy

open Polling Transition ForwardUdp Util

/-! ## Reserved addresses -/

/-- What is asked of smoltcp. -/
structure Smoltcp where
  /-- `Ipv4Cidr::new(network, prefix_len).contains_addr(addr)`. -/
  v4Contains : (network : BitVec 32) → (prefixLen : ℕ) → (addr : BitVec 32) → Bool
  /-- `Ipv6Cidr::new(network, prefix_len).contains_addr(addr)`. -/
  v6Contains : (network : BitVec 128) → (prefixLen : ℕ) → (addr : BitVec 128) → Bool
  /-- `Ipv6Address::is_link_local`. -/
  isLinkLocal : BitVec 128 → Bool

/-- `is_reserved`. -/
def isReserved (smoltcp : Smoltcp) : IpAddr → Bool
  | .v4 a =>
      smoltcp.v4Contains 0x00000000 8 a || smoltcp.v4Contains 0x7f000000 8 a ||
      smoltcp.v4Contains 0x0a000000 8 a || smoltcp.v4Contains 0xa9fe0000 16 a ||
      smoltcp.v4Contains 0xc0a80000 16 a || smoltcp.v4Contains 0xac100000 12 a ||
      smoltcp.v4Contains 0xe0000000 4 a || smoltcp.v4Contains 0xf0000000 4 a
  | .v6 a =>
      smoltcp.v6Contains 1 128 a || smoltcp.v6Contains (0xfc00 <<< 112) 7 a ||
      smoltcp.isLinkLocal a

/-! ## The source -/

/-- `TransparentUdp`, as `bind_any` makes it. -/
structure TransparentUdp where
  bound : SocketAddr
  mark : Option UInt32
deriving DecidableEq

/-- The cache of `UdpSource`, with 30 seconds to live; times are in milliseconds. -/
abbrev SocketCache := TimeCache SocketAddr TransparentUdp 30000

/-- `UdpSource`, without the socket that it listens on. -/
structure UdpSource (crate : SocketCache) where
  mark : Option UInt32
  lru : LruCache crate

/-- What the sockets answer during a `poll_send`. -/
structure SendAnswers where
  /-- `TransparentUdp::bind_any`. -/
  bindAny : IoResult Unit
  /-- `TransparentUdp::poll_send_to`. -/
  pollSendTo : Poll (IoResult ℕ)

section Source

variable {crate : SocketCache} (smoltcp : Smoltcp)

namespace UdpSource

/-- `UdpSource::new`. -/
def new (now : ℕ) (mark : Option UInt32) : UdpSource crate := ⟨mark, .new now⟩

/-- The source with another cache. -/
def withCache (source : UdpSource crate) (cache : crate.Cache) : UdpSource crate :=
  { source with lru := { source.lru with cache := cache } }

/-- The rest of `poll_send`, once there is a socket.  Also given is the socket, if the datagram has
left through it. -/
def sendBy (answers : SendAnswers) (from' : SocketAddr) (udp : TransparentUdp)
    (source : UdpSource crate) :
    UdpSource crate × Option TransparentUdp × Poll (IoResult Unit) :=
  match answers.pollSendTo with
  | .pending => (source, none, .pending)
  | .ready result =>
      -- an error is only logged
      let left := if result.isOk then some udp else none
      let source :=
        if isReserved smoltcp from'.ip then
          source.withCache (crate.remove source.lru.cache from')
        else source
      (source, left, .ready (.ok ()))

/-- `poll_send` of a reply from this address; `none` if it panics. -/
def pollSend (now : ℕ) (answers : SendAnswers) (from' : SocketAddr) (source : UdpSource crate) :
    Option (UdpSource crate × Option TransparentUdp × Poll (IoResult Unit)) :=
  match crate.get now source.lru.cache from' with
  | (cache, some udp) => some (sendBy smoltcp answers from' udp (source.withCache cache))
  | (cache, none) =>
      match answers.bindAny with
      | .error _ => some (source.withCache cache, none, .ready (.ok ()))
      | .ok _ =>
          match crate.get now (crate.insert now cache from' ⟨from', source.mark⟩) from' with
          | (cache, some udp) => some (sendBy smoltcp answers from' udp (source.withCache cache))
          | (_, none) => none

end UdpSource

end Source

/-! ## The server -/

/-- `serve_udp`: the forwarder and its source, with a clock. -/
structure State (crate : SocketCache) where
  now : ℕ
  forward : ForwardUdp.State
  source : UdpSource crate
  /-- The replies that have left, and through which sockets. -/
  sent : List (TransparentUdp × Reply)

/-- What can happen. -/
inductive Event where
  | tick
  /-- `poll_recv`: what the listening socket answers, and whether the timer of the cache has
  fired. -/
  | recv (fired : ℕ → Bool) (answer : Poll (IoResult (Bytes × SocketAddr × SocketAddr)))
  /-- `poll_send`. -/
  | send (answers : SendAnswers)
  /-- Anything else that the forwarder and its connections do. -/
  | forward (event : ForwardUdp.Event)

/-- The event of the forwarder is one of its source. -/
def ofSource : ForwardUdp.Event → Bool
  | .recv _ _ _ | .recvError _ | .sendBack _ => true
  | _ => false

/-- The event of the forwarder that an answer of the listening socket is. -/
def received : IoResult (Bytes × SocketAddr × SocketAddr) → ForwardUdp.Event
  | .error e => .recvError e
  | .ok (data, from', to') => .recv from' to' data

section System

variable (crate : SocketCache) (smoltcp : Smoltcp) (channelSize : ℕ) (mark : Option UInt32)

/-- One step, with channels of this size. -/
def State.step (st : State crate) : Event → Option (State crate)
  | .tick => some { st with now := st.now + 1 }
  | .recv fired answer =>
      (st.source.lru.pollClearExpired st.now fired 2).bind fun lru =>
        let source := { st.source with lru := lru }
        match answer with
        | .pending => some { st with source := source }
        | .ready result =>
            (ForwardUdp.step channelSize st.forward (received result)).map fun forward =>
              { st with forward := forward, source := source }
  | .send answers =>
      st.forward.sendBuf.bind fun reply =>
        (st.source.pollSend smoltcp st.now answers reply.2.from').bind fun (source, left, answer) =>
          (ForwardUdp.step channelSize st.forward (.sendBack answer)).map fun forward =>
            { st with
              forward := forward
              source := source
              sent := st.sent ++ (left.map fun udp => (udp, reply)).toList }
  | .forward event =>
      if ofSource event then none
      else
        (ForwardUdp.step channelSize st.forward event).map fun forward =>
          { st with forward := forward }

/-- The server. -/
def system : System (State crate) Event where
  init := ⟨0, .new, .new 0 mark, []⟩
  step := State.step crate smoltcp channelSize

end System

/-! ## The sockets in the cache -/

section Sends

variable {crate : SocketCache} {smoltcp : Smoltcp}

/-- There is a socket for an address. -/
def UdpSource.Holds (source : UdpSource crate) (key : SocketAddr) (udp : TransparentUdp) : Prop :=
  ∃ used, crate.entry source.lru.cache key = some (udp, used)

/-- A socket for an address that was there before, or is new and bound to this one. -/
def Known (source : UdpSource crate) (from' key : SocketAddr) (udp : TransparentUdp) : Prop :=
  source.Holds key udp ∨ key = from' ∧ udp = ⟨from', source.mark⟩

variable (smoltcp) in
/-- What a `poll_send` of a reply from this address does. -/
structure Sends (from' : SocketAddr) (source source' : UdpSource crate)
    (left : Option TransparentUdp) (answer : Poll (IoResult Unit)) : Prop where
  mark : source'.mark = source.mark
  known : ∀ key udp, source'.Holds key udp → Known source from' key udp
  /-- The reply is done with, and then no socket for a reserved address is left. -/
  settled : answer = .pending ∨ answer = .ready (.ok ()) ∧
    (isReserved smoltcp from'.ip = true → ∀ udp, ¬ source'.Holds from' udp)
  /-- It has left through a socket that was in the cache for the address, or is new. -/
  leaves : ∀ udp, left = some udp → answer = .ready (.ok ()) ∧ Known source from' from' udp

variable {now : ℕ} {from' : SocketAddr} {source : UdpSource crate} {answers : SendAnswers}
  {cache : crate.Cache}

theorem known_get (now : ℕ)
    (h : ∀ key udp, (source.withCache cache).Holds key udp → Known source from' key udp)
    (key udp) (hholds : (source.withCache (crate.get now cache from').1).Holds key udp) :
    Known source from' key udp := by
  obtain ⟨used, hentry⟩ := hholds
  rcases crate.get_entry hentry with hold | ⟨-, hold⟩
  · exact h key udp ⟨used, hold⟩
  · exact h key udp hold

theorem known_insert (now : ℕ)
    (h : ∀ key udp, (source.withCache cache).Holds key udp → Known source from' key udp)
    (key udp) (hholds : (source.withCache
      (crate.insert now cache from' ⟨from', source.mark⟩)).Holds key udp) :
    Known source from' key udp := by
  obtain ⟨used, hentry⟩ := hholds
  rcases crate.insert_entry hentry with hold | ⟨hkey, hnew⟩
  · exact h key udp ⟨used, hold⟩
  · exact .inr ⟨hkey, congrArg Prod.fst hnew⟩

/-- Once there is a socket. -/
theorem sends_sendBy {udp : TransparentUdp}
    (hknown : ∀ key udp, (source.withCache cache).Holds key udp → Known source from' key udp)
    (hudp : Known source from' from' udp)
    {source' : UdpSource crate} {left : Option TransparentUdp} {answer : Poll (IoResult Unit)}
    (h : UdpSource.sendBy smoltcp answers from' udp (source.withCache cache)
      = (source', left, answer)) : Sends smoltcp from' source source' left answer := by
  unfold UdpSource.sendBy at h
  cases hsend : answers.pollSendTo with
  | pending =>
      rw [hsend] at h
      cases h
      exact ⟨rfl, hknown, .inl rfl, fun udp h => by cases h⟩
  | ready result =>
      rw [hsend] at h
      simp only [Prod.mk.injEq] at h
      obtain ⟨rfl, rfl, rfl⟩ := h
      have hleft : ∀ other, (if result.isOk then some udp else none) = some other →
          other = udp := by
        intro other hother
        split at hother
        · exact (Option.some.inj hother).symm
        · cases hother
      by_cases hreserved : isReserved smoltcp from'.ip = true
      · simp only [hreserved, if_true]
        refine ⟨rfl, ?_, .inr ⟨rfl, ?_⟩, fun other hother => ⟨rfl, hleft other hother ▸ hudp⟩⟩
        · rintro key udp ⟨used, hentry⟩
          exact hknown key udp ⟨used, (crate.remove_entry hentry).2⟩
        · rintro - udp ⟨used, hentry⟩
          exact (crate.remove_entry hentry).1 rfl
      · simp only [hreserved]
        exact ⟨rfl, hknown, .inr ⟨rfl, fun h => absurd h hreserved⟩,
          fun other hother => ⟨rfl, hleft other hother ▸ hudp⟩⟩

/-- **`poll_send` never panics**, and this is what it does. -/
theorem pollSend_sends (smoltcp : Smoltcp) (now : ℕ) (answers : SendAnswers) (from' : SocketAddr)
    (source : UdpSource crate) : ∃ source' left answer,
    source.pollSend smoltcp now answers from' = some (source', left, answer) ∧
      Sends smoltcp from' source source' left answer := by
  have hknown : ∀ key udp,
      (source.withCache (crate.get now source.lru.cache from').1).Holds key udp →
        Known source from' key udp := known_get now fun _ _ h => .inl h
  rcases hget : crate.get now source.lru.cache from' with ⟨cache, _ | udp⟩
  · rw [hget] at hknown
    cases hbind : answers.bindAny with
    | error e =>
        -- the reply is dropped
        refine ⟨source.withCache cache, none, .ready (.ok ()), ?_, rfl, hknown, .inr ⟨rfl, ?_⟩,
          fun udp h => by cases h⟩
        · simp only [UdpSource.pollSend, hget, hbind]
        · rintro - udp ⟨used, hentry⟩
          have hnone := crate.get_none (congrArg Prod.snd hget)
          rw [hget] at hnone
          cases hnone.symm.trans hentry
    | ok _ =>
        -- a new socket is put into the cache and found there
        have hnew := crate.get_insert now cache from' ⟨from', source.mark⟩
        have hinserted := known_get now (known_insert now hknown)
        rcases hagain : crate.get now (crate.insert now cache from' ⟨from', source.mark⟩) from'
          with ⟨cache', found⟩
        rw [hagain] at hnew hinserted
        cases hnew
        rcases hsend : UdpSource.sendBy smoltcp answers from' ⟨from', source.mark⟩
          (source.withCache cache') with ⟨source', left, answer⟩
        refine ⟨source', left, answer, ?_, sends_sendBy hinserted (.inr ⟨rfl, rfl⟩) hsend⟩
        simp only [UdpSource.pollSend, hget, hbind, hagain, hsend]
  · have hold : source.Holds from' udp := crate.get_some (congrArg Prod.snd hget)
    rw [hget] at hknown
    rcases hsend : UdpSource.sendBy smoltcp answers from' udp (source.withCache cache)
      with ⟨source', left, answer⟩
    refine ⟨source', left, answer, ?_, sends_sendBy hknown (.inl hold) hsend⟩
    simp only [UdpSource.pollSend, hget, hsend]

end Sends

/-! ## The forwarder between two offers -/

section Forward

variable {channelSize : ℕ} {st st' : ForwardUdp.State}

/-- What has been offered stays as it is. -/
structure Quiet (st st' : ForwardUdp.State) : Prop where
  log : st'.log = st.log
  sendBuf : st'.sendBuf = st.sendBuf

theorem quiet_recv {from' to' : SocketAddr} {data : Bytes}
    (h : ForwardUdp.step channelSize st (.recv from' to' data) = some st') : Quiet st st' := by
  obtain ⟨st₁, i, hget, hforward⟩ := recv_cases h
  have hquiet : Quiet st st₁ := by
    unfold ForwardUdp.State.get at hget
    split at hget
    · cases hget
      exact ⟨rfl, rfl⟩
    · split at hget
      · cases hget
        exact ⟨rfl, rfl⟩
      · cases hget
  obtain ⟨conn, _, ⟨_, rfl⟩ | ⟨conn', _, changes⟩⟩ := forward_cases hforward
  · exact ⟨hquiet.log, hquiet.sendBuf⟩
  · exact ⟨changes.log.trans hquiet.log, changes.sendBuf.trans hquiet.sendBuf⟩

/-- **Between two offers the forwarder takes one reply at most**, when it has none. -/
theorem quiet_or_takes {event : ForwardUdp.Event}
    (hevent : ∀ answer, event ≠ .sendBack answer)
    (h : ForwardUdp.step channelSize st event = some st') :
    Quiet st st' ∨ ∃ reply, st.sendBuf = none ∧ st'.log = st.log ++ [.take reply] := by
  cases event with
  | recv from' to' data => exact .inl (quiet_recv h)
  | sendBack answer => exact absurd rfl (hevent answer)
  | recvError e =>
      unfold ForwardUdp.step at h
      split at h
      · cases h
      · cases h
        exact .inl ⟨rfl, rfl⟩
  | takeBack =>
      unfold ForwardUdp.step ForwardUdp.State.takeBack at h
      split at h
      · cases h
      · dsimp only at h
        split at h
        · rename_i hnone _
          cases h
          exact .inr ⟨_, hnone, rfl⟩
        · cases h
  | evict i =>
      unfold ForwardUdp.step at h
      split at h
      · cases h
      · dsimp only at h
        split at h
        · cases h
          exact .inl ⟨rfl, rfl⟩
        · cases h
  | bind i answer =>
      unfold ForwardUdp.step ForwardUdp.State.bind at h
      simp only [ForwardUdp.Event.ofForwarder, Bool.false_eq_true, false_and, if_false] at h
      split at h
      · cases h
      · split at h
        · cases h
          exact .inl ⟨rfl, rfl⟩
        · cases h
  | relay i loop dir answers socket =>
      unfold ForwardUdp.step ForwardUdp.State.relay at h
      simp only [ForwardUdp.Event.ofForwarder, Bool.false_eq_true, false_and, if_false] at h
      split at h
      · cases h
      · split at h
        · obtain ⟨⟨⟨back, replies⟩, task⟩, -, heq⟩ := Option.map_eq_some_iff.mp h
          cases heq
          exact .inl ⟨rfl, rfl⟩
        · cases h
  | abort i =>
      unfold ForwardUdp.step ForwardUdp.State.abort at h
      simp only [ForwardUdp.Event.ofForwarder, Bool.false_eq_true, false_and, if_false] at h
      split at h
      · cases h
      · split at h
        · cases h
        · cases h
          exact .inl ⟨rfl, rfl⟩

/-- An offer is noted, and an accepted reply is done with. -/
theorem offers_reply {reply : Reply} {answer : Poll (IoResult Unit)}
    (hbuf : st.sendBuf = some reply)
    (hanswer : answer = .pending ∨ answer = .ready (.ok ()))
    (h : ForwardUdp.step channelSize st (.sendBack answer) = some st') :
    st'.log = st.log ++ [.send reply answer] ∧
      (answer = .pending ∧ st'.sendBuf = some reply ∧ st'.delivered = st.delivered ∨
        answer = .ready (.ok ()) ∧ st'.sendBuf = none ∧
          st'.delivered = st.delivered ++ [reply]) := by
  unfold ForwardUdp.step at h
  split at h
  · cases h
  · simp only [ForwardUdp.State.sendBack, hbuf] at h
    rcases hanswer with rfl | rfl
    · cases h
      refine ⟨rfl, .inl ⟨rfl, rfl, ?_⟩⟩
      simp [ForwardUdp.State.delivered, List.filterMap_append]
    · cases h
      refine ⟨rfl, .inr ⟨rfl, rfl, ?_⟩⟩
      simp [ForwardUdp.State.delivered, List.filterMap_append]

theorem delivered_of_quiet (h : Quiet st st' ∨ ∃ reply, st.sendBuf = none ∧
    st'.log = st.log ++ [.take reply]) : st'.delivered = st.delivered := by
  unfold ForwardUdp.State.delivered
  rcases h with h | ⟨reply, -, hlog⟩
  · rw [h.log]
  · rw [hlog, List.filterMap_append]
    simp

end Forward

/-! ## What holds in every state -/

/-- A reply has left from where it came from. -/
structure Leaves (mark : Option UInt32) (entry : TransparentUdp × Reply) : Prop where
  mark : entry.1.mark = mark
  bound : entry.1.bound = entry.2.2.from'

section Inv

variable {crate : SocketCache} (smoltcp : Smoltcp)

/-- The sockets in the cache are bound to their addresses.  One for a reserved address is there for
the reply that waits to be sent, and for no other. -/
structure Sockets (source : UdpSource crate) (sendBuf : Option Reply) : Prop where
  bound : ∀ key udp, source.Holds key udp → udp = ⟨key, source.mark⟩
  reserved : ∀ key udp, source.Holds key udp → isReserved smoltcp key.ip = true →
    ∃ reply, sendBuf = some reply ∧ key = reply.2.from'

/-- **The invariant of the server.** -/
structure Inv (mark : Option UInt32) (st : State crate) : Prop where
  forward : ForwardUdp.Inv st.forward
  marked : st.source.mark = mark
  sockets : Sockets smoltcp st.source st.forward.sendBuf
  leaves : ∀ entry ∈ st.sent, Leaves mark entry
  order : (st.sent.map Prod.snd).Sublist st.forward.delivered
  accepted : ∀ reply e, BackEvent.send reply (.ready (.error e)) ∉ st.forward.log

end Inv

section Step

variable {crate : SocketCache} {smoltcp : Smoltcp} {mark : Option UInt32} {channelSize : ℕ}
  {st : State crate}

theorem inv_init (mark : Option UInt32) :
    Inv smoltcp mark (system crate smoltcp channelSize mark).init where
  forward := inv_new
  marked := rfl
  sockets := by
    have hnone : ∀ key udp, ¬ (UdpSource.new 0 mark : UdpSource crate).Holds key udp := by
      rintro key udp ⟨used, hentry⟩
      cases (crate.new_entry key).symm.trans hentry
    exact ⟨fun key udp h => absurd h (hnone key udp), fun key udp h => absurd h (hnone key udp)⟩
  leaves entry hmem := absurd hmem List.not_mem_nil
  order := .slnil
  accepted reply e hmem := absurd hmem List.not_mem_nil

/-- Sockets are closed. -/
theorem Sockets.iter {source : UdpSource crate} {sendBuf : Option Reply}
    (h : Sockets smoltcp source sendBuf) (now sleep : ℕ) :
    Sockets smoltcp { source with lru := ⟨crate.iter now source.lru.cache, sleep⟩ } sendBuf where
  bound key udp := fun ⟨used, hentry⟩ => h.bound key udp ⟨used, (crate.iter_entry hentry).1⟩
  reserved key udp := fun ⟨used, hentry⟩ => h.reserved key udp ⟨used, (crate.iter_entry hentry).1⟩

/-- The forwarder does something else than to offer a reply. -/
theorem Inv.other (inv : Inv smoltcp mark st) {event : ForwardUdp.Event}
    {forward : ForwardUdp.State} (hevent : ∀ answer, event ≠ .sendBack answer)
    (h : ForwardUdp.step channelSize st.forward event = some forward) :
    Inv smoltcp mark { st with forward := forward } := by
  have hquiet := quiet_or_takes hevent h
  refine ⟨inv.forward.step h, inv.marked, ?_, inv.leaves, ?_, ?_⟩
  · refine ⟨inv.sockets.bound, fun key udp hholds hreserved => ?_⟩
    obtain ⟨reply, hbuf, hfrom⟩ := inv.sockets.reserved key udp hholds hreserved
    rcases hquiet with hquiet | ⟨_, hnone, -⟩
    · exact ⟨reply, hquiet.sendBuf.trans hbuf, hfrom⟩
    · rw [hnone] at hbuf
      cases hbuf
  · show (st.sent.map Prod.snd).Sublist forward.delivered
    rw [delivered_of_quiet hquiet]
    exact inv.order
  · intro reply e hmem
    rcases hquiet with hquiet | ⟨_, -, hlog⟩
    · rw [hquiet.log] at hmem
      exact inv.accepted reply e hmem
    · rw [hlog] at hmem
      rcases List.mem_append.mp hmem with hmem | hmem
      · exact inv.accepted reply e hmem
      · cases List.mem_singleton.mp hmem

/-- A socket for this reply that the cache had, or that is new, is one to leave through. -/
theorem Sockets.leaves {source : UdpSource crate} {reply : Reply}
    (h : Sockets smoltcp source (some reply)) {udp : TransparentUdp}
    (hudp : Known source reply.2.from' reply.2.from' udp) : Leaves source.mark (udp, reply) := by
  obtain rfl : udp = ⟨reply.2.from', source.mark⟩ := hudp.elim (h.bound _ udp) And.right
  exact ⟨rfl, rfl⟩

/-- The sockets after an offer. -/
theorem Sockets.sends {source source' : UdpSource crate} {reply : Reply}
    {left : Option TransparentUdp} {answer : Poll (IoResult Unit)} {sendBuf : Option Reply}
    (h : Sockets smoltcp source (some reply))
    (hsends : Sends smoltcp reply.2.from' source source' left answer)
    (hbuf : answer = .pending ∧ sendBuf = some reply ∨
      answer = .ready (.ok ()) ∧ sendBuf = none) : Sockets smoltcp source' sendBuf := by
  -- an entry for a reserved address is one for this reply
  have hfrom : ∀ key udp, source'.Holds key udp → isReserved smoltcp key.ip = true →
      key = reply.2.from' := by
    intro key udp hholds hreserved
    rcases hsends.known key udp hholds with hold | ⟨hkey, -⟩
    · obtain ⟨_, hsome, hkey⟩ := h.reserved key udp hold hreserved
      cases hsome
      exact hkey
    · exact hkey
  refine ⟨fun key udp hholds => ?_, fun key udp hholds hreserved => ?_⟩
  · rw [hsends.mark]
    rcases hsends.known key udp hholds with hold | ⟨rfl, hnew⟩
    · exact h.bound key udp hold
    · exact hnew
  · have hkey := hfrom key udp hholds hreserved
    rcases hbuf with ⟨-, hbuf⟩ | ⟨hready, -⟩
    · exact ⟨reply, hbuf, hkey⟩
    · -- the reply is done with, so its socket is gone
      rcases hsends.settled with hpending | ⟨-, hgone⟩
      · rw [hpending] at hready
        cases hready
      · exact absurd (hkey ▸ hholds) (hgone (hkey ▸ hreserved) udp)

/-- A reply is offered. -/
theorem Inv.send (inv : Inv smoltcp mark st) {reply : Reply}
    (hbuf : st.forward.sendBuf = some reply) {source : UdpSource crate}
    {left : Option TransparentUdp} {answer : Poll (IoResult Unit)}
    (hsends : Sends smoltcp reply.2.from' st.source source left answer)
    {forward : ForwardUdp.State}
    (h : ForwardUdp.step channelSize st.forward (.sendBack answer) = some forward) :
    Inv smoltcp mark { st with
      forward := forward
      source := source
      sent := st.sent ++ (left.map fun udp => (udp, reply)).toList } := by
  have hsockets := inv.sockets
  rw [hbuf] at hsockets
  have hanswer : answer = .pending ∨ answer = .ready (.ok ()) := hsends.settled.imp_right And.left
  obtain ⟨hlog, hoffer⟩ := offers_reply hbuf hanswer h
  refine ⟨inv.forward.step h, hsends.mark.trans inv.marked, hsockets.sends hsends ?_, ?_, ?_, ?_⟩
  · exact hoffer.imp (fun h => ⟨h.1, h.2.1⟩) fun h => ⟨h.1, h.2.1⟩
  · intro entry hmem
    rcases List.mem_append.mp hmem with hmem | hmem
    · exact inv.leaves entry hmem
    · obtain ⟨udp, hudp, rfl⟩ := Option.map_eq_some_iff.mp (Option.mem_toList.mp hmem)
      rw [← inv.marked]
      exact hsockets.leaves (hsends.leaves udp hudp).2
  · show (List.map Prod.snd (st.sent ++ _)).Sublist forward.delivered
    rw [List.map_append]
    cases hleft : left with
    | none =>
        rw [Option.map_none, Option.toList_none, List.map_nil, List.append_nil]
        rcases hoffer with ⟨-, -, hdelivered⟩ | ⟨-, -, hdelivered⟩
        · rw [hdelivered]
          exact inv.order
        · rw [hdelivered]
          exact inv.order.trans (List.sublist_append_left _ _)
    | some udp =>
        -- what has left was accepted
        rcases hoffer with ⟨hpending, -, -⟩ | ⟨-, -, hdelivered⟩
        · rw [hpending] at hsends
          cases (hsends.leaves udp hleft).1
        · rw [hdelivered]
          exact inv.order.append (.refl _)
  · intro other e hmem
    show False
    rw [show forward.log = _ from hlog] at hmem
    rcases List.mem_append.mp hmem with hmem | hmem
    · exact inv.accepted other e hmem
    · have heq := List.mem_singleton.mp hmem
      rcases hanswer with rfl | rfl
      · cases heq
      · cases heq

/-- **The step lemma of the server.** -/
theorem Inv.step (inv : Inv smoltcp mark st) {event : Event} {st' : State crate}
    (h : st.step crate smoltcp channelSize event = some st') : Inv smoltcp mark st' := by
  cases event with
  | tick =>
      cases h
      exact ⟨inv.forward, inv.marked, inv.sockets, inv.leaves, inv.order, inv.accepted⟩
  | recv fired answer =>
      simp only [State.step, LruCache.pollClearExpired_eq (show 0 < 30000 by decide),
        Option.bind_some] at h
      obtain ⟨lru, hlru⟩ : ∃ lru, (if fired (0 + 1) = true ∧ st.source.lru.sleep ≤ st.now then
          ⟨crate.iter st.now st.source.lru.cache, st.now + 30000⟩ else st.source.lru) = lru :=
        ⟨_, rfl⟩
      rw [hlru] at h
      have inv' : Inv smoltcp mark { st with source := { st.source with lru := lru } } := by
        refine ⟨inv.forward, inv.marked, ?_, inv.leaves, inv.order, inv.accepted⟩
        rw [← hlru]
        split
        · exact inv.sockets.iter st.now _
        · exact inv.sockets
      cases answer with
      | pending =>
          cases h
          exact inv'
      | ready result =>
          obtain ⟨forward, hforward, rfl⟩ := Option.map_eq_some_iff.mp h
          refine Inv.other inv' (fun answer heq => ?_) hforward
          cases result <;> cases heq
  | send answers =>
      obtain ⟨reply, hbuf, h⟩ := Option.bind_eq_some_iff.mp h
      obtain ⟨source, left, answer, hsend, hsends⟩ :=
        pollSend_sends smoltcp st.now answers reply.2.from' st.source
      rw [hsend, Option.bind_some] at h
      obtain ⟨forward, hforward, rfl⟩ := Option.map_eq_some_iff.mp h
      exact inv.send hbuf hsends hforward
  | forward event =>
      simp only [State.step] at h
      split at h
      · cases h
      · rename_i hevent
        obtain ⟨forward, hforward, rfl⟩ := Option.map_eq_some_iff.mp h
        refine inv.other (fun answer heq => ?_) hforward
        rw [heq] at hevent
        exact hevent rfl

end Step

/-! ## Replies reach the clients -/

/-- What a run of the server is like. -/
structure Transparent {crate : SocketCache} (smoltcp : Smoltcp) (mark : Option UInt32)
    (st : State crate) : Prop where
  /-- Every datagram has left from the address that the reply came from. -/
  leaves : ∀ entry ∈ st.sent, Leaves mark entry
  /-- The datagrams of a connection are replies that it has received, in order and each once, and
  went to the client of the connection. -/
  replies : ∀ (i : ℕ) (conn : UdpConnection), st.forward.connections[i]? = some conn →
    ((ofConnection i (st.sent.map Prod.snd)).map UdpPacket.received).Sublist
      (conn.task.received .recvFrom) ∧
    ∀ p ∈ ofConnection i (st.sent.map Prod.snd), p.to' = conn.back.to'
  /-- Every datagram is one of a connection. -/
  known : ∀ entry ∈ st.sent, entry.2.1 < st.forward.connections.length
  /-- A socket in the cache is bound to its address, and there is one for a reserved address only
  while its reply waits to be sent. -/
  bound : ∀ key udp, st.source.Holds key udp → udp = ⟨key, mark⟩
  reserved : ∀ key udp, st.source.Holds key udp → isReserved smoltcp key.ip = true →
    ∃ reply, st.forward.sendBuf = some reply ∧ key = reply.2.from'
  /-- The source accepts every reply, so no socket that a reply leaves through ends the server; and
  `poll_send` does not panic. -/
  accepted : ∀ reply e, BackEvent.send reply (.ready (.error e)) ∉ st.forward.log
  noPanic : ∀ now answers from', (st.source.pollSend smoltcp now answers from').isSome

/-- What was delivered for a connection. -/
theorem delivered_received {st : ForwardUdp.State} (inv : ForwardUdp.Inv st) {i : ℕ}
    {conn : UdpConnection} (hconn : st.connections[i]? = some conn) :
    (ofConnection i st.delivered).map UdpPacket.received <+: conn.task.received .recvFrom ∧
      ∀ p ∈ ofConnection i st.delivered, p.to' = conn.back.to' := by
  have hconnected := inv.connected i conn hconn
  have hdelivered : ofConnection i st.delivered <+: ofConnection i st.outgoing :=
    ofConnection_prefix inv.delivered_prefix
  obtain ⟨pending, houtgoing, hpending, -⟩ := hconnected.pushed
  refine ⟨(hdelivered.map _).trans ?_, fun p hp => hconnected.addressed p
    (hdelivered.subset hp)⟩
  rw [houtgoing, hconnected.running.balance]
  exact (List.prefix_append_right_inj _).mpr hpending

/-- **Replies reach the clients as if the proxy was not there**, in every run of the server. -/
theorem tproxy_transparent (crate : SocketCache) (smoltcp : Smoltcp) (channelSize : ℕ)
    (mark : Option UInt32) (st : State crate)
    (reach : (system crate smoltcp channelSize mark).Reachable st) :
    Transparent smoltcp mark st := by
  have inv : Inv smoltcp mark st :=
    System.Reachable.invariant (inv_init mark) (fun _ _ _ inv h => inv.step h) reach
  refine ⟨inv.leaves, fun i conn hconn => ?_, fun entry hmem => ?_, inv.marked ▸ inv.sockets.bound,
    inv.sockets.reserved, inv.accepted, fun now answers from' => ?_⟩
  · obtain ⟨hreceived, hto⟩ := delivered_received inv.forward hconn
    have hsub : (ofConnection i (st.sent.map Prod.snd)).Sublist
        (ofConnection i st.forward.delivered) := (inv.order.filter _).map _
    exact ⟨(hsub.map _).trans hreceived.sublist, fun p hp => hto p (hsub.subset hp)⟩
  · have hdelivered := inv.order.subset (List.mem_map_of_mem hmem)
    exact inv.forward.outgoing _ (inv.forward.delivered_prefix.subset hdelivered)
  · obtain ⟨source', left, answer, hsend, -⟩ := pollSend_sends smoltcp now answers from' st.source
    rw [hsend]
    rfl

/-- Blocks of addresses by their bits. -/
def blocks : Smoltcp where
  v4Contains network prefixLen addr := addr >>> (32 - prefixLen) == network >>> (32 - prefixLen)
  v6Contains network prefixLen addr := addr >>> (128 - prefixLen) == network >>> (128 - prefixLen)
  isLinkLocal addr := addr >>> 64 == 0xfe80000000000000

/-- A datagram to a reserved address, its answer, and a socket that has to be waited for. -/
def reservedReply : List Event :=
  [.recv (fun _ => false) (.ready (.ok ([1], .v4 1 5000, .v4 0x0a000001 53))),
    .forward (.bind 0 (.ok ())),
    .forward (.relay 0 .fill .sendTo readyAnswers acceptingSocket),
    .forward (.relay 0 .drain .sendTo readyAnswers acceptingSocket),
    .forward (.relay 0 .fill .recvFrom readyAnswers
      ⟨.pending, .ready (.ok ([9], .v4 0x0a000001 53))⟩),
    .forward (.relay 0 .drain .recvFrom readyAnswers acceptingSocket),
    .forward .takeBack, .send ⟨.ok (), .pending⟩, .tick, .send ⟨.ok (), .ready (.ok 1)⟩]

theorem tproxy_transparent_reservedReply :
    ∃ st, (system (TimeCache.unbounded _ _ _) blocks 128 none).Reachable st ∧
      Transparent blocks none st ∧
      st.sent = [(⟨.v4 0x0a000001 53, none⟩, 0, ⟨.v4 0x0a000001 53, .v4 1 5000, [9]⟩)] := by
  have hrun : ((system (TimeCache.unbounded _ _ _) blocks 128 none).run reservedReply).map
      (fun st => st.sent)
        = some [(⟨.v4 0x0a000001 53, none⟩, 0, ⟨.v4 0x0a000001 53, .v4 1 5000, [9]⟩)] := by
    decide +kernel
  obtain ⟨st, hst, hsent⟩ := Option.map_eq_some_iff.mp hrun
  have reach := System.reachable_of_run _ _ hst
  exact ⟨st, reach, tproxy_transparent _ blocks 128 none st reach, hsent⟩

end RabbitDigger.TProxy
