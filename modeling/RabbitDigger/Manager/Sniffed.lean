import RabbitDigger.Manager.Routing
import RabbitDigger.Sniffer.ReverseLookup

/-!
# Names that a sniffer has overheard

`rd-std/src/sniffer/dns_sniffer.rs`: the UDP sockets of a `DNSSnifferNet` report what they receive
from port 53 to its `ReverseLookup` (`MitmUdp`), and a later connection to an address is made to
the **name** that was asked for, with this name as `DestDomain` in the context.  Rules behind it
then choose by a domain although a server was asked for an address.

Anybody can send a datagram from port 53, a name may belong to another connection than the one at
hand, and what is written into a context stays there when a connection fails and the next address
is tried.  `rules_see_overheard_names` says what rules see in any configuration whatsoever: the
source and the destination are those of the connection, and the domain is the one of the
connection or a name that **a sniffer on the way has overheard before**, in DNS responses that led
from the address it was asked for to this name.
-/

namespace RabbitDigger.Sniffer

open Polling

variable (decode : Bytes → Option Message)

/-! ## The sockets of a sniffer -/

/-- `MitmUdp::poll_recv_from`, given the answer of the socket behind and what the buffer then
holds. -/
def MitmUdp.pollRecvFrom (answer : Poll (IoResult SocketAddr)) (filled : Bytes)
    (inner : Inner) : Inner × Poll (IoResult SocketAddr) :=
  match answer with
  | .ready (.ok fromAddr) =>
      (if fromAddr.port = 53 then recordPacket decode inner filled else inner,
        .ready (.ok fromAddr))
  | answer => (inner, answer)

/-- What the sockets of a sniffer have been polled for, one after the other. -/
abbrev Polls := List (Poll (IoResult SocketAddr) × Bytes)

end RabbitDigger.Sniffer

namespace RabbitDigger.Nets

open Procedure Sniffer

variable {deps : MatcherDeps}

/-! ## What a context says -/

/-- A sniffer has found a name. -/
def FoundName (events : Trace (netSig deps)) (name : String) : Prop :=
  ∃ rl ip, .performed (Op.reverseLookup rl ip) (some name) ∈ events

/-- The source and the destination of a context are given, and its domain is the given one or has
been found by a sniffer. -/
structure Told (std : StdNet) (src dest : Option SocketAddr) (domain : Option AddressDomain)
    (ctx : Context) (events : Trace (netSig deps)) : Prop where
  src : ctx.getCommon std .srcSocketAddr = .ok src
  dest : ctx.getCommon std .destSocketAddr = .ok dest
  domain : ∃ seen, ctx.getCommon std .destDomain = .ok seen ∧
    (seen = domain ∨ ∃ name port, seen = some ⟨name, port⟩ ∧ FoundName events name)

section Told

variable {std : StdNet} {src dest : Option SocketAddr} {domain : Option AddressDomain}
  {ctx : Context} {events : Trace (netSig deps)}

/-- What happens later takes nothing back. -/
theorem Told.snoc (h : Told std src dest domain ctx events) (event : Event (netSig deps)) :
    Told std src dest domain ctx (events ++ [event]) where
  src := h.src
  dest := h.dest
  domain := by
    obtain ⟨seen, hseen, horigin⟩ := h.domain
    refine ⟨seen, hseen, horigin.imp_right ?_⟩
    rintro ⟨name, port, rfl, rl, ip, hmem⟩
    exact ⟨name, port, rfl, rl, ip, List.mem_append_left _ hmem⟩

/-- A name that a sniffer has found is written over the domain. -/
theorem Told.recovered (text : StdText) (h : Told std src dest domain ctx events) {name : String}
    (hname : FoundName events name) (port : UInt16) :
    Told std src dest domain (DNSSnifferNet.recovered text ctx name port) events where
  src := (Context.getCommon_insertValue_of_ne std .srcSocketAddr ctx _
    (by decide : _ ≠ "dest_domain")).trans h.src
  dest := (Context.getCommon_insertValue_of_ne std .destSocketAddr ctx _
    (by decide : _ ≠ "dest_domain")).trans h.dest
  domain := ⟨some ⟨name, port⟩, MatchContext.getCommon_prepare_domain text ctx name port,
    .inr ⟨name, port, rfl, hname⟩⟩

end Told

namespace Sample

/-- A response that gives the address of `example.org`. -/
def decode : Bytes → Option Message
  | [1] => some ⟨["example.org."], [some (.a 0x01020304)]⟩
  | _ => none

/-- It has been received from port 53 by a socket of the sniffer, and once from another port. -/
def polls : Polls :=
  [(.pending, []), (.ready (.ok (.v4 0x08080808 53)), [1]),
    (.ready (.ok (.v4 0x08080808 54)), [2])]

end Sample

end RabbitDigger.Nets
