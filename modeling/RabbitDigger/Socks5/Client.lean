import RabbitDigger.Foundation.Polling
import RabbitDigger.Socks5.Common

/-!
# The UDP socket of the SOCKS5 client

`rd-std/src/socks5/client.rs`: `Socks5UdpSocket::poll_recv_from` takes datagrams
off the underlying socket until one comes from the server, and parses the buffer.

The surroundings are a list of **arrivals**, the answers of the underlying socket
in order; when they are used up the socket answers "not yet".  A run is a sequence
of polls, each on an empty buffer of its own capacity, and its result is the list
of what the polls return.

`serve` is what the socket is for: every poll takes *one* answer of the stream
from which the datagrams of other senders have been removed, so what they send
cannot matter.  The loop, however, goes round with the **same buffer**: a datagram
of another sender stays in front of the server's, and `parse_udp` sees both.
`recvRun_eq_serve` is the case in which this does not show.
-/

namespace RabbitDigger

open Polling

namespace Socks5Client

/-- An answer of the underlying socket: a datagram and its sender. -/
abbrev Arrival := Poll (IoResult (Bytes × SocketAddr))

variable (codec : AddressCodec) (std : StdNet) (server : SocketAddr)

/-! ## The socket -/

/-- The loop of `poll_recv_from`, with the arrivals it leaves behind. -/
def recvLoop : ReadBuf → List Arrival → (ReadBuf × List Arrival) × Poll (IoResult Unit)
  | buf, [] => ((buf, []), .pending)
  | buf, .pending :: rest => ((buf, rest), .pending)
  | buf, .ready (.error e) :: rest => ((buf, rest), .ready (.error e))
  | buf, .ready (.ok (datagram, addr)) :: rest =>
      if addr = server then ((buf.put datagram, rest), .ready (.ok ()))
      else recvLoop (buf.put datagram) rest

/-- `poll_recv_from`. -/
def pollRecvFrom (buf : ReadBuf) (arrivals : List Arrival) :
    (ReadBuf × List Arrival) × Poll (IoResult SocketAddr) :=
  match recvLoop server buf arrivals with
  | (x, .pending) => (x, .pending)
  | (x, .ready (.error e)) => (x, .ready (.error e))
  | ((buf, rest), .ready (.ok ())) =>
      match parseUdp codec buf with
      | (buf, .error e) => ((buf, rest), .ready (.error e))
      | (buf, .ok addr) => ((buf, rest), .ready (addr.toSocketAddr std))

/-- What the caller has once a poll is over: the filled part and the source. -/
def received (r : (ReadBuf × List Arrival) × Poll (IoResult SocketAddr)) : Arrival :=
  match r.2 with
  | .pending => .pending
  | .ready (.error e) => .ready (.error e)
  | .ready (.ok addr) => .ready (.ok (r.1.1.filled, addr))

/-- A sequence of polls, each on an empty buffer of the given capacity. -/
def recvRun : List ℕ → List Arrival → List Arrival
  | [], _ => []
  | capacity :: capacities, arrivals =>
      let r := pollRecvFrom codec std server (.new capacity) arrivals
      received r :: recvRun capacities r.1.2

/-! ## What the socket is for -/

/-- A datagram from anyone but the server. -/
def foreign : Arrival → Bool
  | .ready (.ok (_, addr)) => addr ≠ server
  | _ => false

/-- What a poll owes its caller for one answer of the underlying socket: the
payload and the source that `parse_udp` finds in that datagram alone. -/
def deliver (capacity : ℕ) : Arrival → Arrival
  | .pending => .pending
  | .ready (.error e) => .ready (.error e)
  | .ready (.ok (datagram, _)) =>
      match parseUdp codec ((ReadBuf.new capacity).put datagram) with
      | (_, .error e) => .ready (.error e)
      | (buf, .ok addr) =>
          .ready ((addr.toSocketAddr std).map fun source => (buf.filled, source))

/-- Every poll takes one answer, in order. -/
def serve : List ℕ → List Arrival → List Arrival
  | [], _ => []
  | _ :: capacities, [] => .pending :: serve capacities []
  | capacity :: capacities, arrival :: rest =>
      deliver codec std capacity arrival :: serve capacities rest

/-- The first answer that is not a datagram of another sender: the one that ends
the poll. -/
def next (arrivals : List Arrival) : Arrival :=
  (arrivals.dropWhile (foreign server)).headD .pending

/-- A poll that starts here ends with a datagram of the server. -/
def serverNext (arrivals : List Arrival) : Bool :=
  match next server arrivals with
  | .ready (.ok _) => true
  | _ => false

/-- No poll takes a non-empty datagram of another sender and then one of the
server. -/
def Clean : List Arrival → Prop
  | .ready (.ok (datagram, addr)) :: rest =>
      (addr ≠ server → serverNext server rest = true → datagram = []) ∧ Clean rest
  | _ :: rest => Clean rest
  | [] => True

/-! ## One poll -/

section Poll

variable {codec std server}
variable {arrivals rest : List Arrival} {datagram : Bytes} {addr : SocketAddr}

@[simp] theorem foreign_datagram :
    foreign server (.ready (.ok (datagram, addr))) = decide (addr ≠ server) := rfl

/-- The poll of a buffer skips a datagram of another sender, and keeps its
bytes. -/
theorem pollRecvFrom_foreign (h : addr ≠ server) (buf : ReadBuf) :
    pollRecvFrom codec std server buf (.ready (.ok (datagram, addr)) :: rest)
      = pollRecvFrom codec std server (buf.put datagram) rest := by
  unfold pollRecvFrom
  rw [recvLoop, if_neg h]

/-- Where a poll leaves the stream does not depend on the buffer. -/
theorem arrivals_pollRecvFrom (buf : ReadBuf) (arrivals : List Arrival) :
    (pollRecvFrom codec std server buf arrivals).1.2
      = (arrivals.dropWhile (foreign server)).tail := by
  have hparse : ∀ buf arrivals, (pollRecvFrom codec std server buf arrivals).1.2
      = (recvLoop server buf arrivals).1.2 := by
    intro buf arrivals
    unfold pollRecvFrom
    split
    · simp [*]
    · simp [*]
    · split <;> simp [*]
  rw [hparse]
  induction arrivals generalizing buf with
  | nil => rfl
  | cons arrival rest ih =>
      rcases arrival with (e | ⟨datagram, addr⟩) | _
      · rfl
      · by_cases h : addr = server
        · simp [recvLoop, h]
        · simp [recvLoop, h, ih]
      · rfl

/-- A poll that does not end with a datagram of the server returns the answer
that ends it, whatever is in the buffer. -/
theorem received_of_not_serverNext (capacity : ℕ) (buf : ReadBuf)
    (h : serverNext server arrivals = false) :
    received (pollRecvFrom codec std server buf arrivals)
      = deliver codec std capacity (next server arrivals) := by
  induction arrivals generalizing buf with
  | nil => rfl
  | cons arrival rest ih =>
      rcases arrival with (e | ⟨datagram, addr⟩) | _
      · rfl
      · by_cases haddr : addr = server
        · simp [serverNext, next, haddr] at h
        · have hnext : next server (.ready (.ok (datagram, addr)) :: rest)
              = next server rest := by
            simp [next, haddr]
          rw [pollRecvFrom_foreign haddr, hnext]
          refine ih (buf.put datagram) ?_
          rwa [serverNext, hnext] at h
      · rfl

/-- **The step lemma.**  From a clean stream a poll on an empty buffer returns
what it owes for the answer that ends it. -/
theorem received_of_clean (capacity : ℕ) (clean : Clean server arrivals) :
    received (pollRecvFrom codec std server (.new capacity) arrivals)
      = deliver codec std capacity (next server arrivals) := by
  induction arrivals with
  | nil => rfl
  | cons arrival rest ih =>
      rcases arrival with (e | ⟨datagram, addr⟩) | _
      · rfl
      · obtain ⟨hempty, clean⟩ := clean
        by_cases haddr : addr = server
        · have hnext : next server (.ready (.ok (datagram, addr)) :: rest)
              = .ready (.ok (datagram, addr)) := by
            simp [next, haddr]
          rw [hnext]
          unfold pollRecvFrom deliver
          rw [recvLoop, if_pos haddr]
          dsimp only
          rcases parseUdp codec ((ReadBuf.new capacity).put datagram)
            with ⟨buf, e | source⟩
          · rfl
          · cases hsource : source.toSocketAddr std with
            | error | ok => simp [received, hsource, Except.map]
        · have hnext : next server (.ready (.ok (datagram, addr)) :: rest)
              = next server rest := by
            simp [next, haddr]
          rw [pollRecvFrom_foreign haddr, hnext]
          cases hserver : serverNext server rest with
          | true =>
              rw [hempty haddr hserver, ReadBuf.put_nil]
              exact ih clean
          | false => exact received_of_not_serverNext capacity _ hserver
      · rfl

theorem Clean.drop (clean : Clean server arrivals) :
    Clean server (arrivals.dropWhile (foreign server)).tail := by
  induction arrivals with
  | nil => exact clean
  | cons arrival rest ih =>
      rcases arrival with (e | ⟨datagram, addr⟩) | _
      · exact clean
      · by_cases haddr : addr = server
        · simpa [haddr] using clean.2
        · simpa [haddr] using ih clean.2
      · exact clean

/-- Serving the stream without the datagrams of others begins with the answer
that ends the first poll. -/
theorem serve_filter (capacity : ℕ) (capacities : List ℕ) :
    serve codec std (capacity :: capacities) (arrivals.filter (! foreign server ·))
      = deliver codec std capacity (next server arrivals) ::
        serve codec std capacities
          ((arrivals.dropWhile (foreign server)).tail.filter (! foreign server ·)) := by
  induction arrivals with
  | nil => rfl
  | cons arrival rest ih =>
      cases h : foreign server arrival with
      | true => simpa [next, h] using ih
      | false => simp [next, h, serve]

end Poll

/-! ## All runs -/

/-- **Runs in which the bytes of others do not get in the way.**  If no poll takes
a non-empty datagram of another sender before the server's, then every poll
returns what `parse_udp` finds in one datagram of the server, in order of arrival,
and the results are those of any other such stream with the same datagrams of the
server: how many datagrams others send, what is in them and where they arrive does
not matter. -/
theorem recvRun_eq_serve (capacities : List ℕ) (arrivals : List Arrival)
    (clean : Clean server arrivals) :
    recvRun codec std server capacities arrivals
        = serve codec std capacities (arrivals.filter (! foreign server ·)) ∧
      ∀ others, Clean server others →
        others.filter (! foreign server ·) = arrivals.filter (! foreign server ·) →
        recvRun codec std server capacities others
          = recvRun codec std server capacities arrivals := by
  have hserve : ∀ arrivals, Clean server arrivals →
      recvRun codec std server capacities arrivals
        = serve codec std capacities (arrivals.filter (! foreign server ·)) := by
    induction capacities with
    | nil =>
        intro arrivals _
        rfl
    | cons capacity capacities ih =>
        intro arrivals clean
        rw [serve_filter, recvRun, received_of_clean capacity clean, arrivals_pollRecvFrom,
          ih _ clean.drop]
  refine ⟨hserve arrivals clean, fun others hothers hsame => ?_⟩
  rw [hserve others hothers, hserve arrivals clean, hsame]

/-- The IPv4 addresses of the protocol: type 1, four bytes, a port. -/
def ipv4Codec : AddressCodec where
  readFrom
    | 1 :: a :: b :: c :: d :: hi :: lo :: _ =>
        .ok (.socketAddr (.v4 (a.toBitVec ++ b.toBitVec ++ c.toBitVec ++ d.toBitVec)
          (hi.toUInt16 * 256 + lo.toUInt16)), 7)
    | _ => .error (.other "unsupported address")
  consumed_le := by
    intro bytes addr n h
    split at h
    · cases h
      simp
    · cases h

/-- A `std::net` that parses no text. -/
def noText : StdNet where
  parseIp _ := none
  parseSocketAddr _ := none

/-- A packet forged by someone else, followed by one of the server at `0.0.0.1`. -/
def forged : List Arrival :=
  [.ready (.ok ([0, 0, 0, 1, 6, 6, 6, 6, 0, 53, 9], .v4 2 1080)),
    .ready (.ok ([0, 0, 0, 1, 8, 8, 8, 8, 0, 53, 7], .v4 1 1080))]

/-- Anyone who can reach the socket can forge a packet: the header in front of the
buffer is theirs, and the server's datagram becomes part of the payload. -/
theorem forged_packet_delivered :
    recvRun ipv4Codec noText (.v4 1 1080) [64] forged
      = [.ready (.ok ([9, 0, 0, 0, 1, 8, 8, 8, 8, 0, 53, 7], .v4 0x06060606 53))] ∧
    serve ipv4Codec noText [64] (forged.filter (! foreign (.v4 1 1080) ·))
      = [.ready (.ok ([7], .v4 0x08080808 53))] ∧
    recvRun ipv4Codec noText (.v4 1 1080) [64] forged
      ≠ serve ipv4Codec noText [64] (forged.filter (! foreign (.v4 1 1080) ·)) :=
  ⟨by decide, by decide, by decide⟩

/-- A poll that skips an empty datagram, one that has to wait, and one that is
served. -/
theorem recvRun_eq_serve_empty_datagram :
    recvRun ipv4Codec noText (.v4 1 1080) [64, 64]
        [.ready (.ok ([6], .v4 2 1080)), .pending, .ready (.ok ([], .v4 2 1080)),
          .ready (.ok ([0, 0, 0, 1, 8, 8, 8, 8, 0, 53, 7], .v4 1 1080))]
      = [.pending, .ready (.ok ([7], .v4 0x08080808 53))] := by
  refine (recvRun_eq_serve ipv4Codec noText (.v4 1 1080) [64, 64] _ ?_).1.trans ?_
  · exact ⟨by decide, by decide, by decide, trivial⟩
  · decide

/-! ## Sending -/

/-- `Socks5UdpSocket` as far as it sends: the packed datagram, and the datagrams that the
underlying socket has accepted. -/
structure Socks5UdpSocket where
  serverAddr : SocketAddr
  sendBuf : Bytes
  outgoing : List (Bytes × SocketAddr)
deriving Repr, DecidableEq

/-- `poll_send_to`, for an answer of the underlying socket. -/
def Socks5UdpSocket.pollSendTo (writer : AddressWriter) (leftover : SocksAddress → Bytes)
    (answer : Poll (IoResult ℕ)) (data : Bytes) (target : Address) (s : Socks5UdpSocket) :
    Socks5UdpSocket × Poll (IoResult ℕ) :=
  match if s.sendBuf = [] then packInto writer leftover target data else (s.sendBuf, .ok ()) with
  | (buf, .error e) => ({ s with sendBuf := buf }, .ready (.error e))
  | (buf, .ok ()) =>
      match answer with
      | .pending => ({ s with sendBuf := buf }, .pending)
      | .ready (.error e) => ({ s with sendBuf := buf }, .ready (.error e))
      | .ready (.ok _) =>
          ({ s with
              sendBuf := []
              outgoing := s.outgoing ++ [(buf, s.serverAddr)] },
            .ready (.ok data.length))

end Socks5Client

end RabbitDigger
