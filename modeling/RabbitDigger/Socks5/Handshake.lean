import RabbitDigger.Foundation.Process
import RabbitDigger.Socks5.Common

/-!
# The SOCKS5 handshake

`Socks5Client::tcp_connect` (`rd-std/src/socks5/client.rs`) against
`Socks5Server::serve_connection` (`rd-std/src/socks5/server.rs`).  Both wrap their stream in a
`BufWriter` of 512 bytes, exchange versions, methods, a command and its reply, and then hand
the stream on: the client to its caller, the server to `connect_tcp`.

The messages belong to the `socks5-protocol` crate and are a parameter, `Protocol`.  What is
asked of them is that **reading a message consumes exactly what writing it has produced** and
returns it, as far as an address is carried at all, and that reading a reply other than success is
an error.

The two programs are processes of `Foundation.Process`.  This module says what they do on whole
inputs (`client_eval`, `server_eval`) and that they never wait with something in their buffers;
`Socks5.Connect` puts them together.
-/

namespace RabbitDigger.Socks5Handshake

open Polling Dialogue

/-! ## Messages -/

/-- `socks5_protocol::Version`. -/
inductive Version where
  | v5
deriving Repr, DecidableEq

/-- `socks5_protocol::AuthMethod`. -/
inductive AuthMethod where
  | noauth
  | gssapi
  | usernamePassword
  | noAcceptableMethod
deriving Repr, DecidableEq

/-- `socks5_protocol::AuthRequest`. -/
structure AuthRequest where
  methods : List AuthMethod
deriving Repr, DecidableEq

/-- `socks5_protocol::AuthResponse`. -/
structure AuthResponse where
  method : AuthMethod
deriving Repr, DecidableEq

/-- `socks5_protocol::Command`. -/
inductive Command where
  | connect
  | bind
  | udpAssociate
deriving Repr, DecidableEq

/-- `socks5_protocol::CommandRequest`. -/
structure CommandRequest where
  command : Command
  address : SocksAddress
deriving Repr, DecidableEq

/-- `socks5_protocol::CommandReply`. -/
inductive CommandReply where
  | succeeded
  | generalFailure
  | connectionNotAllowed
  | networkUnreachable
  | hostUnreachable
  | connectionRefused
  | ttlExpired
  | commandNotSupported
  | addressTypeNotSupported
deriving Repr, DecidableEq

/-- `socks5_protocol::CommandResponse`. -/
structure CommandResponse where
  reply : CommandReply
  address : SocksAddress
deriving Repr, DecidableEq

/-- `CommandResponse::success`. -/
def CommandResponse.success (address : SocksAddress) : CommandResponse := ⟨.succeeded, address⟩

/-- `CommandResponse::reply_error`, with the address `0.0.0.0:0`. -/
def CommandResponse.replyError (reply : CommandReply) : CommandResponse :=
  ⟨reply, .socketAddr (.v4 0 0)⟩

/-- How messages of a type are written and read. -/
structure Message (α : Type) where
  write : α → Bytes
  read : Reader UInt8 (Except SocksError α)

namespace Message

variable {α : Type}

/-- Reading the message consumes exactly what writing it has produced, and returns this. -/
def Reads (m : Message α) (value value' : α) : Prop :=
  ∀ rest, m.read.run (m.write value ++ rest) = some (.ok value', rest)

/-- Reading the message is an error, which may be found before its end. -/
def Refuses (m : Message α) (value : α) : Prop :=
  ∃ e left, ∀ rest, m.read.run (m.write value ++ rest) = some (.error e, left ++ rest)

end Message

/-- The crate `socks5-protocol`, as far as the two programs use it. -/
structure Protocol where
  version : Message Version
  authRequest : Message AuthRequest
  authResponse : Message AuthResponse
  commandRequest : Message CommandRequest
  commandResponse : Message CommandResponse
  /-- `AuthRequest::select_from`. -/
  selectFrom : AuthRequest → List AuthMethod → AuthMethod
  /-- The reply of `CommandResponse::error`. -/
  replyOf : Error → CommandReply
  version_reads : ∀ v, version.Reads v v
  authRequest_reads : ∀ v : AuthRequest, v.methods.length ≤ 255 → authRequest.Reads v v
  authResponse_reads : ∀ v, authResponse.Reads v v
  commandRequest_reads : ∀ v : CommandRequest, v.address.Fits →
    commandRequest.Reads v { v with address := v.address.carried }
  commandResponse_reads : ∀ v : CommandResponse, v.address.Fits → v.reply = .succeeded →
    commandResponse.Reads v { v with address := v.address.carried }
  commandResponse_refuses : ∀ v : CommandResponse, v.address.Fits → v.reply ≠ .succeeded →
    commandResponse.Refuses v
  selectFrom_noauth : selectFrom ⟨[.noauth]⟩ [.noauth] = .noauth
  replyOf_ne : ∀ e, replyOf e ≠ .succeeded

/-- `CommandResponse::error`. -/
def Protocol.error (proto : Protocol) (e : Error) : CommandResponse := .replyError (proto.replyOf e)

/-! ## The two programs -/

/-- A program that talks over a stream and may fail. -/
abbrev Talk (I : Interface) (ε α : Type) := ExceptT ε (Process UInt8 I) α

section Actions

variable {I : Interface} {ε α : Type}

/-- `message.write(&mut socket).await?`; a reliable stream takes what is written. -/
def write (m : Message α) (value : α) : Talk I ε Unit :=
  ExceptT.lift (.write (m.write value) (.done ()))

/-- `socket.flush().await?`. -/
def flush : Talk I ε Unit :=
  ExceptT.lift (.flush (.done ()))

/-- The error of `read_exact` at the end of a stream. -/
def earlyEof : SocksError := .io { kind := .unexpectedEof, message := "early eof" }

/-- `Message::read(&mut socket).await.map_err(f)?`. -/
def read (m : Message α) (f : SocksError → ε) : Talk I ε α :=
  ExceptT.mk (Process.read m.read >>= fun
    | some (.ok value) => .done (.ok value)
    | some (.error e) => .done (.error (f e))
    | none => .done (.error (f earlyEof)))

/-- A call on the surroundings. -/
def ask (call : I.Call) : Talk I ε (I.Answer call) :=
  ExceptT.lift (.ask call .done)

end Actions

/-- The client calls nothing but its stream. -/
def clientInterface : Interface where
  Call := Empty
  Answer := Empty.elim

/-- `send_command`. -/
def sendCommand (proto : Protocol) (commandReq : CommandRequest) :
    Talk clientInterface Error CommandResponse := do
  write proto.version .v5
  write proto.authRequest ⟨[.noauth]⟩
  flush
  let _ ← read proto.version mapErr
  let resp ← read proto.authResponse mapErr
  if resp.method ≠ .noauth then throw (.other "Auth failed")
  else
    write proto.commandRequest commandReq
    flush
    read proto.commandResponse mapErr

/-- `tcp_connect`, once its server has been dialed.  The stream is handed to the caller. -/
def tcpConnect (proto : Protocol) (addr : Address) : Talk clientInterface Error Unit := do
  let _resp ← sendCommand proto ⟨.connect, ra2sa addr⟩
  return ()

/-- What the server calls. -/
inductive ServerCall where
  /-- `socket.local_addr()`. -/
  | localAddr
  /-- `net.tcp_connect(ctx, &dst)`. -/
  | tcpConnect (dst : Address)
  /-- `out.local_addr()`. -/
  | outLocalAddr
  /-- `net.udp_bind(ctx, &dst)`. -/
  | udpBind (dst : Address)
  /-- `listen_net.udp_bind(ctx, &dst)`. -/
  | listenUdpBind (dst : Address)
  /-- `udp.local_addr()`. -/
  | udpLocalAddr
deriving Repr, DecidableEq

def serverInterface : Interface where
  Call := ServerCall
  Answer
    | .localAddr | .outLocalAddr | .udpLocalAddr => Except Error SocketAddr
    | .tcpConnect _ | .udpBind _ | .listenUdpBind _ => Except Error Unit

/-- `socket.local_addr()`. -/
def localAddr {ε : Type} : Talk serverInterface ε (Except Error SocketAddr) :=
  ask (I := serverInterface) ServerCall.localAddr

/-- `net.tcp_connect(ctx, &dst)`. -/
def netTcpConnect {ε : Type} (dst : Address) : Talk serverInterface ε (Except Error Unit) :=
  ask (I := serverInterface) (ServerCall.tcpConnect dst)

/-- `out.local_addr()`. -/
def outLocalAddr {ε : Type} : Talk serverInterface ε (Except Error SocketAddr) :=
  ask (I := serverInterface) ServerCall.outLocalAddr

/-- `net.udp_bind(ctx, &dst)`. -/
def netUdpBind {ε : Type} (dst : Address) : Talk serverInterface ε (Except Error Unit) :=
  ask (I := serverInterface) (ServerCall.udpBind dst)

/-- `listen_net.udp_bind(ctx, &dst)`. -/
def listenUdpBind {ε : Type} (dst : Address) : Talk serverInterface ε (Except Error Unit) :=
  ask (I := serverInterface) (ServerCall.listenUdpBind dst)

/-- `udp.local_addr()`. -/
def udpLocalAddr {ε : Type} : Talk serverInterface ε (Except Error SocketAddr) :=
  ask (I := serverInterface) ServerCall.udpLocalAddr

/-- The errors of `serve_connection`. -/
inductive ServeError where
  | error (e : Error)
  | context (text : String) (e : SocksError)
deriving Repr, DecidableEq

/-- How `serve_connection` goes on with the stream. -/
inductive Served where
  /-- `connect_tcp(out, socket)`. -/
  | relay
  /-- `connect_udp` with the stream kept open. -/
  | associate
  /-- It returns and drops the stream. -/
  | finished
deriving Repr, DecidableEq

/-- `handle_command_request`, with its errors as the caller wraps them. -/
def handleCommandRequest {ε : Type} (proto : Protocol) (context : SocksError → ε) :
    Talk serverInterface ε CommandRequest := do
  let version ← read proto.version context
  let authReq ← read proto.authRequest context
  let method := proto.selectFrom authReq [.noauth]
  write proto.version version
  write proto.authResponse ⟨method⟩
  flush
  read proto.commandRequest context

/-- A reply that ends the connection. -/
def respond (proto : Protocol) (response : CommandResponse) (end' : Served) :
    Talk serverInterface ServeError Served := do
  write proto.commandResponse response
  flush
  return end'

/-- `response_command_error`. -/
def responseCommandError (proto : Protocol) (e : Error) :
    Talk serverInterface ServeError Served :=
  respond proto (proto.error e) .finished

/-- `default_addr`. -/
def defaultAddr : SocketAddr := .v4 0 0

/-- The address in the reply to a `Connect`. -/
def boundAddr : Except Error SocketAddr → SocketAddr
  | .ok addr => addr
  | .error _ => defaultAddr

/-- `Command::Connect`. -/
def serveConnect (proto : Protocol) (address : SocksAddress) :
    Talk serverInterface ServeError Served := do
  match ← netTcpConnect (sa2ra address) with
  | .error e => responseCommandError proto e
  | .ok () =>
      let addr ← outLocalAddr
      respond proto (.success (.socketAddr (boundAddr addr))) .relay

/-- `Command::UdpAssociate`. -/
def serveAssociate (proto : Protocol) (bound addr : SocketAddr) :
    SocksAddress → Talk serverInterface ServeError Served
  | .socketAddr target => do
      match ← netUdpBind (Address.anyAddrPort target) with
      | .error e => responseCommandError proto e
      | .ok () =>
          match ← listenUdpBind (Address.anyAddrPort addr) with
          | .error e => throw (.error e)
          | .ok () =>
              match ← udpLocalAddr with
              | .error e => responseCommandError proto e
              | .ok udp =>
                  respond proto (.success (.socketAddr (.new bound.ip udp.port))) .associate
  | .domain _ _ => respond proto (.replyError .addressTypeNotSupported) .finished

/-- `serve_connection`, up to the relays. -/
def serveConnection (proto : Protocol) (addr : SocketAddr) :
    Talk serverInterface ServeError Served := do
  match ← localAddr with
  | .error e => throw (.error e)
  | .ok bound =>
      let cmdReq ← handleCommandRequest proto (.context "handle command request")
      match cmdReq.command with
      | .connect => serveConnect proto cmdReq.address
      | .udpAssociate => serveAssociate proto bound addr cmdReq.address
      | .bind => return .finished

/-! ## What the actions do on a whole input -/

section Rules

variable {I : Interface} {ε α γ : Type} {answers : (call : I.Call) → I.Answer call}
variable (input : Bytes) (ended : Bool)

theorem eval_write (m : Message α) (value : α) (f : Unit → Talk I ε γ) :
    (write m value >>= f).run.eval answers input ended =
      ((f ()).run.eval answers input ended).after (m.write value) [] := rfl

theorem eval_flush (f : Unit → Talk I ε γ) :
    (flush >>= f).run.eval answers input ended = (f ()).run.eval answers input ended := rfl

/-- A program whose stream has nothing more for it waits, or fails at the end. -/
def starved (g : SocksError → ε) (ended : Bool) : Eval UInt8 I (Except ε γ) :=
  if ended then ⟨[], [], some (.error (g earlyEof), [])⟩ else ⟨[], [], none⟩

/-- A message at the end of a program. -/
theorem eval_read (m : Message α) (g : SocksError → ε) :
    (read m g : Talk I ε α).run.eval answers input ended =
      match m.read.run input with
      | some (.ok value, rest) => ⟨[], [], some (.ok value, rest)⟩
      | some (.error e, rest) => ⟨[], [], some (.error (g e), rest)⟩
      | none => starved g ended := by
  show Process.eval answers (Process.read m.read >>= _) input ended = _
  rw [Process.eval_bind, Process.eval_read]
  rcases m.read.run input with _ | ⟨e | value, rest⟩
  · cases ended <;> rfl
  · rfl
  · rfl

/-- A message in a program. -/
theorem eval_read_bind (m : Message α) (g : SocksError → ε) (f : α → Talk I ε γ) :
    (read m g >>= f).run.eval answers input ended =
      match m.read.run input with
      | some (.ok value, rest) => (f value).run.eval answers rest ended
      | some (.error e, rest) => ⟨[], [], some (.error (g e), rest)⟩
      | none => starved g ended := by
  show Process.eval answers ((read m g).run >>= ExceptT.bindCont f) input ended = _
  rw [Process.eval_bind, eval_read]
  rcases m.read.run input with _ | ⟨e | value, rest⟩
  · cases ended <;> rfl
  · rfl
  · rfl

end Rules

/-- What follows a program that was evaluated before. -/
theorem eval_bind {I : Interface} {ε α γ : Type} {answers : (call : I.Call) → I.Answer call}
    (x : Talk I ε α) (f : α → Talk I ε γ) (input : Bytes) (ended : Bool) :
    (x >>= f).run.eval answers input ended =
      match (x.run.eval answers input ended).result with
      | some (.ok value, rest) =>
          ((f value).run.eval answers rest ended).after (x.run.eval answers input ended).written
            (x.run.eval answers input ended).asked
      | some (.error e, rest) =>
          ⟨(x.run.eval answers input ended).written, (x.run.eval answers input ended).asked,
            some (.error e, rest)⟩
      | none =>
          ⟨(x.run.eval answers input ended).written, (x.run.eval answers input ended).asked,
            none⟩ := by
  show Process.eval answers (x.run >>= ExceptT.bindCont f) input ended = _
  rw [Process.eval_bind]
  rcases (x.run.eval answers input ended).result with _ | ⟨e | value, rest⟩
  · rfl
  · simp [ExceptT.bindCont, Process.eval, Eval.after, pure]
  · rfl

/-! ## Parts of a message -/

/-- The input is a part of what is expected, or goes beyond it. -/
def Along (input expected : Bytes) : Prop :=
  input <+: expected ∨ expected <+: input

/-- Such an input contains the first of two expected parts, or something is missing in it. -/
theorem Along.cases_append {input first second : Bytes} (h : Along input (first ++ second)) :
    (∃ rest, input = first ++ rest ∧ Along rest second) ∨
      ∃ missing, missing ≠ [] ∧ input ++ missing = first := by
  have hboth : first <+: input ∨ input <+: first := by
    rcases h with hin | hout
    · exact (List.prefix_or_prefix_of_prefix hin (List.prefix_append _ _)).symm
    · exact .inl ((List.prefix_append _ _).trans hout)
  rcases hboth with ⟨rest, rfl⟩ | ⟨missing, rfl⟩
  · refine .inl ⟨rest, rfl, ?_⟩
    rcases h with hin | hout
    · exact .inl ((List.prefix_append_right_inj _).mp hin)
    · exact .inr ((List.prefix_append_right_inj _).mp hout)
  · cases missing with
    | nil =>
        refine .inl ⟨[], by simp, .inl List.nil_prefix⟩
    | cons b missing => exact .inr ⟨b :: missing, by simp, rfl⟩

namespace Message

variable {α : Type} {m : Message α} {value value' : α} {input missing : Bytes}

/-- A part of a message is not enough. -/
theorem Reads.run_of_missing (h : m.Reads value value') (hne : missing ≠ [])
    (hinput : input ++ missing = m.write value) : m.read.run input = none := by
  rcases hrun : m.read.run input with _ | ⟨x, rest⟩
  · rfl
  · have hfull := Reader.run_append hrun missing
    have hreads := h []
    rw [List.append_nil, ← hinput, hfull] at hreads
    simp only [Option.some.injEq, Prod.mk.injEq, List.append_eq_nil_iff] at hreads
    exact absurd hreads.2.2 hne

/-- A part of a message that is refused is not enough, or is refused. -/
theorem Refuses.run_of_missing (h : m.Refuses value) (hinput : input ++ missing = m.write value) :
    m.read.run input = none ∨ ∃ e left, m.read.run input = some (.error e, left) := by
  obtain ⟨e, left, hrefuses⟩ := h
  rcases hrun : m.read.run input with _ | ⟨x, rest⟩
  · exact .inl rfl
  · have hfull := Reader.run_append hrun missing
    have hreads := hrefuses []
    rw [List.append_nil, ← hinput, hfull] at hreads
    simp only [Option.some.injEq, Prod.mk.injEq] at hreads
    exact .inr ⟨e, rest, by rw [hreads.1]⟩

/-- Nothing is not enough, if there are two messages. -/
theorem Reads.run_nil (h : m.Reads value value) (h' : m.Reads value' value')
    (hne : value ≠ value') : m.read.run [] = none := by
  rcases hrun : m.read.run [] with _ | ⟨x, rest⟩
  · rfl
  · have hfull : ∀ v, m.Reads v v → x = .ok v := by
      intro v hreads
      have hone := Reader.run_append hrun (m.write v)
      have htwo := hreads []
      rw [List.append_nil] at htwo
      rw [List.nil_append, htwo] at hone
      simp only [Option.some.injEq, Prod.mk.injEq] at hone
      exact hone.1.symm
    have heq := (hfull value h).symm.trans (hfull value' h')
    cases heq
    exact absurd rfl hne

end Message

/-! ## The programs on whole inputs -/

/-- How the surroundings of the server answer. -/
abbrev Answers := (call : serverInterface.Call) → serverInterface.Answer call

section Programs

variable (proto : Protocol) (addr : Address)

/-- What the client says first. -/
def hello : Bytes := proto.version.write .v5 ++ proto.authRequest.write ⟨[.noauth]⟩

/-- What the server says first. -/
def welcome : Bytes := proto.version.write .v5 ++ proto.authResponse.write ⟨.noauth⟩

/-- What the client says then. -/
def request : Bytes := proto.commandRequest.write ⟨.connect, ra2sa addr⟩

/-- How the server's dial ends. -/
def dial (answers : Answers) : Except Error Unit := answers (ServerCall.tcpConnect addr.carried)

/-- The reply of the server. -/
def response (answers : Answers) : CommandResponse :=
  match dial addr answers with
  | .error e => proto.error e
  | .ok () => .success (.socketAddr (boundAddr (answers ServerCall.outLocalAddr)))

/-- What the server says then. -/
def reply (answers : Answers) : Bytes := proto.commandResponse.write (response proto addr answers)

theorem response_fits (answers : Answers) : (response proto addr answers).address.Fits := by
  unfold response
  split <;> trivial

theorem response_reply (answers : Answers) :
    (response proto addr answers).reply = .succeeded ↔ dial addr answers = .ok () := by
  unfold response
  split
  · rename_i e h
    rw [h]
    exact ⟨fun h => absurd h (proto.replyOf_ne e), fun h => by cases h⟩
  · rename_i h
    exact ⟨fun _ => h, fun _ => rfl⟩

/-- Nothing is kept of a stream whose program has failed. -/
def Fails {ε α : Type} (result : Option (Except ε α × Bytes)) : Prop :=
  ∀ value rest, result = some (value, rest) → value.isOk = false

/-- The client on a part of what the server says, or on more. -/
inductive ClientDoes (answers : Answers) (input : Bytes) (ended : Bool)
    (x : Eval UInt8 clientInterface (Except Error Unit)) : Prop where
  | early (missing : Bytes) (hne : missing ≠ []) (hinput : input ++ missing = welcome proto)
      (written : x.written = hello proto) (waits : ended = false → x.result = none)
      (fails : Fails x.result)
  | late (rest missing : Bytes) (hne : missing ≠ []) (hinput : input = welcome proto ++ rest)
      (hrest : rest ++ missing = reply proto addr answers)
      (written : x.written = hello proto ++ request proto addr)
      (waits : ended = false → x.result ≠ none → dial addr answers ≠ .ok () ∧ rest ≠ [])
      (fails : Fails x.result)
  | through (rest left : Bytes) (value : Except Error Unit)
      (hinput : input = welcome proto ++ reply proto addr answers ++ rest)
      (written : x.written = hello proto ++ request proto addr)
      (result : x.result = some (value, left ++ rest))
      (ok : value.isOk = true ↔ dial addr answers = .ok ())
      (left_nil : dial addr answers = .ok () → left = [])

variable {proto addr}

/-- `tcp_connect` is `send_command` with the reply forgotten. -/
theorem tcpConnect_eval {none' : (call : clientInterface.Call) → clientInterface.Answer call}
    (input : Bytes) (ended : Bool) {x : Eval UInt8 clientInterface (Except Error CommandResponse)}
    (h : (sendCommand proto ⟨.connect, ra2sa addr⟩).run.eval none' input ended = x) :
    (tcpConnect proto addr).run.eval none' input ended =
      ⟨x.written, x.asked, x.result.map fun r => (r.1.map fun _ => (), r.2)⟩ := by
  unfold tcpConnect
  rw [eval_bind, h]
  rcases x with ⟨written, asked, _ | ⟨e | value, rest⟩⟩
  · rfl
  · rfl
  · simp [ExceptT.run, pure, ExceptT.pure, ExceptT.mk, Process.eval, Eval.after, Except.map]

/-- What a starved program leaves its caller. -/
theorem starved_map {I : Interface} {ε α γ : Type} (g : SocksError → ε) (ended : Bool)
    (f : α → γ) :
    (ended = false → ((starved g ended : Eval UInt8 I (Except ε α)).result.map
      fun r => (r.1.map f, r.2)) = none) ∧
      Fails ((starved g ended : Eval UInt8 I (Except ε α)).result.map
        fun r => (r.1.map f, r.2)) := by
  cases ended with
  | false => exact ⟨fun _ => rfl, fun _ _ h => by cases h⟩
  | true =>
      refine ⟨(fun h => nomatch h), fun value rest h => ?_⟩
      cases h
      rfl

theorem written_starved {I : Interface} {ε γ : Type} (g : SocksError → ε) (ended : Bool) :
    (starved g ended : Eval UInt8 I (Except ε γ)).written = [] := by
  cases ended <;> rfl

/-- Nothing is not a reply. -/
theorem commandResponse_run_nil (proto : Protocol) : proto.commandResponse.read.run [] = none :=
  (proto.commandResponse_reads (.success (.socketAddr (.v4 0 0))) trivial rfl).run_nil
    (proto.commandResponse_reads (.success (.socketAddr (.v4 0 1))) trivial rfl) (by decide)

/-- The reply is read, refused, or not yet there. -/
theorem commandResponse_run (proto : Protocol) (addr : Address) (answers : Answers) {rest : Bytes}
    (h : Along rest (reply proto addr answers)) :
    (∃ after left value, rest = reply proto addr answers ++ after ∧
      proto.commandResponse.read.run rest = some (value, left ++ after) ∧
      (value.isOk = true ↔ dial addr answers = .ok ()) ∧
      (dial addr answers = .ok () → left = [])) ∨
    ∃ missing, missing ≠ [] ∧ rest ++ missing = reply proto addr answers ∧
      (proto.commandResponse.read.run rest = none ∨
        ∃ e left, proto.commandResponse.read.run rest = some (.error e, left) ∧
          dial addr answers ≠ .ok () ∧ rest ≠ []) := by
  have hfits := response_fits proto addr answers
  rw [← List.append_nil (reply proto addr answers)] at h
  rcases h.cases_append with ⟨after, rfl, -⟩ | ⟨missing, hne, hrest⟩
  · left
    by_cases hok : dial addr answers = .ok ()
    · have hreads := proto.commandResponse_reads _ hfits
        ((response_reply proto addr answers).mpr hok)
      exact ⟨after, [], _, rfl, hreads after, by simp [hok, Except.isOk, Except.toBool],
        fun _ => rfl⟩
    · have hrefuses := proto.commandResponse_refuses _ hfits
        fun h => hok ((response_reply proto addr answers).mp h)
      obtain ⟨e, left, hrun⟩ := hrefuses
      exact ⟨after, left, _, rfl, hrun after, by simp [hok, Except.isOk, Except.toBool],
        fun h => absurd h hok⟩
  · refine .inr ⟨missing, hne, hrest, ?_⟩
    by_cases hok : dial addr answers = .ok ()
    · have hreads := proto.commandResponse_reads _ hfits
        ((response_reply proto addr answers).mpr hok)
      exact .inl (hreads.run_of_missing hne hrest)
    · have hrefuses := proto.commandResponse_refuses _ hfits
        fun h => hok ((response_reply proto addr answers).mp h)
      rcases hrefuses.run_of_missing hrest with hnone | ⟨e, left, hrun⟩
      · exact .inl hnone
      · refine .inr ⟨e, left, hrun, hok, ?_⟩
        rintro rfl
        rw [commandResponse_run_nil] at hrun
        cases hrun

theorem reply_ne_nil (proto : Protocol) (addr : Address) (answers : Answers) :
    reply proto addr answers ≠ [] := by
  intro hnil
  have halong : Along [] (reply proto addr answers) := .inl List.nil_prefix
  rcases commandResponse_run proto addr answers halong with
    ⟨after, left, value, _, hrun, _⟩ | ⟨missing, hne, hmissing, _⟩
  · rw [commandResponse_run_nil] at hrun
    cases hrun
  · rw [hnil] at hmissing
    exact hne hmissing

theorem client_eval (answers : Answers)
    {none' : (call : clientInterface.Call) → clientInterface.Answer call} {input : Bytes}
    (ended : Bool) (h : Along input (welcome proto ++ reply proto addr answers)) :
    ClientDoes proto addr answers input ended
      ((tcpConnect proto addr).run.eval none' input ended) := by
  have hversion := proto.version_reads .v5
  have hauth := proto.authResponse_reads ⟨.noauth⟩
  unfold welcome at h
  rw [List.append_assoc] at h
  have hsend : (sendCommand proto ⟨.connect, ra2sa addr⟩).run.eval none' input ended =
      ((read proto.version mapErr >>= fun _ => read proto.authResponse mapErr >>= fun resp =>
        if resp.method ≠ .noauth then throw (.other "Auth failed")
        else
          write proto.commandRequest ⟨.connect, ra2sa addr⟩ >>= fun _ => flush >>= fun _ =>
            read proto.commandResponse mapErr :
              Talk clientInterface Error CommandResponse).run.eval none' input ended).after
        (hello proto) [] := by
    unfold sendCommand
    rw [eval_write, eval_write, Eval.after_after, eval_flush]
    rfl
  -- while something of the welcome is missing, the client waits
  have hearly : ∀ missing, missing ≠ [] → input ++ missing = welcome proto →
      (sendCommand proto ⟨.connect, ra2sa addr⟩).run.eval none' input ended =
        (starved mapErr ended).after (hello proto) [] →
      ClientDoes proto addr answers input ended
        ((tcpConnect proto addr).run.eval none' input ended) := by
    intro missing hne hinput hstarved
    obtain ⟨hwaits, hfails⟩ := starved_map (I := clientInterface) mapErr ended
      fun _ : CommandResponse => ()
    rw [tcpConnect_eval _ _ hstarved]
    exact .early missing hne hinput (by simp [written_starved]) hwaits hfails
  rcases h.cases_append with ⟨rest, rfl, hrest⟩ | ⟨missing, hne, hinput⟩
  · rw [eval_read_bind, hversion rest] at hsend
    dsimp only at hsend
    rcases hrest.cases_append with ⟨rest, rfl, halong⟩ | ⟨missing, hne, hinput⟩
    · rw [eval_read_bind, hauth rest] at hsend
      dsimp only at hsend
      rw [if_neg (by simp), eval_write, eval_flush, Eval.after_after, eval_read] at hsend
      have hwelcome : proto.version.write .v5 ++ (proto.authResponse.write ⟨.noauth⟩ ++ rest) =
          welcome proto ++ rest := by
        rw [welcome, List.append_assoc]
      rw [hwelcome] at hsend ⊢
      rcases commandResponse_run proto addr answers halong with
        ⟨after, left, value, rfl, hrun, hok, hleft⟩ | ⟨missing, hne, hmissing, hrun⟩
      · rw [hrun] at hsend
        rw [tcpConnect_eval _ _ hsend]
        refine .through after left ((value.mapError mapErr).map fun _ => ())
          (List.append_assoc _ _ _).symm ?_ ?_ ?_ hleft
        · cases value <;> simp [request]
        · cases value <;> rfl
        · rw [← hok]
          cases value <;> simp [Except.map, Except.mapError, Except.isOk, Except.toBool]
      · rcases hrun with hnone | ⟨e, left, hrun, hdial, hrest⟩
        · rw [hnone] at hsend
          obtain ⟨hwaits, hfails⟩ := starved_map (I := clientInterface) mapErr ended
            fun _ : CommandResponse => ()
          rw [tcpConnect_eval _ _ hsend]
          exact .late rest missing hne rfl hmissing (by simp [written_starved, request])
            (fun hended hsome => absurd (hwaits hended) hsome) hfails
        · rw [hrun] at hsend
          rw [tcpConnect_eval _ _ hsend]
          refine .late rest missing hne rfl hmissing (by simp [request])
            (fun _ _ => ⟨hdial, hrest⟩) ?_
          intro value rest' hvalue
          cases hvalue
          rfl
    · rw [eval_read_bind, hauth.run_of_missing hne hinput] at hsend
      refine hearly missing hne ?_ hsend
      rw [welcome, ← hinput, List.append_assoc]
  · rw [eval_read_bind, hversion.run_of_missing hne hinput] at hsend
    refine hearly (missing ++ proto.authResponse.write ⟨.noauth⟩) (by simp [hne]) ?_ hsend
    rw [welcome, ← hinput, List.append_assoc]

/-- The addresses that were dialed. -/
def dials (asked : List ServerCall) : List Address :=
  asked.filterMap fun
    | .tcpConnect dst => some dst
    | _ => none

/-- `handle_command_request` on a part of what the client says, or on more. -/
theorem handleCommandRequest_eval {ε : Type} (context : SocksError → ε) (answers : Answers)
    {input : Bytes} (ended : Bool) (hfits : (ra2sa addr).Fits)
    (h : Along input (hello proto ++ request proto addr)) :
    (∃ missing, missing ≠ [] ∧ input ++ missing = hello proto ∧
      (handleCommandRequest proto context).run.eval answers input ended =
        starved context ended) ∨
    (∃ rest missing, missing ≠ [] ∧ input = hello proto ++ rest ∧
      rest ++ missing = request proto addr ∧
      (handleCommandRequest proto context).run.eval answers input ended =
        (starved context ended).after (welcome proto) []) ∨
    ∃ rest, input = hello proto ++ request proto addr ++ rest ∧
      (handleCommandRequest proto context).run.eval answers input ended =
        ⟨welcome proto, [], some (.ok ⟨.connect, (ra2sa addr).carried⟩, rest)⟩ := by
  have hversion := proto.version_reads .v5
  have hauth := proto.authRequest_reads ⟨[.noauth]⟩ (by decide)
  have hcommand := proto.commandRequest_reads ⟨.connect, ra2sa addr⟩ hfits
  unfold hello at h
  rw [List.append_assoc] at h
  unfold handleCommandRequest
  rcases h.cases_append with ⟨rest, rfl, hrest⟩ | ⟨missing, hne, hinput⟩
  · rw [eval_read_bind, hversion rest]
    dsimp only
    rcases hrest.cases_append with ⟨rest, rfl, halong⟩ | ⟨missing, hne, hinput⟩
    · right
      have hhello : proto.version.write .v5 ++ (proto.authRequest.write ⟨[.noauth]⟩ ++ rest) =
          hello proto ++ rest := by
        rw [hello, List.append_assoc]
      rw [hhello, eval_read_bind, hauth rest]
      dsimp only
      rw [proto.selectFrom_noauth, eval_write, eval_write, Eval.after_after, eval_flush,
        eval_read]
      rw [← List.append_nil (request proto addr)] at halong
      rcases halong.cases_append with ⟨rest, rfl, -⟩ | ⟨missing, hne, hrest⟩
      · right
        have hrun : proto.commandRequest.read.run (request proto addr ++ rest) = _ := hcommand rest
        rw [hrun]
        refine ⟨rest, by rw [List.append_assoc], ?_⟩
        simp [Eval.after, welcome]
      · left
        rw [hcommand.run_of_missing hne hrest]
        exact ⟨rest, missing, hne, rfl, hrest, rfl⟩
    · left
      rw [eval_read_bind, hauth.run_of_missing hne hinput]
      refine ⟨missing, hne, ?_, rfl⟩
      rw [hello, ← hinput, List.append_assoc]
  · left
    refine ⟨missing ++ proto.authRequest.write ⟨[.noauth]⟩, by simp [hne], ?_, ?_⟩
    · rw [hello, ← hinput, List.append_assoc]
    · rw [eval_read_bind, hversion.run_of_missing hne hinput]

section Calls

variable {ε γ : Type} (answers : Answers) (input : Bytes) (ended : Bool)

theorem eval_localAddr (f : Except Error SocketAddr → Talk serverInterface ε γ) :
    (localAddr >>= f).run.eval answers input ended =
      ((f (answers ServerCall.localAddr)).run.eval answers input ended).after []
        [ServerCall.localAddr] := rfl

theorem eval_netTcpConnect (f : Except Error Unit → Talk serverInterface ε γ) :
    (netTcpConnect addr.carried >>= f).run.eval answers input ended =
      ((f (dial addr answers)).run.eval answers input ended).after []
        [ServerCall.tcpConnect addr.carried] := rfl

theorem eval_outLocalAddr (f : Except Error SocketAddr → Talk serverInterface ε γ) :
    (outLocalAddr >>= f).run.eval answers input ended =
      ((f (answers ServerCall.outLocalAddr)).run.eval answers input ended).after []
        [ServerCall.outLocalAddr] := rfl

theorem eval_respond (resp : CommandResponse) (end' : Served) :
    (respond proto resp end').run.eval answers input ended =
      ⟨proto.commandResponse.write resp, [], some (.ok end', input)⟩ := by
  unfold respond
  rw [eval_write, eval_flush]
  simp [ExceptT.run, pure, ExceptT.pure, ExceptT.mk, Process.eval, Eval.after]

end Calls

/-- `Command::Connect` answers whatever the dial gives. -/
theorem serveConnect_eval (proto : Protocol) (addr : Address) (answers : Answers)
    (input : Bytes) (ended : Bool) :
    ∃ asked, dials asked = [addr.carried] ∧
      (serveConnect proto (ra2sa addr).carried).run.eval answers input ended =
        ⟨reply proto addr answers, asked,
          some (.ok (if dial addr answers = .ok () then .relay else .finished), input)⟩ := by
  unfold serveConnect reply response
  rw [← Address.carried, eval_netTcpConnect]
  rcases dial addr answers with e | ⟨⟨⟩⟩
  · refine ⟨[.tcpConnect addr.carried], rfl, ?_⟩
    dsimp only
    unfold responseCommandError
    rw [eval_respond, if_neg (by simp)]
    rfl
  · refine ⟨[.tcpConnect addr.carried, .outLocalAddr], rfl, ?_⟩
    dsimp only
    rw [eval_outLocalAddr, eval_respond, if_pos rfl]
    rfl

variable (proto addr) in
/-- The server on a part of what the client says, or on more. -/
inductive ServerDoes (answers : Answers) (input : Bytes) (ended : Bool)
    (x : Eval UInt8 serverInterface (Except ServeError Served)) : Prop where
  | early (missing : Bytes) (hne : missing ≠ []) (hinput : input ++ missing = hello proto)
      (written : x.written = []) (dialed : dials x.asked = [])
      (waits : ended = false → x.result = none) (fails : Fails x.result)
  | late (rest missing : Bytes) (hne : missing ≠ []) (hinput : input = hello proto ++ rest)
      (hrest : rest ++ missing = request proto addr) (written : x.written = welcome proto)
      (dialed : dials x.asked = []) (waits : ended = false → x.result = none)
      (fails : Fails x.result)
  | through (rest : Bytes) (hinput : input = hello proto ++ request proto addr ++ rest)
      (written : x.written = welcome proto ++ reply proto addr answers)
      (dialed : dials x.asked = [addr.carried])
      (result : x.result =
        some (.ok (if dial addr answers = .ok () then .relay else .finished), rest))

theorem server_eval (clientAddr : SocketAddr) (answers : Answers) {bound : SocketAddr}
    (hlocal : answers ServerCall.localAddr = Except.ok bound) (hfits : (ra2sa addr).Fits)
    {input : Bytes} (ended : Bool) (h : Along input (hello proto ++ request proto addr)) :
    ServerDoes proto addr answers input ended
      ((serveConnection proto clientAddr).run.eval answers input ended) := by
  unfold serveConnection
  rw [eval_localAddr, hlocal]
  dsimp only
  rw [eval_bind]
  rcases handleCommandRequest_eval (ServeError.context "handle command request") answers ended
    hfits h with
    ⟨missing, hne, hinput, heval⟩ | ⟨rest, missing, hne, hinput, hrest, heval⟩ |
    ⟨rest, hinput, heval⟩
  · rw [heval]
    cases ended with
    | false => exact .early missing hne hinput rfl rfl (fun _ => rfl) fun _ _ h => nomatch h
    | true =>
        refine .early missing hne hinput rfl rfl (fun h => nomatch h) fun value rest h => ?_
        cases h
        rfl
  · rw [heval]
    cases ended with
    | false =>
        exact .late rest missing hne hinput hrest (by simp [starved, Eval.after]) rfl
          (fun _ => rfl) fun _ _ h => nomatch h
    | true =>
        refine .late rest missing hne hinput hrest (by simp [starved, Eval.after]) rfl
          (fun h => nomatch h) fun value rest h => ?_
        cases h
        rfl
  · rw [heval]
    obtain ⟨asked, hasked, hconnect⟩ := serveConnect_eval proto addr answers rest ended
    dsimp only
    rw [hconnect]
    exact .through rest hinput rfl hasked rfl

end Programs

/-! ## Nothing stays in a buffer -/

section Flushes

variable {I : Interface} {ε α γ : Type}

theorem flushes_write {m : Message α} {value : α} {f : Unit → Talk I ε γ} {clean : Bool}
    (h : (f ()).run.Flushes false) : (write m value >>= f).run.Flushes clean := h

theorem flushes_flush {f : Unit → Talk I ε γ} {clean : Bool} (h : (f ()).run.Flushes true) :
    (flush >>= f).run.Flushes clean := h

theorem flushes_read (m : Message α) (g : SocksError → ε) :
    (read m g : Talk I ε α).run.Flushes true := by
  refine (Process.flushes_read m.read).bind fun value => ?_
  rcases value with _ | e | value <;> rfl

theorem flushes_bind {x : Talk I ε α} {f : α → Talk I ε γ} {clean : Bool}
    (h : x.run.Flushes clean) (hf : ∀ value, (f value).run.Flushes true) :
    (x >>= f).run.Flushes clean := by
  refine Process.Flushes.bind h fun value => ?_
  cases value with
  | error e => rfl
  | ok value => exact hf value

variable (proto : Protocol)

theorem tcpConnect_flushes (addr : Address) : (tcpConnect proto addr).run.Flushes true := by
  refine flushes_bind ?_ fun _ => rfl
  refine flushes_write (flushes_write (flushes_flush ?_))
  refine flushes_bind (flushes_read _ _) fun _ => flushes_bind (flushes_read _ _) fun resp => ?_
  split
  · rfl
  · exact flushes_write (flushes_flush (flushes_read _ _))

theorem handleCommandRequest_flushes (context : SocksError → ε) :
    (handleCommandRequest proto context).run.Flushes true := by
  refine flushes_bind (flushes_read _ _) fun _ => flushes_bind (flushes_read _ _) fun _ => ?_
  exact flushes_write (flushes_write (flushes_flush (flushes_read _ _)))

theorem respond_flushes (resp : CommandResponse) (end' : Served) :
    (respond proto resp end').run.Flushes true :=
  flushes_write (flushes_flush rfl)

theorem serveConnect_flushes (address : SocksAddress) :
    (serveConnect proto address).run.Flushes true := by
  refine flushes_bind (fun _ => rfl) fun out => ?_
  cases out with
  | error e => exact respond_flushes proto _ _
  | ok stream => exact flushes_bind (fun _ => rfl) fun _ => respond_flushes proto _ _

theorem serveAssociate_flushes (bound addr : SocketAddr) (address : SocksAddress) :
    (serveAssociate proto bound addr address).run.Flushes true := by
  cases address with
  | domain name port => exact respond_flushes proto _ _
  | socketAddr target =>
      refine flushes_bind (fun _ => rfl) fun out => ?_
      cases out with
      | error e => exact respond_flushes proto _ _
      | ok socket =>
          refine flushes_bind (fun _ => rfl) fun udp => ?_
          cases udp with
          | error e => rfl
          | ok socket =>
              refine flushes_bind (fun _ => rfl) fun bound => ?_
              cases bound with
              | error | ok => exact respond_flushes proto _ _

theorem serveConnection_flushes (clientAddr : SocketAddr) :
    (serveConnection proto clientAddr).run.Flushes true := by
  refine flushes_bind (fun _ => rfl) fun bound => ?_
  cases bound with
  | error e => rfl
  | ok bound =>
      refine flushes_bind (handleCommandRequest_flushes proto _) fun cmdReq => ?_
      split
      · exact serveConnect_flushes proto _
      · exact serveAssociate_flushes proto _ _ _
      · rfl

end Flushes

end RabbitDigger.Socks5Handshake
