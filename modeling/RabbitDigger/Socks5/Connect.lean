import RabbitDigger.Foundation.Dialogue
import RabbitDigger.Relay.Tcp
import RabbitDigger.Socks5.Format

/-!
# Connections through a SOCKS5 server

`Socks5Client::tcp_connect` against `Socks5Server::serve_connection`, as a dialogue
(`Foundation.Dialogue`).  The two keep to the bytes of the `handshake` (`scripted`), so whatever
the pieces and the order in which things happen,

* the server dials **the address that was asked for**, as far as the protocol carries it, once, and
  nothing else;
* the client returns `Ok` **if and only if** that dial succeeds;
* neither side reads a byte beyond the handshake, so that what is sent afterwards is what the relay
  of the server gets.
-/

namespace RabbitDigger.Socks5Handshake

open Polling Dialogue

/-! ## The dialogue -/

/-- What the two call. -/
abbrev interfaces : Role → Interface
  | .client => clientInterface
  | .server => serverInterface

/-- What the two return. -/
abbrev Result : Role → Type
  | .client => Except Error Unit
  | .server => Except ServeError Served

/-- Whether the server goes on with the stream. -/
def servedKeeps : Except ServeError Served → Bool
  | .ok .relay | .ok .associate => true
  | _ => false

section Dialogue

variable (proto : Protocol) (addr : Address) (clientAddr : SocketAddr) (answers : Answers)

/-- `tcp_connect` for an address against `serve_connection`, whose surroundings answer so. -/
def setting : Setting UInt8 interfaces Result where
  process
    | .client => (tcpConnect proto addr).run
    | .server => (serveConnection proto clientAddr).run
  answers
    | .client => fun call => nomatch call
    | .server => answers
  keeps
    | .client => fun result => result.isOk
    | .server => servedKeeps
  capacity := 512

/-- The bytes of the handshake, by who says them.  A server that does not learn its own address
says nothing. -/
def handshake : Role → Bytes
  | .client =>
      match (answers ServerCall.localAddr : Except Error SocketAddr) with
      | .ok _ => hello proto ++ request proto addr
      | .error _ => hello proto
  | .server =>
      match (answers ServerCall.localAddr : Except Error SocketAddr) with
      | .ok _ => welcome proto ++ reply proto addr answers
      | .error _ => []

variable {proto addr clientAddr answers}

theorem not_keeps_of_fails {value : Except ServeError Served} (h : value.isOk = false) :
    servedKeeps value = false := by
  cases value with
  | error e => rfl
  | ok served => cases h

/-- Nothing can be missing in an input that has it all. -/
theorem not_missing {a b missing : Bytes} (hne : missing ≠ []) : a ++ b ++ missing ≠ a := by
  intro h
  rw [List.append_assoc] at h
  have hnil := List.append_cancel_left (h.trans (List.append_nil a).symm)
  exact hne (List.append_eq_nil_iff.mp hnil).2

theorem hears_along {r : Role} {input : Bytes}
    (h : (setting proto addr clientAddr answers).Hears (handshake proto addr answers) r input) :
    Along input (handshake proto addr answers r.peer) := by
  rcases h with hin | ⟨_, hout⟩
  · exact .inl hin
  · exact .inr hout

section Local

variable {bound : SocketAddr} (hlocal : answers ServerCall.localAddr = Except.ok bound)
include hlocal

theorem handshake_client :
    handshake proto addr answers .client = hello proto ++ request proto addr := by
  simp only [handshake, hlocal]

theorem handshake_server :
    handshake proto addr answers .server = welcome proto ++ reply proto addr answers := by
  simp only [handshake, hlocal]

theorem client_does (clientAddr : SocketAddr) {input : Bytes} (ended : Bool)
    (h : Along input (handshake proto addr answers .server)) :
    ClientDoes proto addr answers input ended
      ((setting proto addr clientAddr answers).eval .client input ended) := by
  rw [handshake_server hlocal] at h
  exact client_eval answers ended h

variable (hfits : (ra2sa addr).Fits)
include hfits

theorem server_does (clientAddr : SocketAddr) {input : Bytes} (ended : Bool)
    (h : Along input (handshake proto addr answers .client)) :
    ServerDoes proto addr answers input ended
      ((setting proto addr clientAddr answers).eval .server input ended) := by
  rw [handshake_client hlocal] at h
  exact server_eval clientAddr answers hlocal hfits ended h

/-- Both keep to the handshake. -/
theorem handshake_bounded (clientAddr : SocketAddr) (r : Role) {input : Bytes} (ended : Bool)
    (h : Along input (handshake proto addr answers r.peer)) :
    ((setting proto addr clientAddr answers).eval r input ended).written <+:
      handshake proto addr answers r := by
  cases r with
  | client =>
      rw [handshake_client hlocal]
      rcases client_does hlocal clientAddr ended h with
        ⟨_, _, _, hwritten⟩ | ⟨_, _, _, _, _, hwritten⟩ | ⟨_, _, _, _, hwritten⟩
      · rw [hwritten]
        exact List.prefix_append _ _
      · rw [hwritten]
      · rw [hwritten]
  | server =>
      rw [handshake_server hlocal]
      rcases server_does hlocal hfits clientAddr ended h with
        ⟨_, _, _, hwritten⟩ | ⟨_, _, _, _, _, hwritten⟩ | ⟨_, _, hwritten⟩
      · rw [hwritten]
        exact List.nil_prefix
      · rw [hwritten]
        exact List.prefix_append _ _
      · rw [hwritten]

/-- Who goes on with its stream has heard and said everything. -/
theorem handshake_complete (clientAddr : SocketAddr) (r : Role) {input : Bytes} (ended : Bool)
    {value : Result r} {rest : Bytes} (h : Along input (handshake proto addr answers r.peer))
    (hresult : ((setting proto addr clientAddr answers).eval r input ended).result =
      some (value, rest))
    (hkeeps : (setting proto addr clientAddr answers).keeps r value = true) :
    input = handshake proto addr answers r.peer ++ rest ∧
      ((setting proto addr clientAddr answers).eval r input ended).written =
        handshake proto addr answers r := by
  cases r with
  | client =>
      have hok : value.isOk = true := hkeeps
      show input = handshake proto addr answers .server ++ rest ∧ _
      rw [handshake_client hlocal, handshake_server hlocal]
      rcases client_does hlocal clientAddr ended h with
        ⟨_, _, _, _, _, hfails⟩ | ⟨_, _, _, _, _, _, _, hfails⟩ |
        ⟨after, left, value', hinput, hwritten, hresult', hvalue, hleft⟩
      · exact absurd hok (by rw [hfails value rest hresult]; decide)
      · exact absurd hok (by rw [hfails value rest hresult]; decide)
      · rw [hresult] at hresult'
        simp only [Option.some.injEq, Prod.mk.injEq] at hresult'
        obtain ⟨rfl, rfl⟩ := hresult'
        rw [hleft (hvalue.mp hok), List.nil_append]
        exact ⟨hinput, hwritten⟩
  | server =>
      have hserved : servedKeeps value = true := hkeeps
      show input = handshake proto addr answers .client ++ rest ∧ _
      rw [handshake_client hlocal, handshake_server hlocal]
      rcases server_does hlocal hfits clientAddr ended h with
        ⟨_, _, _, _, _, _, hfails⟩ | ⟨_, _, _, _, _, _, _, _, hfails⟩ |
        ⟨after, hinput, hwritten, _, hresult'⟩
      · rw [not_keeps_of_fails (hfails value rest hresult)] at hserved
        cases hserved
      · rw [not_keeps_of_fails (hfails value rest hresult)] at hserved
        cases hserved
      · rw [hresult] at hresult'
        simp only [Option.some.injEq, Prod.mk.injEq] at hresult'
        rw [hresult'.2]
        exact ⟨hinput, hwritten⟩

/-- Both return without looking at what follows the handshake. -/
theorem handshake_stops (clientAddr : SocketAddr) (r : Role) (more : Bytes) :
    ∃ value rest, ((setting proto addr clientAddr answers).eval r
      (handshake proto addr answers r.peer ++ more) false).result =
        some (value, rest ++ more) := by
  cases r with
  | client =>
      show ∃ value rest, ((setting proto addr clientAddr answers).eval .client
        (handshake proto addr answers .server ++ more) false).result = some (value, rest ++ more)
      have halong : Along (handshake proto addr answers .server ++ more)
          (handshake proto addr answers .server) := .inr (List.prefix_append _ _)
      rcases client_does hlocal clientAddr false halong with
        ⟨missing, hne, hinput⟩ | ⟨rest, missing, hne, hinput, hrest⟩ |
        ⟨rest, left, value, hinput, _, hresult, _⟩
      · rw [handshake_server hlocal, List.append_assoc (welcome proto)] at hinput
        exact absurd hinput (not_missing hne)
      · rw [handshake_server hlocal, List.append_assoc] at hinput
        rw [← List.append_cancel_left hinput] at hrest
        exact absurd hrest (not_missing hne)
      · rw [handshake_server hlocal] at hinput
        rw [← List.append_cancel_left hinput] at hresult
        exact ⟨value, left, hresult⟩
  | server =>
      show ∃ value rest, ((setting proto addr clientAddr answers).eval .server
        (handshake proto addr answers .client ++ more) false).result = some (value, rest ++ more)
      have halong : Along (handshake proto addr answers .client ++ more)
          (handshake proto addr answers .client) := .inr (List.prefix_append _ _)
      rcases server_does hlocal hfits clientAddr false halong with
        ⟨missing, hne, hinput⟩ | ⟨rest, missing, hne, hinput, hrest⟩ |
        ⟨rest, hinput, _, _, hresult⟩
      · rw [handshake_client hlocal, List.append_assoc (hello proto)] at hinput
        exact absurd hinput (not_missing hne)
      · rw [handshake_client hlocal, List.append_assoc] at hinput
        rw [← List.append_cancel_left hinput] at hrest
        exact absurd hrest (not_missing hne)
      · rw [handshake_client hlocal] at hinput
        rw [← List.append_cancel_left hinput] at hresult
        exact ⟨_, [], hresult⟩

/-- They do not wait for each other. -/
theorem handshake_live (clientAddr : SocketAddr) {x y : Bytes}
    (hx : x <+: handshake proto addr answers .client)
    (hy : y <+: handshake proto addr answers .server)
    (hclient : ((setting proto addr clientAddr answers).eval .client y false).written = x)
    (hserver : ((setting proto addr clientAddr answers).eval .server x false).written = y)
    (hclientNone : ((setting proto addr clientAddr answers).eval .client y false).result = none) :
    ((setting proto addr clientAddr answers).eval .server x false).result ≠ none := by
  intro hserverNone
  have hcases := server_does hlocal hfits clientAddr false (.inl hx)
  rcases client_does hlocal clientAddr false (.inl hy) with
    ⟨missing, hne, hinput, hhello⟩ | ⟨rest, missing, hne, hinput, hrest, hboth⟩ |
    ⟨rest, left, value, hinput, _, hresult, _⟩
  · -- the server has the whole hello, and says its welcome
    rw [hclient] at hhello
    rcases hcases with ⟨missing', hne', hinput'⟩ | ⟨_, _, _, _, _, hwelcome⟩ |
      ⟨_, _, _, _, hresult⟩
    · rw [hhello, List.append_right_eq_self] at hinput'
      exact absurd hinput' hne'
    · rw [hserver] at hwelcome
      rw [hwelcome, List.append_right_eq_self] at hinput
      exact absurd hinput hne
    · rw [hserverNone] at hresult
      cases hresult
  · -- the server has the request, and returns
    rw [hclient] at hboth
    rcases hcases with ⟨missing', hne', hinput'⟩ |
      ⟨rest', missing', hne', hinput', hrest', _⟩ | ⟨_, _, _, _, hresult⟩
    · rw [hboth] at hinput'
      exact absurd hinput' (not_missing hne')
    · rw [hboth] at hinput'
      rw [← List.append_cancel_left hinput', List.append_right_eq_self] at hrest'
      exact absurd hrest' hne'
    · rw [hserverNone] at hresult
      cases hresult
  · rw [hclientNone] at hresult
    cases hresult

theorem scripted_of_local :
    Scripted (setting proto addr clientAddr answers) (handshake proto addr answers) where
  flushes r := by
    cases r with
    | client => exact tcpConnect_flushes proto addr
    | server => exact serveConnection_flushes proto clientAddr
  bounded r input ended hears :=
    handshake_bounded hlocal hfits clientAddr r ended (hears_along hears)
  complete r input ended value rest hears hresult hkeeps :=
    handshake_complete hlocal hfits clientAddr r ended (hears_along hears) hresult hkeeps
  stops r more _ := handshake_stops hlocal hfits clientAddr r more
  live said hsaid hwritten := by
    by_cases hnone :
        ((setting proto addr clientAddr answers).eval .client (said .server) false).result = none
    · exact ⟨.server, handshake_live hlocal hfits clientAddr (hsaid .client) (hsaid .server)
        (hwritten .client) (hwritten .server) hnone⟩
    · exact ⟨.client, hnone⟩

end Local

section NoLocal

variable {e : Error} (hlocal : answers ServerCall.localAddr = Except.error e)
include hlocal

theorem handshake_client_error : handshake proto addr answers .client = hello proto := by
  simp only [handshake, hlocal]

theorem handshake_server_error : handshake proto addr answers .server = [] := by
  simp only [handshake, hlocal]

/-- A server that does not learn its own address returns at once. -/
theorem server_eval_error (clientAddr : SocketAddr) (input : Bytes) (ended : Bool) :
    (setting proto addr clientAddr answers).eval .server input ended =
      ⟨[], [ServerCall.localAddr], some (.error (.error e), input)⟩ := by
  show (serveConnection proto clientAddr).run.eval answers input ended = _
  unfold serveConnection
  rw [eval_localAddr, hlocal]
  rfl

omit hlocal in
/-- A client that hears nothing says its hello and waits. -/
theorem client_eval_nil (clientAddr : SocketAddr) (ended : Bool) :
    ((setting proto addr clientAddr answers).eval .client [] ended).written = hello proto ∧
      Fails ((setting proto addr clientAddr answers).eval .client [] ended).result := by
  have hne : welcome proto ≠ [] := by
    have hnil := (proto.authResponse_reads ⟨.noauth⟩).run_nil
      (proto.authResponse_reads ⟨.gssapi⟩) (by decide)
    intro hempty
    have hread := proto.authResponse_reads ⟨.noauth⟩ []
    rw [(List.append_eq_nil_iff.mp hempty).2, List.append_nil, hnil] at hread
    cases hread
  have hdoes : ClientDoes proto addr answers [] ended
      ((setting proto addr clientAddr answers).eval .client [] ended) :=
    client_eval answers ended (.inl List.nil_prefix)
  rcases hdoes with ⟨_, _, _, hwritten, _, hfails⟩ | ⟨_, _, _, hinput, _⟩ | ⟨_, _, _, hinput, _⟩
  · exact ⟨hwritten, hfails⟩
  · exact absurd (List.append_eq_nil_iff.mp hinput.symm).1 hne
  · rw [List.append_assoc] at hinput
    exact absurd (List.append_eq_nil_iff.mp hinput.symm).1 hne

theorem scripted_of_error :
    Scripted (setting proto addr clientAddr answers) (handshake proto addr answers) := by
  have hserver : ∀ input ended,
      (setting proto addr clientAddr answers).eval .server input ended =
        ⟨[], [ServerCall.localAddr], some (.error (.error e), input)⟩ :=
    server_eval_error hlocal clientAddr
  have hstops : ¬ (setting proto addr clientAddr answers).GoesOn .server := by
    rintro ⟨input, ended, value, rest, hresult, hkeeps⟩
    rw [hserver] at hresult
    cases hresult
    cases hkeeps
  have hhears : ∀ input, (setting proto addr clientAddr answers).Hears
      (handshake proto addr answers) .client input → input = [] := by
    rintro input (hin | ⟨hgoesOn, _⟩)
    · rw [show Role.client.peer = .server from rfl, handshake_server_error hlocal] at hin
      exact List.prefix_nil.mp hin
    · exact absurd hgoesOn hstops
  refine ⟨?_, ?_, ?_, ?_, ?_⟩
  · intro r
    cases r with
    | client => exact tcpConnect_flushes proto addr
    | server => exact serveConnection_flushes proto clientAddr
  · intro r input ended hears
    cases r with
    | client =>
        rw [hhears input hears, (client_eval_nil clientAddr ended).1,
          handshake_client_error hlocal]
    | server =>
        rw [hserver]
        exact List.nil_prefix
  · intro r input ended value rest hears hresult hkeeps
    cases r with
    | client =>
        rw [hhears input hears] at hresult
        have hfails := (client_eval_nil clientAddr ended).2 value rest hresult
        rw [show value.isOk = true from hkeeps] at hfails
        cases hfails
    | server =>
        rw [hserver] at hresult
        cases hresult
        cases hkeeps
  · intro r more hgoesOn
    cases r with
    | client => exact absurd hgoesOn hstops
    | server =>
        rw [hserver]
        exact ⟨_, _, rfl⟩
  · intro said _ _
    refine ⟨.server, ?_⟩
    rw [hserver]
    exact nofun

end NoLocal

/-- The two programs keep to the handshake. -/
theorem scripted (proto : Protocol) (clientAddr : SocketAddr) (answers : Answers)
    (hfits : (ra2sa addr).Fits) :
    Scripted (setting proto addr clientAddr answers) (handshake proto addr answers) := by
  rcases hlocal : (answers ServerCall.localAddr : Except Error SocketAddr) with e | bound
  · exact scripted_of_error hlocal
  · exact scripted_of_local hlocal hfits

/-! ## Connections through a server -/

/-- The server comes to dial, and its dial succeeds. -/
def DialSucceeds (addr : Address) (answers : Answers) : Prop :=
  (∃ bound, answers ServerCall.localAddr = Except.ok bound) ∧ dial addr answers = .ok ()

section Runs

variable {st : State UInt8 interfaces Result} (hfits : (ra2sa addr).Fits)
  (reach : (setting proto addr clientAddr answers).system.Reachable st)
include hfits reach

/-- What a party has heard is along the handshake. -/
theorem consumed_along (r : Role) :
    Along (st.party r).consumed (handshake proto addr answers r.peer) :=
  .inl ((scripted proto clientAddr answers hfits).consumed_within reach r)

section Local

variable {bound : SocketAddr} (hlocal : answers ServerCall.localAddr = Except.ok bound)
include hlocal

/-- A server that has returned without having seen the end of its stream has dialed. -/
theorem server_of_result {value : Except ServeError Served}
    (hresult : (st.party .server).result = some value)
    (hsaw : (st.party .server).sawEnd = false) :
    dials (st.party .server).asked = [addr.carried] ∧
      (st.party .server).written = welcome proto ++ reply proto addr answers ∧
      value = .ok (if dial addr answers = .ok () then .relay else .finished) := by
  have heval := (scripted proto clientAddr answers hfits).eval_of_result reach hresult
  have hdoes := server_does hlocal hfits clientAddr (st.party .server).sawEnd
    (consumed_along hfits reach .server)
  rw [heval] at hdoes
  rcases hdoes with ⟨_, _, _, _, _, hwaits, _⟩ | ⟨_, _, _, _, _, _, _, hwaits, _⟩ |
    ⟨rest, _, hwritten, hdialed, hvalue⟩
  · cases hwaits hsaw
  · cases hwaits hsaw
  · simp only [Option.some.injEq, Prod.mk.injEq] at hvalue
    exact ⟨hdialed, hwritten, hvalue.1⟩

/-- If the client sees the end of its stream, the server has failed to dial. -/
theorem dial_of_closed (hsaw : (st.party .client).sawEnd = true) :
    dial addr answers ≠ .ok () := by
  obtain ⟨hopen, value, hresult, hkeeps⟩ :=
    (scripted proto clientAddr answers hfits).peer_of_sawEnd reach hsaw
  obtain ⟨_, _, hvalue⟩ := server_of_result hfits reach hlocal hresult hopen
  intro hok
  rw [hvalue, if_pos hok] at hkeeps
  cases hkeeps

/-- **The client returns `Ok` if and only if the dial succeeds.** -/
theorem client_of_result {value : Except Error Unit}
    (hresult : (st.party .client).result = some value) :
    value.isOk = true ↔ dial addr answers = .ok () := by
  have heval := (scripted proto clientAddr answers hfits).eval_of_result reach hresult
  have hdoes := client_does hlocal clientAddr (st.party .client).sawEnd
    (consumed_along hfits reach .client)
  rw [heval] at hdoes
  -- a client that fails has seen the end of its stream, or a reply it refuses
  have hfailed : Fails (some (value, ([] : Bytes))) →
      ((st.party .client).sawEnd = false → dial addr answers ≠ .ok ()) →
      (value.isOk = true ↔ dial addr answers = .ok ()) := by
    intro hfails hopen
    have hvalue := hfails value [] rfl
    have hdial : dial addr answers ≠ .ok () := by
      cases hsaw : (st.party .client).sawEnd with
      | false => exact hopen hsaw
      | true => exact dial_of_closed hfits reach hlocal hsaw
    simp [hvalue, hdial]
  rcases hdoes with ⟨_, _, _, _, hwaits, hfails⟩ | ⟨_, _, _, _, _, _, hwaits, hfails⟩ |
    ⟨rest, left, value', _, _, hvalue, hok, _⟩
  · exact hfailed hfails fun hsaw => by cases hwaits hsaw
  · exact hfailed hfails fun hsaw => (hwaits hsaw nofun).1
  · simp only [Option.some.injEq, Prod.mk.injEq] at hvalue
    rw [hvalue.1]
    exact hok

/-- A client that has returned without having seen the end of its stream has heard more than the
welcome. -/
theorem beyond_welcome {value : Except Error Unit}
    (hresult : (st.party .client).result = some value)
    (hsaw : (st.party .client).sawEnd = false) :
    ∃ rest, rest ≠ [] ∧ (st.party .client).consumed = welcome proto ++ rest := by
  have heval := (scripted proto clientAddr answers hfits).eval_of_result reach hresult
  have hdoes := client_does hlocal clientAddr (st.party .client).sawEnd
    (consumed_along hfits reach .client)
  rw [heval] at hdoes
  rcases hdoes with ⟨_, _, _, _, hwaits, _⟩ | ⟨rest, _, _, hinput, _, _, hwaits, _⟩ |
    ⟨rest, _, _, hinput, _⟩
  · cases hwaits hsaw
  · exact ⟨rest, (hwaits hsaw nofun).2, hinput⟩
  · refine ⟨reply proto addr answers ++ rest, ?_, by rw [hinput, List.append_assoc]⟩
    intro hempty
    exact reply_ne_nil proto addr answers (List.append_eq_nil_iff.mp hempty).1

/-- A run that is complete has dialed: a server that has seen the end of its stream before would
have a client that refuses a reply nobody has written. -/
theorem dials_of_result {value : Except ServeError Served}
    (hresult : (st.party .server).result = some value) :
    dials (st.party .server).asked = [addr.carried] := by
  have hscripted := scripted proto clientAddr answers hfits
  cases hsaw : (st.party .server).sawEnd with
  | false => exact (server_of_result hfits reach hlocal hresult hsaw).1
  | true =>
      have heval := hscripted.eval_of_result reach hresult
      have hdoes := server_does hlocal hfits clientAddr (st.party .server).sawEnd
        (consumed_along hfits reach .server)
      rw [heval] at hdoes
      -- the client has heard more than the welcome, so the server has written more than that
      have hmore : Fails (some (value, ([] : Bytes))) →
          ¬ (st.party .server).written <+: welcome proto := by
        intro hfails hwritten
        have hsilent : (setting proto addr clientAddr answers).keeping st .server = false := by
          simp only [Setting.keeping, hresult]
          exact not_keeps_of_fails (hfails value [] rfl)
        obtain ⟨hopen, value', hclient, _⟩ := hscripted.peer_of_sawEnd reach hsaw
        obtain ⟨rest, hne, hconsumed⟩ := beyond_welcome hfits reach hlocal hclient hopen
        have hheard : (st.party .client).consumed <+: (st.party .server).written :=
          hscripted.consumed_of_written reach hsilent
        have hlength := (hheard.trans hwritten).length_le
        rw [hconsumed, List.length_append] at hlength
        have hpos := List.length_pos_of_ne_nil hne
        omega
      rcases hdoes with ⟨_, _, _, hwritten, _, _, hfails⟩ |
        ⟨_, _, _, _, _, hwritten, _, _, hfails⟩ | ⟨_, _, _, hdialed, _⟩
      · refine absurd ?_ (hmore hfails)
        rw [show (st.party .server).written = [] from hwritten]
        exact List.nil_prefix
      · refine absurd ?_ (hmore hfails)
        rw [show (st.party .server).written = welcome proto from hwritten]
      · exact hdialed

end Local

/-- The server dials nothing but the address, and that once. -/
theorem dials_asked :
    dials (st.party .server).asked = [] ∨ dials (st.party .server).asked = [addr.carried] := by
  have hasked := (scripted proto clientAddr answers hfits).asked_within reach .server
  have hdials : dials (st.party .server).asked <+:
      dials ((setting proto addr clientAddr answers).eval .server (st.party .server).consumed
        (st.party .server).sawEnd).asked :=
    hasked.filterMap _
  have hone : ∀ {dialed : List Address}, dialed <+: [addr.carried] →
      dialed = [] ∨ dialed = [addr.carried] := by
    intro dialed hprefix
    rcases List.prefix_cons_iff.mp hprefix with h | ⟨t, rfl, ht⟩
    · exact .inl h
    · rw [List.prefix_nil.mp ht]
      exact .inr rfl
  rcases hlocal : (answers ServerCall.localAddr : Except Error SocketAddr) with e | bound
  · rw [server_eval_error hlocal] at hdials
    exact .inl (List.prefix_nil.mp hdials)
  · have hdoes := server_does hlocal hfits clientAddr (st.party .server).sawEnd
      (consumed_along hfits reach .server)
    rcases hdoes with ⟨_, _, _, _, hnone, _⟩ | ⟨_, _, _, _, _, _, hnone, _⟩ |
      ⟨_, _, _, hdialed, _⟩
    · rw [hnone] at hdials
      exact .inl (List.prefix_nil.mp hdials)
    · rw [hnone] at hdials
      exact .inl (List.prefix_nil.mp hdials)
    · rw [hdialed] at hdials
      exact hone hdials

/-- The client returns `Ok` if and only if the server comes to dial and succeeds. -/
theorem client_outcome {value : Except Error Unit}
    (hresult : (st.party .client).result = some value) :
    value.isOk = true ↔ DialSucceeds addr answers := by
  rcases hlocal : (answers ServerCall.localAddr : Except Error SocketAddr) with e | bound
  · have hscripted := scripted proto clientAddr answers hfits
    have heval := hscripted.eval_of_result reach hresult
    have hconsumed : (st.party .client).consumed = [] := by
      have hwithin := hscripted.consumed_within reach .client
      rw [show Role.client.peer = .server from rfl, handshake_server_error hlocal] at hwithin
      exact List.prefix_nil.mp hwithin
    have hfails : Fails ((setting proto addr clientAddr answers).eval .client []
        (st.party .client).sawEnd).result := (client_eval_nil clientAddr _).2
    rw [← hconsumed, heval] at hfails
    simp [hfails value [] rfl, DialSucceeds, hlocal]
  · refine (client_of_result hfits reach hlocal hresult).trans ?_
    exact ⟨fun h => ⟨⟨bound, hlocal⟩, h⟩, fun h => h.2⟩

end Runs

/-- **What a connection through the server is like**, at every moment. -/
structure Serves (proto : Protocol) (addr : Address) (clientAddr : SocketAddr) (answers : Answers)
    (st : State UInt8 interfaces Result) : Prop where
  /-- The server dials nothing but the address, and that once. -/
  dialed : dials (st.party .server).asked = [] ∨ dials (st.party .server).asked = [addr.carried]
  /-- The client returns `Ok` if and only if the server's dial succeeds. -/
  outcome : ∀ value, (st.party .client).result = some value →
    (value.isOk = true ↔ DialSucceeds addr answers)
  /-- Neither side reads beyond the handshake. -/
  within : ∀ r, (st.party r).consumed <+: handshake proto addr answers r.peer
  /-- Who goes on with its stream has read the whole handshake. -/
  whole : ∀ r, (setting proto addr clientAddr answers).keeping st r = true →
    (st.party r).consumed = handshake proto addr answers r.peer
  /-- Every byte that is sent afterwards is relayed.  Whatever the relay between the server's
  `socket` (its side `b`) and the dialed `out` (its side `a`) has read from the stream and written
  to it: what the client has sent is what was written to `out`, what the relay holds and what is on
  its way; and what was read from `out` is what the client has received, what is on its way and
  what the relay holds. -/
  relayed : (∀ r, (setting proto addr clientAddr answers).keeping st r = true) →
    ∀ (size : ℕ) (env : Environment streamInterface) (relay : TcpRelay.CopyBidirectional)
      (log : Log streamInterface) (outcome : Outcome (IoResult Unit)),
      Polled (TcpRelay.CopyBidirectional.poll env) (TcpRelay.CopyBidirectional.new size, [])
        (relay, log) outcome →
      Pipe.received (TcpRelay.trace .b log) = st.received .server →
      Pipe.sent (TcpRelay.trace .a log) = st.sent .server →
      st.sent .client = Pipe.sent (TcpRelay.trace .b log) ++ (relay.transfer .b).unwritten ++
        st.incoming .server ∧
      Pipe.received (TcpRelay.trace .a log) = st.received .client ++ st.incoming .client ++
        (relay.transfer .a).unwritten

/-- **How a connection through the server ends**: both have returned, the server has dialed if
it knows its own address, and the client has returned `Ok` if and only if that has succeeded. -/
structure Completes (addr : Address) (answers : Answers) (st : State UInt8 interfaces Result) :
    Prop where
  server : ∃ value, (st.party .server).result = some value
  dialed : ∀ bound, answers ServerCall.localAddr = Except.ok bound →
    dials (st.party .server).asked = [addr.carried]
  client : ∃ value, (st.party .client).result = some value ∧
    (value.isOk = true ↔ DialSucceeds addr answers)

end Dialogue

/-- **`tcp_connect` against `serve_connection`**, for every address whose domain has at most 255
bytes, whatever the server's surroundings answer, in whatever pieces the bytes move and however
the two are interleaved.  What was said of a connection holds at every moment; a run in which
neither can go on is complete; and every run comes to that.  The address is carried as it is,
unless it is an IPv6 address with a flow label or a scope (`Address.carried_eq_self_iff`). -/
theorem tcpConnect_serveConnection (proto : Protocol) (addr : Address) (clientAddr : SocketAddr)
    (answers : Answers) (hfits : (ra2sa addr).Fits) :
    (∀ st, (setting proto addr clientAddr answers).system.Reachable st →
      Serves proto addr clientAddr answers st ∧
        ((setting proto addr clientAddr answers).Stuck st → Completes addr answers st)) ∧
      WellFounded fun st' st =>
        ∃ r k, (setting proto addr clientAddr answers).step st (.move r k) = some st' := by
  have hscripted := scripted proto clientAddr answers hfits
  refine ⟨fun st reach => ⟨⟨dials_asked hfits reach, fun _ => client_outcome hfits reach,
    hscripted.consumed_within reach, fun r h => (hscripted.kept reach h).1, ?_⟩, ?_⟩,
    Setting.moves_wellFounded _⟩
  · intro hkeeping size env relay log outcome moment hup hdown
    have relayed := (TcpRelay.relayed_of_polled moment).1
    have hstreamUp := (relayed.refines .b).inOrder.stream
    have hstreamDown := (relayed.refines .a).inOrder.stream
    constructor
    · rw [hscripted.afterwards reach hkeeping .client, ← hstreamUp, hup]
      rfl
    · rw [hstreamDown, hdown, hscripted.afterwards reach hkeeping .server]
      rfl
  · intro hstuck
    obtain ⟨served, hserved⟩ := hscripted.complete_of_stuck reach hstuck .server
    obtain ⟨value, hvalue⟩ := hscripted.complete_of_stuck reach hstuck .client
    exact ⟨⟨served, hserved⟩, fun bound hlocal => dials_of_result hfits reach hlocal hserved,
      value, hvalue, client_outcome hfits reach hvalue⟩

/-- A server at `0.0.0.1:1080` that can dial. -/
def dialingServer : Answers
  | .localAddr => (.ok (.v4 1 1080) : Except Error SocketAddr)
  | .tcpConnect _ => (.ok () : Except Error Unit)
  | .outLocalAddr => (.ok (.v4 1 5000) : Except Error SocketAddr)
  | .udpBind _ => (.error .notImplemented : Except Error Unit)
  | .listenUdpBind _ => (.error .notImplemented : Except Error Unit)
  | .udpLocalAddr => (.error .notImplemented : Except Error SocketAddr)

/-- The steps of a handshake for the domain `a`, in which the first flush is cut into pieces. -/
def dialSteps : List (Dialogue.Event UInt8) :=
  ([0, 0, 1, 2, 0].map (.move .client ·)) ++
    ([0, 1, 1, 1, 0, 0, 2, 0].map (.move .server ·)) ++
    ([1, 1, 0, 8, 0].map (.move .client ·)) ++
    ([3, 1, 1, 1, 2, 0, 0, 0, 10, 0].map (.move .server ·)) ++
    ([3, 1, 4, 2].map (.move .client ·))

theorem tcpConnect_serveConnection_dial :
    ∃ st, (setting Rfc1928.protocol (.domain "a" 80) (.v4 2 6000) dialingServer).system.Reachable
        st ∧
      (st.party .client).result.map Except.isOk = some true ∧
      (st.party .server).result = some (.ok .relay) ∧
      Serves Rfc1928.protocol (.domain "a" 80) (.v4 2 6000) dialingServer st := by
  have hrun : ((setting Rfc1928.protocol (.domain "a" 80) (.v4 2 6000) dialingServer).system.run
      dialSteps).map (fun st => ((st.party .client).result.map Except.isOk,
        (st.party .server).result)) = some (some true, some (.ok .relay)) := by
    decide +kernel
  obtain ⟨st, hst, hview⟩ := Option.map_eq_some_iff.mp hrun
  obtain ⟨hclient, hserver⟩ := Prod.mk.inj hview
  have reach := Transition.System.reachable_of_run _ _ hst
  have hfits : (ra2sa (.domain "a" 80)).Fits := by
    show "a".utf8ByteSize ≤ 255
    decide
  exact ⟨st, reach, hclient, hserver,
    ((tcpConnect_serveConnection _ _ _ _ hfits).1 st reach).1⟩

end RabbitDigger.Socks5Handshake
