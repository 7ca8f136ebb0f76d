import RabbitDigger.Interface.AddressText

/-!
# The destination of an HTTP proxy request

`proxy` in `rd-std/src/http/server.rs` takes the authority of the request's URI, appends `:80`
**unless there is a colon in it**, and hands the text to `IntoAddress`, which splits it at the
last colon (`Address.fromStr`).

An authority is a host, with a port or without one (`Authority`).  The host is a registered name,
in which no colon can stand, or an IPv6 literal in brackets, which is full of them.  So the test
for a colon is one for a port only as long as the host is a name.  `proxy_dials_iff` says that the
proxy dials the host of the authority at its port, 80 by default, **if and only if the host is not
an IPv6 literal without a port**: the text after the last colon of such a literal ends with the
bracket, is no port, and the request fails.
-/

namespace RabbitDigger.Http

/-! ## The proxy -/

/-- `Method`, as far as `proxy` looks at it. -/
inductive Method where
  | connect
  | other (name : String)
deriving Repr, DecidableEq

/-- A request: its method, and the authority of its URI. -/
structure Request where
  method : Method
  authority : Option String
deriving Repr, DecidableEq

/-- What a request leads to. -/
inductive Action where
  /-- An empty response; once the connection is upgraded, `tcp_connect` to the destination. -/
  | tunnel (dst : Address)
  /-- `tcp_connect` to the destination, and the request is sent there. -/
  | forward (dst : Address)
  /-- The error that `?` returns. -/
  | failed (e : IoError)
  /-- `400 Bad Request`, with a text. -/
  | badRequest (body : String)
deriving Repr, DecidableEq

/-- `host_addr`. -/
def hostAddr (req : Request) : Option String := req.authority

/-- `proxy`, up to the call of `tcp_connect`. -/
def proxy (std : StdNet) (req : Request) : Action :=
  match hostAddr req with
  | some dst =>
      let dst := if ':' ∈ dst.toList then dst else dst ++ ":80"
      match Address.fromStr std dst with
      | .error e => .failed e
      | .ok dst =>
          match req.method with
          | .connect => .tunnel dst
          | .other _ => .forward dst
  | none => .badRequest "CONNECT must be to a socket address"

/-- The address that a request makes the proxy dial. -/
def Action.dials : Action → Option Address
  | .tunnel dst | .forward dst => some dst
  | .failed _ | .badRequest _ => none

/-! ## Authorities -/

/-- The characters of a registered name: unreserved ones, delimiters of parts, and the percent
sign of an encoded one. -/
def isRegNameChar (c : Char) : Bool := c.isAlphanum || "-._~%!$&'()*+,;=".toList.contains c

/-- A character of an IPv6 literal. -/
def isIpv6Char (c : Char) : Bool := c.isAlphanum || c = ':' || c = '.'

/-- A host: a registered name, or an IPv6 literal that `std` reads. -/
inductive Host (std : StdNet) where
  | name (text : String) (chars : ∀ c ∈ text.toList, isRegNameChar c = true)
  | ipv6 (literal : String) (ip : BitVec 128) (chars : ∀ c ∈ literal.toList, isIpv6Char c = true)
      (colon : ':' ∈ literal.toList) (parses : std.parseIp literal = some (.v6 ip))

/-- A decimal number below 65536. -/
structure Port where
  digits : List Char
  ne_nil : digits ≠ []
  isDigit : ∀ c ∈ digits, c.isDigit = true
  lt : Nat.ofDigitChars 10 digits 0 < 2 ^ 16

/-- An authority: `host` or `host:port`. -/
structure Authority (std : StdNet) where
  host : Host std
  port : Option Port

variable {std : StdNet}

/-- The host as it is written. -/
def Host.text : Host std → String
  | .name text _ => text
  | .ipv6 literal .. => "[" ++ literal ++ "]"

/-- The host at a port. -/
def Host.address (port : UInt16) : Host std → Address
  | .name text _ =>
      match std.parseIp text with
      | some ip => .socketAddr (.new ip port)
      | none => .domain text port
  | .ipv6 _ ip .. => .socketAddr (.v6 ip port 0 0)

def Host.IsIpv6 : Host std → Prop
  | .name .. => False
  | .ipv6 .. => True

/-- The number of a port. -/
def Port.value (port : Port) : UInt16 := UInt16.ofNat (Nat.ofDigitChars 10 port.digits 0)

/-- The authority as it is written. -/
def Authority.text (a : Authority std) : String :=
  match a.port with
  | some port => a.host.text ++ ":" ++ String.ofList port.digits
  | none => a.host.text

/-- **What the authority means**: its host at its port, 80 if there is none. -/
def Authority.address (a : Authority std) : Address :=
  a.host.address (a.port.elim 80 Port.value)

/-! ## Reading an authority -/

/-- A registered name has neither a colon nor a bracket. -/
theorem ne_of_isRegNameChar {c d : Char} (hc : isRegNameChar c = true)
    (hd : isRegNameChar d = false) : c ≠ d := by
  rintro rfl
  rw [hc] at hd
  cases hd

theorem stripBrackets_name {text : String} (chars : ∀ c ∈ text.toList, isRegNameChar c = true) :
    stripBrackets text = text := by
  unfold stripBrackets
  split
  next rest heq =>
      have hbracket := chars '[' (heq ▸ List.mem_cons_self)
      exact absurd rfl (ne_of_isRegNameChar hbracket (d := '[') (by decide))
  next => rfl

/-- **A host is read as the host it is**, in brackets or not. -/
theorem hostToAddress_text (host : Host std) (port : UInt16) :
    hostToAddress std host.text port = host.address port := by
  cases host with
  | name text chars =>
      cases hip : std.parseIp text with
      | none | some =>
          simp only [hostToAddress, Host.text, Host.address, stripBrackets_name chars, hip]
  | ipv6 literal ip chars colon parses =>
      unfold hostToAddress Host.text Host.address
      dsimp only
      rw [stripBrackets_brackets, parses]
      rfl

/-- A host and a port are read as what they are. -/
theorem fromStr_host_port (host : Host std) (port : Port) :
    Address.fromStr std (host.text ++ ":" ++ String.ofList port.digits)
      = .ok (host.address port.value) := by
  have hcolon : ':' ∉ port.digits := fun h =>
    ne_of_isDigit (port.isDigit _ h) (d := ':') (by decide) rfl
  have htext : (host.text ++ ":" ++ String.ofList port.digits).toList
      = host.text.toList ++ ':' :: port.digits := by
    simp [String.toList_append]
  simp only [Address.fromStr, htext, rsplitColon_append _ hcolon,
    parseU16_of_digits port.ne_nil port.isDigit port.lt, String.ofList_toList]
  rw [hostToAddress_text]
  rfl

/-- The port 80. -/
def Port.default : Port :=
  ⟨['8', '0'], by decide, List.all_eq_true.mp (by decide), by decide⟩

/-- A text with a character that is no digit is not a port, a plus sign apart. -/
theorem parseU16_eq_none {s : List Char} {c : Char} (hmem : c ∈ s) (hdigit : c.isDigit = false)
    (hplus : c ≠ '+') : parseU16 s = none := by
  have hall : ∀ digits : List Char, c ∈ digits → digits.all Char.isDigit = false := by
    intro digits hdigits
    rw [List.all_eq_false]
    exact ⟨c, hdigits, by simp [hdigit]⟩
  unfold parseU16
  split
  next rest =>
      have hrest := hall rest ((List.mem_cons.mp hmem).resolve_left hplus)
      simp [hrest]
  next => simp [hall s hmem]

/-- A text with a colon has a last one. -/
theorem exists_last_colon {s : List Char} (h : ':' ∈ s) :
    ∃ before after, s = before ++ ':' :: after ∧ ':' ∉ after := by
  obtain ⟨after, before, hreverse, hafter⟩ :=
    List.eq_append_cons_of_mem (List.mem_reverse.mpr h)
  refine ⟨before.reverse, after.reverse, ?_, fun hmem => hafter (List.mem_reverse.mp hmem)⟩
  rw [← List.reverse_reverse s, hreverse]
  simp

/-- **A literal without a port is not read**: what stands after its last colon ends with the
bracket. -/
theorem fromStr_literal {literal : String} (colon : ':' ∈ literal.toList) :
    Address.fromStr std ("[" ++ literal ++ "]") = .error noAddr := by
  -- cut the literal at its last colon
  obtain ⟨before, after, hsplit, hafter⟩ := exists_last_colon colon
  have htext : ("[" ++ literal ++ "]").toList
      = ('[' :: before) ++ ':' :: (after ++ [']']) := by
    simp [String.toList_append, hsplit]
  have hcolon : ':' ∉ after ++ [']'] := by
    simp [hafter]
  have hport : parseU16 (after ++ [']']) = none :=
    parseU16_eq_none (c := ']') (by simp) (by decide) (by decide)
  simp only [Address.fromStr, htext, rsplitColon_append _ hcolon, hport]

/-! ## What is dialled -/

/-- With a port there is a colon. -/
theorem colon_mem_text {a : Authority std} {port : Port} (h : a.port = some port) :
    ':' ∈ a.text.toList := by
  simp [Authority.text, h, String.toList_append]

theorem colon_notMem_name {text : String} (chars : ∀ c ∈ text.toList, isRegNameChar c = true) :
    ':' ∉ text.toList := fun h =>
  ne_of_isRegNameChar (chars _ h) (d := ':') (by decide) rfl

/-- The text that is read: the authority with the default port, if it has no colon. -/
theorem dials_proxy (req : Request) {authority : String} (h : req.authority = some authority) :
    (proxy std req).dials
      = (Address.fromStr std
          (if ':' ∈ authority.toList then authority else authority ++ ":80")).toOption := by
  unfold proxy hostAddr
  rw [h]
  dsimp only
  cases Address.fromStr std
      (if ':' ∈ authority.toList then authority else authority ++ ":80") with
  | error e => rfl
  | ok dst => cases req.method <;> rfl

/-- **When the proxy dials what it is told to.**  For every authority and every method: it dials
the host at the given port, and at port 80 if none is given, if and only if the host is not an
IPv6 literal without a port. -/
theorem proxy_dials_iff (std : StdNet) (method : Method) (a : Authority std) :
    (proxy std ⟨method, some a.text⟩).dials = some a.address ↔
      ¬ (a.host.IsIpv6 ∧ a.port = none) := by
  rw [dials_proxy _ rfl]
  obtain ⟨host, port⟩ := a
  cases port with
  | some port =>
      rw [if_pos (colon_mem_text rfl)]
      refine iff_of_true ?_ fun h => Option.some_ne_none _ h.2
      exact congrArg Except.toOption (fromStr_host_port host port)
  | none =>
      cases host with
      | name text chars =>
          rw [show Authority.text ⟨Host.name text chars, none⟩ = text from rfl,
            if_neg (colon_notMem_name chars)]
          refine iff_of_true ?_ fun h => h.1
          have hport := fromStr_host_port (.name text chars : Host std) .default
          rw [String.append_assoc] at hport
          exact congrArg Except.toOption hport
      | ipv6 literal ip chars colon parses =>
          have hmem : ':' ∈ ("[" ++ literal ++ "]").toList := by
            simp [String.toList_append, colon]
          rw [show Authority.text ⟨Host.ipv6 literal ip chars colon parses, none⟩
            = "[" ++ literal ++ "]" from rfl, if_pos hmem, fromStr_literal colon]
          refine iff_of_false (fun h => ?_) fun h => h ⟨trivial, rfl⟩
          cases h

/-- A `std` that reads the loopback address. -/
def loopback : StdNet := ⟨fun s => if s = "::1" then some (.v6 1) else none, fun _ => none⟩

/-- The authority `[::1]`. -/
def loopbackAuthority : Authority loopback :=
  ⟨.ipv6 "::1" 1 (List.all_eq_true.mp (by decide)) (by decide) (by decide), none⟩

/-- **A request for `http://[::1]/` fails**: what is read as its port is `1]`. -/
theorem literal_without_port_fails :
    loopbackAuthority.text = "[::1]" ∧
      loopbackAuthority.address = .socketAddr (.v6 1 80 0 0) ∧
      proxy loopback ⟨.other "GET", some "[::1]"⟩ = .failed noAddr ∧
      proxy loopback ⟨.other "GET", some "[::1]:80"⟩ = .forward (.socketAddr (.v6 1 80 0 0)) := by
  decide

end RabbitDigger.Http
