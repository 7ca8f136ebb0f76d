import RabbitDigger.Interface.Basic

/-!
# Addresses

`rd-interface/src/address.rs`: an `Address` is a socket address or a domain with
a port, and `normalize` turns a domain that spells an IP address into the socket
address it stands for.

What `std::net` does with text is a parameter, `StdNet`: nothing here depends on
the grammar of IP addresses, only on parsing being a function.

The derived `Ord` of these types is modelled too, because the cache of the rule
net is keyed by it, and so is the one of the UDP forwarder.  It is the order of
all fields, so addresses that it does not separate are equal (`SocketAddr.cmp_eq`).
-/

namespace RabbitDigger

/-- `std::net::IpAddr`. -/
inductive IpAddr where
  | v4 (bits : BitVec 32)
  | v6 (bits : BitVec 128)
deriving Repr, DecidableEq

/-- `std::net::SocketAddr`. -/
inductive SocketAddr where
  | v4 (ip : BitVec 32) (port : UInt16)
  | v6 (ip : BitVec 128) (port : UInt16) (flowinfo scopeId : UInt32)
deriving Repr, DecidableEq

namespace SocketAddr

/-- `SocketAddr::new`: no flow information, no scope. -/
def new : IpAddr → UInt16 → SocketAddr
  | .v4 ip, port => .v4 ip port
  | .v6 ip, port => .v6 ip port 0 0

/-- `SocketAddr::ip`. -/
def ip : SocketAddr → IpAddr
  | .v4 ip _ => .v4 ip
  | .v6 ip _ _ _ => .v6 ip

/-- `SocketAddr::port`. -/
def port : SocketAddr → UInt16
  | .v4 _ port => port
  | .v6 _ port _ _ => port

end SocketAddr

/-- The text forms of `std::net` that the code parses. -/
structure StdNet where
  /-- `str::parse::<IpAddr>`. -/
  parseIp : String → Option IpAddr
  /-- `str::parse::<SocketAddr>`. -/
  parseSocketAddr : String → Option SocketAddr

/-- An address represents a network address using domain. -/
structure AddressDomain where
  domain : String
  port : UInt16
deriving Repr, DecidableEq

/-- Address can be IPv4, IPv6 address or a domain with port. -/
inductive Address where
  | socketAddr (addr : SocketAddr)
  | domain (name : String) (port : UInt16)
deriving Repr, DecidableEq

/-- `no_addr`. -/
def noAddr : IoError := { kind := .addrNotAvailable }

/-! ## Parsing -/

/-- `str::parse::<u16>`: an optional `+`, then decimal digits, below `2^16`. -/
def parseU16 (s : List Char) : Option UInt16 :=
  let digits := match s with
    | '+' :: rest => rest
    | _ => s
  if digits.isEmpty ∨ ¬ digits.all Char.isDigit then none
  else
    let n := digits.foldl (fun n c => 10 * n + (c.toNat - '0'.toNat)) 0
    if n < 2 ^ 16 then some (UInt16.ofNat n) else none

/-- `rsplitn(2, ':')`: the part after the last `:`, and the part before it if
there is a `:` at all. -/
def rsplitColon (s : List Char) : List Char × Option (List Char) :=
  let tail := s.reverse.takeWhile (· ≠ ':')
  match s.reverse.dropWhile (· ≠ ':') with
  | [] => (tail.reverse, none)
  | _ :: rest => (tail.reverse, some rest.reverse)

/-- `AddressDomain::from_str`. -/
def AddressDomain.fromStr (s : String) : IoResult AddressDomain :=
  match rsplitColon s.toList with
  | (port, host) =>
      match parseU16 port with
      | none => .error noAddr
      | some port =>
          match host with
          | none => .error noAddr
          | some host => .ok { domain := String.ofList host, port := port }

/-- `strip_brackets`: the text between `[` and `]` if the host has both. -/
def stripBrackets (host : String) : String :=
  match host.toList with
  | '[' :: rest =>
      if rest.getLast? = some ']' then String.ofList rest.dropLast else host
  | _ => host

namespace Address

/-- `normalize`: parse domain first, if it can be parsed as IP address, then
return it, otherwise return the original domain. -/
def normalize (std : StdNet) : Address → SocketAddr ⊕ (String × UInt16)
  | .socketAddr s => .inl s
  | .domain d p =>
      match std.parseIp (stripBrackets d) with
      | some ip => .inl (SocketAddr.new ip p)
      | none => .inr (d, p)

/-- `to_normalized`. -/
def toNormalized (std : StdNet) (addr : Address) : Address :=
  match addr.normalize std with
  | .inl s => .socketAddr s
  | .inr (d, p) => .domain d p

/-- `to_socket_addr`: the socket address of an `Address` that can be converted
to one, `AddrNotAvailable` otherwise. -/
def toSocketAddr (std : StdNet) (addr : Address) : IoResult SocketAddr :=
  match addr.normalize std with
  | .inl s => .ok s
  | .inr _ => .error noAddr

/-- `any_addr_port`: `0.0.0.0:0` or `[::]:0` by the family of the given address. -/
def anyAddrPort : SocketAddr → Address
  | .v4 _ _ => .socketAddr (.new (.v4 0) 0)
  | .v6 _ _ _ _ => .socketAddr (.new (.v6 0) 0)

/-- `to_any_addr_port`: the same for an `Address` that can be converted to a socket address. -/
def toAnyAddrPort (std : StdNet) (addr : Address) : IoResult Address :=
  match addr.normalize std with
  | .inl s => .ok (anyAddrPort s)
  | .inr _ => .error noAddr

end Address

/-! ## The derived order -/

/-- The derived `Ord` of `IpAddr`. -/
def IpAddr.cmp : IpAddr → IpAddr → Ordering
  | .v4 a, .v4 b => compare a b
  | .v4 _, .v6 _ => .lt
  | .v6 _, .v4 _ => .gt
  | .v6 a, .v6 b => compare a b

/-- The derived `Ord` of `SocketAddr`. -/
def SocketAddr.cmp : SocketAddr → SocketAddr → Ordering
  | .v4 a p, .v4 b q => (compare a b).then (compare p q)
  | .v4 _ _, .v6 _ _ _ _ => .lt
  | .v6 _ _ _ _, .v4 _ _ => .gt
  | .v6 a p f s, .v6 b q g t =>
      (compare a b).then ((compare p q).then ((compare f g).then (compare s t)))

/-- The derived `Ord` of `AddressDomain`. -/
def AddressDomain.cmp (a b : AddressDomain) : Ordering :=
  (compare a.domain b.domain).then (compare a.port b.port)

/-- The derived `Ord` of `Address`. -/
def Address.cmp : Address → Address → Ordering
  | .socketAddr a, .socketAddr b => a.cmp b
  | .socketAddr _, .domain _ _ => .lt
  | .domain _ _, .socketAddr _ => .gt
  | .domain a p, .domain b q => (compare a b).then (compare p q)

/-- The derived `Ord` of an `Option`. -/
def cmpOption {α : Type} (cmp : α → α → Ordering) : Option α → Option α → Ordering
  | none, none => .eq
  | none, some _ => .lt
  | some _, none => .gt
  | some a, some b => cmp a b

theorem IpAddr.cmp_eq {a b : IpAddr} (h : a.cmp b = .eq) : a = b := by
  cases a <;> cases b <;> simp_all [IpAddr.cmp]

theorem SocketAddr.cmp_eq {a b : SocketAddr} (h : a.cmp b = .eq) : a = b := by
  cases a <;> cases b <;> simp_all [SocketAddr.cmp]

theorem SocketAddr.cmp_self (a : SocketAddr) : a.cmp a = .eq := by
  cases a <;> simp [SocketAddr.cmp]

theorem AddressDomain.cmp_eq {a b : AddressDomain} (h : a.cmp b = .eq) : a = b := by
  cases a
  cases b
  simp_all [AddressDomain.cmp]

theorem cmpOption_eq {α : Type} {cmp : α → α → Ordering} {a b : Option α}
    (h : cmpOption cmp a b = .eq) :
    (a = none ∧ b = none) ∨ ∃ x y, a = some x ∧ b = some y ∧ cmp x y = .eq := by
  cases a with
  | none | some => cases b <;> simp_all [cmpOption]

end RabbitDigger
