import Mathlib.Data.List.Infix
import RabbitDigger.Interface.Context

/-!
# Matchers

`rd-std/src/rule`: what a rule looks at (`MatchContext`) and the five matchers.

The crates behind the IP matchers are parameters (`MatcherDeps`): CIDR blocks
and their membership test are `smoltcp`'s, the country lookup is `maxminddb`'s,
a function of the address.

`MatchContext.cmp` is the derived order that keys the cache of the rule net.
It is coarser than equality, and `Matcher.matchRule_congr` is the reason that
this does no harm: **no matcher can tell two contexts apart that the order does
not separate**.
-/

namespace RabbitDigger

/-! ## What a rule looks at -/

/-- `MatchContext`. -/
structure MatchContext where
  address : Address
  srcIpAddr : Option IpAddr
  destSocketAddr : Option SocketAddr
  destDomain : Option AddressDomain
deriving Repr, DecidableEq

namespace MatchContext

/-- `from_context_address`: the normalized address and the three common fields;
the first field that does not decode is the error. -/
def fromContextAddress (std : StdNet) (ctx : Context) (addr : Address) :
    Except Error MatchContext := do
  let src ← (ctx.getCommon std .srcSocketAddr).mapError Error.context
  let destSocket ← (ctx.getCommon std .destSocketAddr).mapError Error.context
  let destDomain ← (ctx.getCommon std .destDomain).mapError Error.context
  return {
    address := addr.toNormalized std
    srcIpAddr := src.map SocketAddr.ip
    destSocketAddr := destSocket
    destDomain := destDomain }

/-- `get_domain`: the domain of the address, else the one of the context. -/
def getDomain (mc : MatchContext) : Option (String × UInt16) :=
  match mc.address with
  | .domain d p => some (d, p)
  | .socketAddr _ =>
      match mc.destDomain with
      | some dd => some (dd.domain, dd.port)
      | none => none

/-- `get_socket_addr`: the socket address of the address, else the one of the
context. -/
def getSocketAddr (std : StdNet) (mc : MatchContext) : Option SocketAddr :=
  match mc.address with
  | .socketAddr addr => some addr
  | .domain d p =>
      match (Address.domain d p).toSocketAddr std with
      | .ok addr => some addr
      | .error _ => mc.destSocketAddr

/-- The derived `Ord`. -/
def cmp (a b : MatchContext) : Ordering :=
  (a.address.cmp b.address).then
    ((cmpOption IpAddr.cmp a.srcIpAddr b.srcIpAddr).then
      ((cmpOption SocketAddr.cmp a.destSocketAddr b.destSocketAddr).then
        (cmpOption AddressDomain.cmp a.destDomain b.destDomain)))

end MatchContext

/-! ## The matchers -/

/-- `DomainMatcherMethod`. -/
inductive DomainMatcherMethod where
  | keyword
  | suffix
  | match
deriving Repr, DecidableEq

/-- `DomainMatcher`. -/
structure DomainMatcher where
  method : DomainMatcherMethod
  domain : List String
deriving Repr, DecidableEq

/-- `SingleOrVec`. -/
inductive SingleOrVec (α : Type) where
  | single (item : α)
  | vec (items : List α)
deriving Repr

/-- `SingleOrVec::iter`. -/
def SingleOrVec.iter {α : Type} : SingleOrVec α → List α
  | .single item => [item]
  | .vec items => items

/-- What `maxminddb` answers for an IP: an entry with or without a country code,
no entry, or another error. -/
inductive GeoLookup where
  | country (isoCode : Option String)
  | addressNotFound
  | failed
deriving Repr, DecidableEq

/-- The crates behind the IP matchers. -/
structure MatcherDeps where
  std : StdNet
  /-- `smoltcp::wire::IpCidr`. -/
  Cidr : Type
  /-- `IpCidr::contains_addr`. -/
  containsAddr : Cidr → IpAddr → Bool
  /-- `Reader::lookup::<geoip2::Country>`. -/
  geoLookup : IpAddr → GeoLookup

/-- `config::Matcher`. -/
inductive Matcher (deps : MatcherDeps) where
  | domain (matcher : DomainMatcher)
  | ipCidr (ipcidr : SingleOrVec deps.Cidr)
  | srcIpCidr (ipcidr : SingleOrVec deps.Cidr)
  | geoIp (country : String)
  | any

/-- `DomainMatcher::test`. -/
def DomainMatcher.test (m : DomainMatcher) (domain : String) : Bool :=
  match m.method with
  | .keyword => m.domain.any fun d => d.toList <:+: domain.toList
  | .match =>
      m.domain.any fun d =>
        match d.toList with
        | '+' :: '.' :: rest =>
            -- `strip_prefix('+')` leaves the dot in place, `strip_prefix("+.")` does not
            decide ('.' :: rest <:+ domain.toList) || decide (domain.toList = rest)
        | _ => domain = d
  | .suffix => m.domain.any fun d => d.toList <:+ domain.toList

namespace Matcher

variable {deps : MatcherDeps}

/-- `IpCidrMatcher::test`, and `SrcIpCidrMatcher::test`. -/
def testCidr (ipcidr : SingleOrVec deps.Cidr) (ip : IpAddr) : Bool :=
  ipcidr.iter.any fun cidr => deps.containsAddr cidr ip

/-- `GeoIpMatcher::test`: an address without an entry belongs to the country
with the empty name. -/
def testGeoIp (deps : MatcherDeps) (country : String) (ip : IpAddr) : Bool :=
  match deps.geoLookup ip with
  | .country (some code) => code = country
  | .addressNotFound => country = ""
  | .failed | .country none => false

/-- `match_rule`. -/
def matchRule (m : Matcher deps) (mc : MatchContext) : Bool :=
  match m with
  | .domain matcher =>
      match mc.getDomain with
      | some (name, _) => matcher.test name
      | none => false
  | .ipCidr ipcidr =>
      match mc.getSocketAddr deps.std with
      | some addr => testCidr ipcidr addr.ip
      | none => false
  | .srcIpCidr ipcidr =>
      match mc.srcIpAddr with
      | some addr => testCidr ipcidr addr
      | none => false
  | .geoIp country =>
      match mc.getSocketAddr deps.std with
      | some addr => testGeoIp deps country addr.ip
      | none => false
  | .any => true

end Matcher

/-! ## The order separates everything the matchers look at -/

namespace MatchContext

variable {a b : MatchContext}

/-- What the order's verdict `eq` means, field by field. -/
theorem fields_of_cmp_eq (h : a.cmp b = .eq) :
    a.address.cmp b.address = .eq ∧ a.srcIpAddr = b.srcIpAddr ∧
      cmpOption SocketAddr.cmp a.destSocketAddr b.destSocketAddr = .eq ∧
      a.destDomain = b.destDomain := by
  simp only [cmp, Ordering.then_eq_eq] at h
  obtain ⟨haddr, hsrc, hsock, hdom⟩ := h
  refine ⟨haddr, ?_, hsock, ?_⟩
  · rcases cmpOption_eq hsrc with ⟨ha, hb⟩ | ⟨x, y, ha, hb, hxy⟩
    · rw [ha, hb]
    · rw [ha, hb, IpAddr.cmp_eq hxy]
  · rcases cmpOption_eq hdom with ⟨ha, hb⟩ | ⟨x, y, ha, hb, hxy⟩
    · rw [ha, hb]
    · rw [ha, hb, AddressDomain.cmp_eq hxy]

theorem getDomain_congr (h : a.cmp b = .eq) : a.getDomain = b.getDomain := by
  obtain ⟨haddr, -, -, hdom⟩ := fields_of_cmp_eq h
  unfold getDomain
  cases ha : a.address with
  | domain d p =>
      cases hb : b.address with
      | domain e q => simp_all [Address.cmp]
      | socketAddr t => simp [ha, hb, Address.cmp] at haddr
  | socketAddr s =>
      cases hb : b.address with
      | domain e q => simp [ha, hb, Address.cmp] at haddr
      | socketAddr t => rw [hdom]

/-- Only the IP of the socket address is the same on both sides: a scope id may
differ. -/
theorem getSocketAddr_ip_congr (std : StdNet) (h : a.cmp b = .eq) :
    (a.getSocketAddr std).map SocketAddr.ip
      = (b.getSocketAddr std).map SocketAddr.ip := by
  obtain ⟨haddr, -, hsock, -⟩ := fields_of_cmp_eq h
  have hcontext : a.destSocketAddr.map SocketAddr.ip
      = b.destSocketAddr.map SocketAddr.ip := by
    rcases cmpOption_eq hsock with ⟨ha, hb⟩ | ⟨x, y, ha, hb, hxy⟩
    · rw [ha, hb]
    · rw [ha, hb, Option.map_some, Option.map_some, SocketAddr.cmp_eq hxy]
  unfold getSocketAddr
  cases ha : a.address with
  | domain d p =>
      cases hb : b.address with
      | socketAddr t => simp [ha, hb, Address.cmp] at haddr
      | domain e q =>
          have heq : d = e ∧ p = q := by simpa [ha, hb, Address.cmp] using haddr
          obtain ⟨rfl, rfl⟩ := heq
          dsimp only
          cases (Address.domain d p).toSocketAddr std with
          | ok addr => rfl
          | error _ => exact hcontext
  | socketAddr s =>
      cases hb : b.address with
      | domain e q => simp [ha, hb, Address.cmp] at haddr
      | socketAddr t =>
          have hst : s.cmp t = .eq := by simpa [ha, hb, Address.cmp] using haddr
          simp [SocketAddr.cmp_eq hst]

end MatchContext

namespace Matcher

variable {deps : MatcherDeps}

/-- The destination matchers test the IP of the socket address, if there is
one. -/
theorem matchRule_ipCidr (ipcidr : SingleOrVec deps.Cidr) (mc : MatchContext) :
    (Matcher.ipCidr ipcidr).matchRule mc
      = ((mc.getSocketAddr deps.std).map SocketAddr.ip).any (testCidr ipcidr) := by
  simp only [matchRule]
  cases mc.getSocketAddr deps.std <;> rfl

theorem matchRule_geoIp (country : String) (mc : MatchContext) :
    (Matcher.geoIp country : Matcher deps).matchRule mc
      = ((mc.getSocketAddr deps.std).map SocketAddr.ip).any
          (testGeoIp deps country) := by
  simp only [matchRule]
  cases mc.getSocketAddr deps.std <;> rfl

/-- **No matcher separates contexts that the order does not separate.** -/
theorem matchRule_congr (m : Matcher deps) {a b : MatchContext}
    (h : a.cmp b = .eq) : m.matchRule a = m.matchRule b := by
  cases m with
  | domain matcher => simp only [matchRule, MatchContext.getDomain_congr h]
  | ipCidr ipcidr =>
      rw [matchRule_ipCidr, matchRule_ipCidr,
        MatchContext.getSocketAddr_ip_congr deps.std h]
  | srcIpCidr ipcidr =>
      simp only [matchRule, (MatchContext.fields_of_cmp_eq h).2.1]
  | geoIp country =>
      rw [matchRule_geoIp, matchRule_geoIp,
        MatchContext.getSocketAddr_ip_congr deps.std h]
  | any => rfl

end Matcher

end RabbitDigger
