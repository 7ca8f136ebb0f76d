import Mathlib.Data.List.TakeWhile
import RabbitDigger.Interface.Address

/-!
# Addresses as text

`Display`, `FromStr` and `IntoAddress` of `rd-interface/src/address.rs`.

An address is printed as a host, a colon and a port, and read back by a split at **the last
colon**.  A printed port has no colon, so the split finds the colon that was printed,
whatever the host looks like (`rsplitColon_print`): a domain may contain colons, and so does
every IPv6 address.  What comes back is not the address that was printed but its normal
form, for a domain that spells an IP address is read as this IP address.

The digits of a port and of the four numbers of an IPv4 address are printed here.  The text
of an IPv6 address is left to `std`, a parameter `StdText`.  What is assumed of `std` is that
it reads the IP addresses it prints (`StdNet.ReadsIp`).  A flow label is never printed, and a
scope id only inside of the brackets of a socket address.
-/

namespace RabbitDigger

/-- The text forms of `std::net` that the code prints and that are not spelled out here. -/
structure StdText where
  /-- `Display for Ipv6Addr`. -/
  ipv6 : BitVec 128 → String

/-! ## Printing -/

/-- `Display for u16`. -/
def showU16 (n : UInt16) : String := n.toNat.repr

/-- `Display for Ipv4Addr`: four numbers with dots between them. -/
def showIpv4 (ip : BitVec 32) : String :=
  let octet (start : ℕ) : String := (ip.extractLsb' start 8).toNat.repr
  octet 24 ++ "." ++ octet 16 ++ "." ++ octet 8 ++ "." ++ octet 0

/-- `Display for SocketAddr`: the scope is printed unless it is zero, the flow label never. -/
def SocketAddr.display (text : StdText) : SocketAddr → String
  | .v4 ip port => showIpv4 ip ++ ":" ++ showU16 port
  | .v6 ip port _ scopeId =>
      if scopeId = 0 then "[" ++ text.ipv6 ip ++ "]" ++ ":" ++ showU16 port
      else "[" ++ text.ipv6 ip ++ "%" ++ scopeId.toNat.repr ++ "]" ++ ":" ++ showU16 port

/-- `Display for AddressDomain`. -/
def AddressDomain.display (a : AddressDomain) : String := a.domain ++ ":" ++ showU16 a.port

namespace Address

/-- `Display for Address`. -/
def display (text : StdText) : Address → String
  | .domain d p => d ++ ":" ++ showU16 p
  | .socketAddr s => s.display text

/-- `host`: an IPv6 address stands in brackets. -/
def host (text : StdText) : Address → String
  | .socketAddr (.v4 ip _) => showIpv4 ip
  | .socketAddr (.v6 ip _ _ _) => "[" ++ text.ipv6 ip ++ "]"
  | .domain d _ => d

/-- `port`. -/
def port : Address → UInt16
  | .socketAddr s => s.port
  | .domain _ p => p

end Address

/-! ## Parsing -/

/-- `host_to_address`. -/
def hostToAddress (std : StdNet) (host : String) (port : UInt16) : Address :=
  match std.parseIp (stripBrackets host) with
  | some ip => .socketAddr (.new ip port)
  | none => .domain host port

namespace Address

/-- `IntoAddress for &str`, and `FromStr for Address`. -/
def fromStr (std : StdNet) (s : String) : IoResult Address :=
  match rsplitColon s.toList with
  | (port, host) =>
      match parseU16 port with
      | none => .error noAddr
      | some port =>
          match host with
          | none => .error noAddr
          | some host => .ok (hostToAddress std (String.ofList host) port)

/-- `IntoAddress for (&str, u16)`, and for `(String, u16)`. -/
def ofHostPort (std : StdNet) (pair : String × UInt16) : IoResult Address :=
  .ok (hostToAddress std pair.1 pair.2)

/-- Neither a flow label nor a scope id. -/
def Plain : Address → Prop
  | .socketAddr (.v6 _ _ flowinfo scopeId) => flowinfo = 0 ∧ scopeId = 0
  | _ => True

end Address

/-- **What is assumed of `std`**: it reads the IP addresses that it prints. -/
structure StdNet.ReadsIp (std : StdNet) (text : StdText) : Prop where
  ipv4 : ∀ ip, std.parseIp (showIpv4 ip) = some (.v4 ip)
  ipv6 : ∀ ip, std.parseIp (text.ipv6 ip) = some (.v6 ip)

/-- A socket address as far as it is printed. -/
def SocketAddr.dropFlowinfo : SocketAddr → SocketAddr
  | .v4 ip port => .v4 ip port
  | .v6 ip port _ scopeId => .v6 ip port 0 scopeId

/-- `std` reads the socket addresses that it prints.  The flow label is not printed, so this
can only be asked of addresses without one. -/
def StdNet.ReadsSocketAddr (std : StdNet) (text : StdText) : Prop :=
  ∀ s : SocketAddr, s.dropFlowinfo = s → std.parseSocketAddr (s.display text) = some s

/-- What is read back lacks the flow label, and nothing else. -/
theorem StdNet.ReadsSocketAddr.parse_display {std : StdNet} {text : StdText}
    (laws : std.ReadsSocketAddr text) (s : SocketAddr) :
    std.parseSocketAddr (s.display text) = some s.dropFlowinfo := by
  cases s with
  | v4 ip port => exact laws (.v4 ip port) rfl
  | v6 ip port flowinfo scopeId => exact laws (.v6 ip port 0 scopeId) rfl

/-! ## Ports -/

/-- A digit is neither a plus sign nor a colon. -/
theorem ne_of_isDigit {c d : Char} (hc : c.isDigit = true) (hd : d.isDigit = false) : c ≠ d := by
  rintro rfl
  exact absurd hc (by simp [hd])

/-- Digits are read as the number they stand for, leading zeros or not. -/
theorem parseU16_of_digits {digits : List Char} (hne : digits ≠ [])
    (hdigit : ∀ c ∈ digits, c.isDigit = true) (h : Nat.ofDigitChars 10 digits 0 < 2 ^ 16) :
    parseU16 digits = some (UInt16.ofNat (Nat.ofDigitChars 10 digits 0)) := by
  cases digits with
  | nil => exact absurd rfl hne
  | cons c cs =>
      -- the first digit is no plus sign, so all of the text is digits
      have hplus : c ≠ '+' := ne_of_isDigit (hdigit c (List.mem_cons_self ..)) (by decide)
      have hall : (c :: cs).all Char.isDigit = true := List.all_eq_true.mpr hdigit
      rw [Nat.ofDigitChars_eq_foldl] at h
      rw [Nat.ofDigitChars_eq_foldl]
      unfold parseU16
      split
      next rest heq => exact absurd (List.cons.inj heq).1 hplus
      next => simp only [hall, h, List.isEmpty_cons]; simp

/-- The digits of a number are read as this number. -/
theorem parseU16_toDigits {n : ℕ} (h : n < 2 ^ 16) :
    parseU16 (Nat.toDigits 10 n) = some (UInt16.ofNat n) := by
  have hvalue : Nat.ofDigitChars 10 (Nat.toDigits 10 n) 0 = n := Nat.ofDigitChars_ten_toDigits
  rw [parseU16_of_digits Nat.toDigits_ne_nil
    (fun c hc => Nat.isDigit_of_mem_toDigits (by decide) (by decide) hc) (by rwa [hvalue]), hvalue]

theorem parseU16_showU16 (port : UInt16) : parseU16 (showU16 port).toList = some port := by
  rw [showU16, Nat.toList_repr, parseU16_toDigits port.toNat_lt, UInt16.ofNat_toNat]

theorem colon_notMem_showU16 (port : UInt16) : ':' ∉ (showU16 port).toList := by
  rw [showU16, Nat.toList_repr]
  intro h
  have := Nat.isDigit_of_mem_toDigits (by decide) (by decide) h
  exact absurd this (by decide)

/-! ## The split at the last colon -/

/-- What stands after the last colon is found again. -/
theorem rsplitColon_append (host : List Char) {port : List Char} (h : ':' ∉ port) :
    rsplitColon (host ++ ':' :: port) = (port, some host) := by
  have hport : ∀ c ∈ port.reverse, (decide (c ≠ ':')) = true := by
    intro c hc
    have : c ≠ ':' := fun heq => h (heq ▸ List.mem_reverse.mp hc)
    simpa using this
  unfold rsplitColon
  rw [List.reverse_append, List.reverse_cons, List.append_assoc, List.singleton_append,
    List.takeWhile_append_of_pos hport, List.dropWhile_append_of_pos hport]
  simp

/-- **The split finds the colon that was printed**, whatever the host. -/
theorem rsplitColon_print (host : String) (port : UInt16) :
    rsplitColon (host ++ ":" ++ showU16 port).toList
      = ((showU16 port).toList, some host.toList) := by
  have htext : (host ++ ":" ++ showU16 port).toList
      = host.toList ++ ':' :: (showU16 port).toList := by
    simp [String.toList_append]
  rw [htext, rsplitColon_append _ (colon_notMem_showU16 port)]

/-- `AddressDomain::from_str` undoes its `Display`. -/
theorem AddressDomain.fromStr_print (host : String) (port : UInt16) :
    AddressDomain.fromStr (host ++ ":" ++ showU16 port) = .ok ⟨host, port⟩ := by
  simp only [AddressDomain.fromStr, rsplitColon_print, parseU16_showU16, String.ofList_toList]

/-- A printed host and port are read by `host_to_address`. -/
theorem Address.fromStr_print (std : StdNet) (host : String) (port : UInt16) :
    Address.fromStr std (host ++ ":" ++ showU16 port) = .ok (hostToAddress std host port) := by
  simp only [Address.fromStr, rsplitColon_print, parseU16_showU16, String.ofList_toList]

/-! ## Brackets -/

theorem stripBrackets_brackets (s : String) : stripBrackets ("[" ++ s ++ "]") = s := by
  have htext : ("[" ++ s ++ "]").toList = '[' :: (s.toList ++ [']']) := by
    simp [String.toList_append]
  simp only [stripBrackets, htext, List.getLast?_append, List.getLast?_singleton,
    List.dropLast_concat, String.ofList_toList]
  simp

/-- A text that begins with a digit has no brackets to strip. -/
theorem stripBrackets_of_isDigit {s : String} {c : Char} {cs : List Char}
    (hs : s.toList = c :: cs) (hc : c.isDigit = true) : stripBrackets s = s := by
  have hbracket : c ≠ '[' := ne_of_isDigit hc (by decide)
  unfold stripBrackets
  rw [hs]
  split
  next rest heq => exact absurd (List.cons.inj heq).1 hbracket
  next => rfl

/-- The text of an IPv4 address begins with a digit. -/
theorem exists_showIpv4_eq (ip : BitVec 32) :
    ∃ c cs, (showIpv4 ip).toList = c :: cs ∧ c.isDigit = true := by
  have hne : Nat.toDigits 10 (ip.extractLsb' 24 8).toNat ≠ [] := Nat.toDigits_ne_nil
  obtain ⟨c, cs, hcons⟩ := List.exists_cons_of_ne_nil hne
  refine ⟨c, (showIpv4 ip).toList.tail, ?_, ?_⟩
  · simp only [showIpv4, String.toList_append, Nat.toList_repr, hcons]
    rfl
  · apply Nat.isDigit_of_mem_toDigits (b := 10) (by decide) (by decide)
    rw [hcons]
    exact List.mem_cons_self ..

theorem stripBrackets_showIpv4 (ip : BitVec 32) : stripBrackets (showIpv4 ip) = showIpv4 ip := by
  obtain ⟨c, cs, hcons, hc⟩ := exists_showIpv4_eq ip
  exact stripBrackets_of_isDigit hcons hc

/-! ## Printing, parsing and normal forms -/

namespace Address

variable {std : StdNet} {text : StdText}

/-- The normal form of a domain is what `host_to_address` makes of it. -/
theorem hostToAddress_eq (std : StdNet) (d : String) (p : UInt16) :
    hostToAddress std d p = (Address.domain d p).toNormalized std := by
  simp only [hostToAddress, toNormalized, normalize]
  cases std.parseIp (stripBrackets d) <;> rfl

/-- A socket address is its own normal form. -/
theorem toNormalized_socketAddr (std : StdNet) (s : SocketAddr) :
    (Address.socketAddr s).toNormalized std = .socketAddr s := rfl

/-- **The host of an address is read as its normal form.** -/
theorem hostToAddress_host (laws : std.ReadsIp text) {a : Address} (h : a.Plain) :
    hostToAddress std (a.host text) a.port = a.toNormalized std := by
  cases a with
  | domain d p => exact hostToAddress_eq std d p
  | socketAddr s =>
      rw [toNormalized_socketAddr]
      cases s with
      | v4 ip port =>
          have hip : std.parseIp (stripBrackets (showIpv4 ip)) = some (.v4 ip) := by
            rw [stripBrackets_showIpv4]
            exact laws.ipv4 ip
          simp only [hostToAddress, host, hip]
          rfl
      | v6 ip port flowinfo scopeId =>
          obtain ⟨rfl, rfl⟩ : flowinfo = 0 ∧ scopeId = 0 := h
          have hip : std.parseIp (stripBrackets ("[" ++ text.ipv6 ip ++ "]")) = some (.v6 ip) := by
            rw [stripBrackets_brackets]
            exact laws.ipv6 ip
          simp only [hostToAddress, host, hip]
          rfl

/-- An address is printed as its host, a colon and its port. -/
theorem display_eq (text : StdText) {a : Address} (h : a.Plain) :
    a.display text = a.host text ++ ":" ++ showU16 a.port := by
  cases a with
  | domain d p => rfl
  | socketAddr s =>
      cases s with
      | v4 ip port => rfl
      | v6 ip port flowinfo scopeId =>
          obtain ⟨rfl, rfl⟩ : flowinfo = 0 ∧ scopeId = 0 := h
          rfl

/-- **A printed address is read as its normal form.** -/
theorem fromStr_display (laws : std.ReadsIp text) {a : Address} (h : a.Plain) :
    fromStr std (a.display text) = .ok (a.toNormalized std) := by
  rw [display_eq text h, fromStr_print, hostToAddress_host laws h]

/-- Normalizing twice is normalizing once: a domain that is left does not spell an IP
address. -/
theorem toNormalized_toNormalized (std : StdNet) (a : Address) :
    (a.toNormalized std).toNormalized std = a.toNormalized std := by
  cases a with
  | socketAddr s => rfl
  | domain d p =>
      cases hip : std.parseIp (stripBrackets d) with
      | none | some => simp only [toNormalized, normalize, hip]

/-- `SocketAddr::new` sets neither a flow label nor a scope id. -/
theorem plain_new (ip : IpAddr) (port : UInt16) : (Address.socketAddr (.new ip port)).Plain := by
  cases ip with
  | v4 ip => trivial
  | v6 ip => exact ⟨rfl, rfl⟩

/-- What is parsed is the normal form of a domain. -/
theorem exists_of_fromStr_eq_ok {s : String} {b : Address} (h : fromStr std s = .ok b) :
    ∃ d p, b = (Address.domain d p).toNormalized std := by
  unfold fromStr at h
  cases hport : parseU16 (rsplitColon s.toList).1 with
  | none => simp [hport] at h
  | some port =>
      cases hhost : (rsplitColon s.toList).2 with
      | none => simp [hport, hhost] at h
      | some host =>
          have hb : hostToAddress std (String.ofList host) port = b := by
            simpa [hport, hhost] using h
          exact ⟨String.ofList host, port, hb ▸ hostToAddress_eq std _ _⟩

/-- The normal form of a domain has neither a flow label nor a scope id. -/
theorem plain_toNormalized_domain (std : StdNet) (d : String) (p : UInt16) :
    ((Address.domain d p).toNormalized std).Plain := by
  cases hip : std.parseIp (stripBrackets d) with
  | none => simp only [toNormalized, normalize, hip, Plain]
  | some ip =>
      simp only [toNormalized, normalize, hip]
      exact plain_new ip p

end Address

/-! ## The assumptions can be met

A `std` that writes an IPv6 address as a colon and a number reads all that it prints. -/

namespace Numeric

/-- A number without a sign. -/
def parseNat (s : List Char) : Option ℕ :=
  if s ≠ [] ∧ s.all Char.isDigit then some (Nat.ofDigitChars 10 s 0) else none

/-- Four numbers with dots between them. -/
def parseIpv4 (s : List Char) : Option (BitVec 32) :=
  match (s.splitOn '.').map parseNat with
  | [some a, some b, some c, some d] =>
      some (BitVec.ofNat 32 (a * 2 ^ 24 + b * 2 ^ 16 + c * 2 ^ 8 + d))
  | _ => none

/-- A colon and a number. -/
def parseIpv6 : List Char → Option (BitVec 128)
  | ':' :: digits => (parseNat digits).map (BitVec.ofNat 128)
  | _ => none

/-- The scope, if there is one. -/
def parseScope : List Char → Option UInt32
  | [] => some 0
  | _ :: digits => (parseNat digits).map UInt32.ofNat

/-- A host and a port; an IPv6 host stands in brackets, with its scope. -/
def parseSocketAddr (s : String) : Option SocketAddr :=
  match rsplitColon s.toList with
  | (port, some ('[' :: rest)) => do
      let port ← parseU16 port
      let ip ← parseIpv6 (rest.dropLast.takeWhile (· ≠ '%'))
      let scopeId ← parseScope (rest.dropLast.dropWhile (· ≠ '%'))
      return .v6 ip port 0 scopeId
  | (port, some host) => do
      let port ← parseU16 port
      let ip ← parseIpv4 host
      return .v4 ip port
  | (_, none) => none

/-- How such an `std` reads. -/
def std : StdNet where
  parseIp s := ((parseIpv6 s.toList).map .v6).or ((parseIpv4 s.toList).map .v4)
  parseSocketAddr := parseSocketAddr

/-- How it prints. -/
def text : StdText where
  ipv6 ip := ":" ++ ip.toNat.repr

theorem parseNat_toDigits (n : ℕ) : parseNat (Nat.toDigits 10 n) = some n := by
  have hall : (Nat.toDigits 10 n).all Char.isDigit = true :=
    List.all_eq_true.mpr fun c hc => Nat.isDigit_of_mem_toDigits (by decide) (by decide) hc
  rw [parseNat, if_pos ⟨Nat.toDigits_ne_nil, hall⟩, Nat.ofDigitChars_ten_toDigits]

theorem notMem_toDigits (n : ℕ) {c : Char} (hc : c.isDigit = false) : c ∉ Nat.toDigits 10 n := by
  intro h
  have := Nat.isDigit_of_mem_toDigits (by decide) (by decide) h
  exact absurd this (by simp [hc])

theorem toList_showIpv4 (ip : BitVec 32) :
    (showIpv4 ip).toList = ['.'].intercalate
      ([24, 16, 8, 0].map fun start => Nat.toDigits 10 (ip.extractLsb' start 8).toNat) := by
  simp [showIpv4, String.toList_append, Nat.toList_repr, List.intercalate]

theorem parseIpv4_showIpv4 (ip : BitVec 32) : parseIpv4 (showIpv4 ip).toList = some ip := by
  have hdot : ∀ l ∈ [24, 16, 8, 0].map fun start => Nat.toDigits 10 (ip.extractLsb' start 8).toNat,
      '.' ∉ l := by
    intro l hl
    obtain ⟨start, -, rfl⟩ := List.mem_map.mp hl
    exact notMem_toDigits _ (by decide)
  rw [parseIpv4, toList_showIpv4, List.splitOn_intercalate '.' hdot (by simp)]
  simp only [List.map_cons, List.map_nil, parseNat_toDigits, Option.some.injEq]
  apply BitVec.eq_of_toNat_eq
  simp only [BitVec.extractLsb'_toNat, BitVec.toNat_ofNat, Nat.shiftRight_eq_div_pow]
  omega

theorem toList_ipv6 (ip : BitVec 128) :
    (text.ipv6 ip).toList = ':' :: Nat.toDigits 10 ip.toNat := by
  simp [text, String.toList_append, Nat.toList_repr]

theorem parseIpv6_ipv6 (ip : BitVec 128) : parseIpv6 (text.ipv6 ip).toList = some ip := by
  rw [toList_ipv6, parseIpv6, parseNat_toDigits, Option.map_some, BitVec.ofNat_toNat,
    BitVec.setWidth_eq]

theorem parseIpv6_showIpv4 (ip : BitVec 32) : parseIpv6 (showIpv4 ip).toList = none := by
  obtain ⟨c, cs, hcons, hc⟩ := exists_showIpv4_eq ip
  rw [hcons]
  unfold parseIpv6
  split
  next heq => exact absurd (List.cons.inj heq).1 (ne_of_isDigit hc (by decide))
  next => rfl

theorem readsIp : std.ReadsIp text where
  ipv4 ip := by simp [std, parseIpv6_showIpv4, parseIpv4_showIpv4]
  ipv6 ip := by simp [std, parseIpv6_ipv6]

/-- The text between the brackets is cut at the percent sign. -/
theorem span_scope (ip : BitVec 128) (scope : List Char) (h : scope = [] ∨ scope.head? = some '%') :
    ((text.ipv6 ip).toList ++ scope).takeWhile (· ≠ '%') = (text.ipv6 ip).toList ∧
      ((text.ipv6 ip).toList ++ scope).dropWhile (· ≠ '%') = scope := by
  have hip : ∀ c ∈ (text.ipv6 ip).toList, (decide (c ≠ '%')) = true := by
    intro c hc
    rw [toList_ipv6, List.mem_cons] at hc
    have hne : c ≠ '%' := by
      rcases hc with rfl | hc
      · decide
      · exact ne_of_isDigit (Nat.isDigit_of_mem_toDigits (by decide) (by decide) hc) (by decide)
    simpa using hne
  rw [List.takeWhile_append_of_pos hip, List.dropWhile_append_of_pos hip]
  cases scope with
  | nil => simp
  | cons c cs =>
      obtain rfl : c = '%' := by simpa using h
      simp

theorem readsSocketAddr : std.ReadsSocketAddr text := by
  intro s hs
  show parseSocketAddr (s.display text) = some s
  cases s with
  | v4 ip port =>
      obtain ⟨c, cs, hcons, hc⟩ := exists_showIpv4_eq ip
      have hip := parseIpv4_showIpv4 ip
      simp only [parseSocketAddr, SocketAddr.display, rsplitColon_print, hcons]
      rw [hcons] at hip
      split
      next heq =>
          have hhead : c = '[' := by simp_all
          exact absurd hhead (ne_of_isDigit hc (by decide))
      next heq =>
          obtain ⟨rfl, rfl⟩ : _ = (showU16 port).toList ∧ _ = c :: cs := by
            simpa [eq_comm] using heq
          simp [parseU16_showU16, hip]
      next heq => simp at heq
  | v6 ip port flowinfo scopeId =>
      obtain rfl : flowinfo = 0 := by
        simpa [SocketAddr.dropFlowinfo, eq_comm] using hs
      by_cases hscope : scopeId = 0
      · subst hscope
        obtain ⟨htake, hdrop⟩ := span_scope ip [] (.inl rfl)
        rw [List.append_nil] at htake hdrop
        have htext : ("[" ++ text.ipv6 ip ++ "]").toList
            = '[' :: ((text.ipv6 ip).toList ++ [']']) := by
          simp [String.toList_append]
        simp only [parseSocketAddr, SocketAddr.display, if_pos, rsplitColon_print, htext,
          List.dropLast_concat, htake, hdrop]
        simp [parseU16_showU16, parseIpv6_ipv6, parseScope]
      · obtain ⟨htake, hdrop⟩ := span_scope ip ('%' :: Nat.toDigits 10 scopeId.toNat) (.inr rfl)
        have htext : ("[" ++ text.ipv6 ip ++ "%" ++ scopeId.toNat.repr ++ "]").toList
            = '[' :: (((text.ipv6 ip).toList ++ '%' :: Nat.toDigits 10 scopeId.toNat) ++
              [']']) := by
          simp [String.toList_append, Nat.toList_repr]
        simp only [parseSocketAddr, SocketAddr.display, if_neg hscope, rsplitColon_print, htext,
          List.dropLast_concat, htake, hdrop]
        simp [parseU16_showU16, parseIpv6_ipv6, parseScope, parseNat_toDigits]

end Numeric

/-! ## Round trips -/

/-- **Addresses and their text.**  Every address without flow label and scope id is read back
as its normal form, both from its text and from its host and port; normal forms stay as they
are; and an address that was read from some text is read back unchanged from its own. -/
theorem address_text_round_trip (std : StdNet) (text : StdText) (laws : std.ReadsIp text) :
    (∀ a : Address, a.Plain →
        Address.fromStr std (a.display text) = .ok (a.toNormalized std) ∧
        Address.ofHostPort std (a.host text, a.port) = .ok (a.toNormalized std)) ∧
      (∀ a : Address, (a.toNormalized std).toNormalized std = a.toNormalized std) ∧
      ∀ (s : String) (b : Address), Address.fromStr std s = .ok b →
        Address.fromStr std (b.display text) = .ok b := by
  refine ⟨?_, Address.toNormalized_toNormalized std, ?_⟩
  · intro a ha
    refine ⟨Address.fromStr_display laws ha, ?_⟩
    rw [Address.ofHostPort, Address.hostToAddress_host laws ha]
  · intro s b hb
    -- `b` is a normal form, so what is read back is `b` itself
    obtain ⟨d, p, rfl⟩ := Address.exists_of_fromStr_eq_ok hb
    rw [Address.fromStr_display laws (Address.plain_toNormalized_domain std d p),
      Address.toNormalized_toNormalized]

/-- A domain that spells an IPv4 address in brackets. -/
theorem address_text_round_trip_bracketed :
    Address.fromStr Numeric.std ((Address.domain "[1.2.3.4]" 80).display Numeric.text)
        = .ok (.socketAddr (.v4 0x01020304 80)) := by
  have h := ((address_text_round_trip Numeric.std Numeric.text Numeric.readsIp).1
    (.domain "[1.2.3.4]" 80) trivial).1
  rw [h]
  decide

end RabbitDigger
