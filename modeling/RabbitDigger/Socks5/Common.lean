import RabbitDigger.Interface.Address
import RabbitDigger.Interface.ReadBuf

/-!
# SOCKS5 datagrams

`rd-std/src/socks5/common.rs`: a datagram between a SOCKS5 client and its server
is two reserved bytes, a fragment number, an address and the payload.
`parse_udp` reads the header off the front of a read buffer, **in place**: the
payload is moved to the front and the filled part is cut down to it.

The address format belongs to the `socks5-protocol` crate and is a parameter,
`AddressCodec`.  All that is asked of it is that reading an address consumes no
more than there is.  `pack_udp` puts the header in front of a payload; of the
writer (`AddressWriter`) is asked that it can write socket addresses.
-/

namespace RabbitDigger

/-- `socks5_protocol::Error`. -/
inductive SocksError where
  | io (error : IoError)
  | other (message : String)
deriving Repr, DecidableEq

/-- `map_err`. -/
def mapErr : SocksError → Error
  | .io e => .io e
  | .other message => .other message

/-- `socks5_protocol::Address`. -/
inductive SocksAddress where
  | socketAddr (addr : SocketAddr)
  | domain (name : String) (port : UInt16)
deriving Repr, DecidableEq

/-- The domain has a length that fits a byte. -/
def SocksAddress.Fits : SocksAddress → Prop
  | .domain name _ => name.utf8ByteSize ≤ 255
  | .socketAddr _ => True

instance (addr : SocksAddress) : Decidable addr.Fits :=
  match addr with
  | .domain name _ => inferInstanceAs (Decidable (name.utf8ByteSize ≤ 255))
  | .socketAddr _ => inferInstanceAs (Decidable True)

/-- What the protocol carries of an address.  It has no field for the flow label and the scope of
an IPv6 address. -/
def SocksAddress.carried : SocksAddress → SocksAddress
  | .socketAddr (.v6 ip port _ _) => .socketAddr (.v6 ip port 0 0)
  | addr => addr

/-- `sa2ra`. -/
def sa2ra : SocksAddress → Address
  | .domain d p => .domain d p
  | .socketAddr s => .socketAddr s

/-- The address format of the protocol. -/
structure AddressCodec where
  /-- `Address::read_from`: the address at the front of the bytes and how many of
  them it takes. -/
  readFrom : Bytes → Except SocksError (SocksAddress × ℕ)
  /-- A cursor does not read beyond its end. -/
  consumed_le : ∀ {bytes addr n}, readFrom bytes = .ok (addr, n) → n ≤ bytes.length

variable (codec : AddressCodec)

/-- `parse_udp`. -/
def parseUdp (buf : ReadBuf) : ReadBuf × IoResult Address :=
  match buf.filled with
  | rsv₀ :: rsv₁ :: frag :: rest =>
      if rsv₀ = 0 ∧ rsv₁ = 0 ∧ frag = 0 then
        match codec.readFrom rest with
        | .error e => (buf, .error (mapErr e).toIoError)
        | .ok (addr, n) =>
            let pos := 3 + n
            let shifted := buf.copyWithin pos
            (shifted.setFilled (shifted.filled.length - pos), .ok (sa2ra addr))
      else
        (buf, .error { kind := .invalidData, message :=
          s!"server response wrong RSV {rsv₀} RSV {rsv₁} FRAG {frag}" })
  | _ => (buf, .error { kind := .unexpectedEof, message := "failed to fill whole buffer" })

variable {codec}

/-- The spec of `parse_udp` on a well-formed packet: the address is returned and
the payload is what remains filled. -/
theorem parseUdp_ok {buf : ReadBuf} {body : Bytes} {addr : SocksAddress} {n : ℕ}
    (hfilled : buf.filled = 0 :: 0 :: 0 :: body)
    (hread : codec.readFrom body = .ok (addr, n)) :
    (parseUdp codec buf).1.filled = body.drop n ∧
      (parseUdp codec buf).2 = .ok (sa2ra addr) := by
  have hpos : 3 + n ≤ buf.filled.length := by
    have hle := codec.consumed_le hread
    rw [hfilled]
    simp only [List.length_cons]
    omega
  have hshift := ReadBuf.filled_shift hpos
  have hdrop : buf.filled.drop (3 + n) = body.drop n := by
    rw [hfilled, Nat.add_comm]
    rfl
  unfold parseUdp
  simp only [hfilled, and_self, if_true, hread]
  exact ⟨hshift.trans hdrop, trivial⟩

/-- `parse_udp` stays within the buffer. -/
theorem filled_parseUdp_le (buf : ReadBuf) :
    (parseUdp codec buf).1.filled.length ≤ buf.capacity := by
  unfold parseUdp
  split
  · split
    · split
      · exact buf.bounded
      · exact ReadBuf.bounded _
    · exact buf.bounded
  · exact buf.bounded

/-! ## Writing -/

/-- `ra2sa`. -/
def ra2sa : Address → SocksAddress
  | .domain d p => .domain d p
  | .socketAddr s => .socketAddr s

@[simp] theorem sa2ra_ra2sa (addr : Address) : sa2ra (ra2sa addr) = addr := by
  cases addr <;> rfl

/-- What the protocol carries of an address. -/
def Address.carried (addr : Address) : Address := sa2ra (ra2sa addr).carried

/-- That is all of it, unless it is an IPv6 address with a flow label or a scope. -/
theorem Address.carried_eq_self_iff (addr : Address) :
    addr.carried = addr ↔ ∀ ip port flowinfo scopeId,
      addr = .socketAddr (.v6 ip port flowinfo scopeId) → flowinfo = 0 ∧ scopeId = 0 := by
  rcases addr with (_ | ⟨ip, port, flowinfo, scopeId⟩) | _
  · exact ⟨nofun, fun _ => rfl⟩
  · constructor
    · rintro ⟨⟩ _ _ _ _ ⟨⟩
      exact ⟨rfl, rfl⟩
    · intro h
      obtain ⟨rfl, rfl⟩ := h _ _ _ _ rfl
      rfl
  · exact ⟨nofun, fun _ => rfl⟩

/-- How the protocol writes addresses. -/
structure AddressWriter where
  /-- `Address::write_to`. -/
  writeTo : SocksAddress → Except SocksError Bytes
  /-- A socket address can be written. -/
  writes : ∀ s, ∃ bytes, writeTo (.socketAddr s) = .ok bytes

/-- The bytes begin with a complete address. -/
def AddressWriter.Complete (writer : AddressWriter) (bytes : Bytes) : Prop :=
  ∃ addr written, writer.writeTo addr = .ok written ∧ written <+: bytes

/-- **What is assumed of the address format**: an address is read as far as it is carried, with
exactly its bytes, whatever follows, and bytes that do not begin with an address are refused. -/
structure AddressCodec.Undoes (codec : AddressCodec) (writer : AddressWriter) : Prop where
  reads : ∀ addr : SocksAddress, addr.Fits → ∃ bytes, writer.writeTo addr = .ok bytes ∧
    ∀ rest, codec.readFrom (bytes ++ rest) = .ok (addr.carried, bytes.length)
  refuses : ∀ bytes, ¬ writer.Complete bytes → ∃ e, codec.readFrom bytes = .error e

/-- Bytes of a number, highest first. -/
def bigEndian (n : ℕ) : ℕ → Bytes
  | 0 => []
  | k + 1 => UInt8.ofNat (n / 256 ^ k) :: bigEndian n k

/-- `pack_udp`. -/
def packUdp (writer : AddressWriter) (addr : Address) (payload : Bytes) : IoResult Bytes :=
  match writer.writeTo (ra2sa addr) with
  | .error e => .error (mapErr e).toIoError
  | .ok bytes => .ok ([0, 0, 0] ++ bytes ++ payload)

/-- `pack_udp` with the vector that it leaves behind.  If the address cannot be written, what
was written until then stays there: the reserved bytes, and `leftover`. -/
def packInto (writer : AddressWriter) (leftover : SocksAddress → Bytes) (addr : Address)
    (payload : Bytes) : Bytes × IoResult Unit :=
  match packUdp writer addr payload with
  | .error e => ([0, 0, 0] ++ leftover (ra2sa addr), .error e)
  | .ok packet => (packet, .ok ())

/-- A packed datagram is not empty. -/
theorem packUdp_ne_nil {writer : AddressWriter} {addr : Address} {payload packet : Bytes}
    (h : packUdp writer addr payload = .ok packet) : packet ≠ [] := by
  unfold packUdp at h
  split at h
  · cases h
  · obtain rfl := Except.ok.inj h
    exact List.cons_ne_nil _ _

end RabbitDigger
