import Mathlib.Algebra.Order.Group.Nat
import RabbitDigger.Socks5.Handshake

/-!
# The messages of RFC 1928

The bytes behind the parameters of this model: an address format (`AddressCodec`, `AddressWriter`)
and a `Protocol` as RFC 1928 has them, both of which meet what is asked of them.

An address is a type, an IP or a domain with its length, and a port, **highest byte first**.  It is
read off the front of its bytes, whatever follows (`addressReader_run`), and nothing is read that
is not an address (`addressReader_sound`).  There is no place in it for the flow label and the
scope of an IPv6 address: what is read is what the protocol has `carried`.
-/

namespace RabbitDigger.Rfc1928

open Dialogue Socks5Handshake

/-! ## Numbers -/

/-- The number that has these bytes, highest first. -/
def ofBigEndian : Bytes → ℕ
  | [] => 0
  | b :: bytes => b.toNat * 256 ^ bytes.length + ofBigEndian bytes

@[simp] theorem length_bigEndian (n k : ℕ) : (bigEndian n k).length = k := by
  induction k with
  | zero => rfl
  | succ k ih => rw [bigEndian, List.length_cons, ih]

theorem ofBigEndian_lt {bytes : Bytes} {k : ℕ} (h : bytes.length = k) :
    ofBigEndian bytes < 256 ^ k := by
  subst h
  induction bytes with
  | nil => exact Nat.one_pos
  | cons b bytes ih =>
      have hb : b.toNat + 1 ≤ 256 := b.toNat_lt
      calc b.toNat * 256 ^ bytes.length + ofBigEndian bytes
          < b.toNat * 256 ^ bytes.length + 256 ^ bytes.length := Nat.add_lt_add_left ih _
        _ = (b.toNat + 1) * 256 ^ bytes.length := (Nat.succ_mul _ _).symm
        _ ≤ 256 * 256 ^ bytes.length := Nat.mul_le_mul_right _ hb
        _ = 256 ^ (bytes.length + 1) := (Nat.pow_succ').symm

/-- A number is read as it was written, if there is room for it, -/
theorem ofBigEndian_bigEndian {n k : ℕ} (h : n < 256 ^ k) : ofBigEndian (bigEndian n k) = n := by
  have hmod : ∀ k, ofBigEndian (bigEndian n k) = n % 256 ^ k := by
    intro k
    induction k with
    | zero => exact (Nat.mod_one n).symm
    | succ k ih =>
        rw [bigEndian, ofBigEndian, ih, length_bigEndian, UInt8.toNat_ofNat',
          Nat.mod_pow_succ (b := 256), Nat.mul_comm, Nat.add_comm]
  rw [hmod, Nat.mod_eq_of_lt h]

/-- and bytes are written as they were read. -/
theorem bigEndian_ofBigEndian (bytes : Bytes) :
    bigEndian (ofBigEndian bytes) bytes.length = bytes := by
  -- bytes of one length that are the same number are the same
  have hinj : ∀ x y : Bytes, x.length = y.length → ofBigEndian x = ofBigEndian y → x = y := by
    intro x
    induction x with
    | nil => exact fun y hlength _ => (List.length_eq_zero_iff.mp hlength.symm).symm
    | cons b x ih =>
        rintro (_ | ⟨c, y⟩) hlength hnumber
        · cases hlength
        · have hlen : x.length = y.length := Nat.succ.inj hlength
          have hpos : 0 < 256 ^ y.length := Nat.pow_pos (by decide)
          have hx : ofBigEndian x < 256 ^ y.length := ofBigEndian_lt hlen
          have hy : ofBigEndian y < 256 ^ y.length := ofBigEndian_lt rfl
          rw [ofBigEndian, ofBigEndian, hlen] at hnumber
          have hdiv := congrArg (· / 256 ^ y.length) hnumber
          have hmod := congrArg (· % 256 ^ y.length) hnumber
          simp only [Nat.mul_comm _ (256 ^ y.length), Nat.mul_add_div hpos, Nat.mul_add_mod,
            Nat.div_eq_of_lt hx, Nat.div_eq_of_lt hy, Nat.mod_eq_of_lt hx, Nat.mod_eq_of_lt hy,
            Nat.add_zero] at hdiv hmod
          rw [UInt8.toNat_inj.mp hdiv, ih y hlen hmod]
  exact hinj _ _ (length_bigEndian _ _) (ofBigEndian_bigEndian (ofBigEndian_lt rfl))

/-! ## Addresses -/

/-- What is not of this format. -/
def malformed : SocksError := .other "malformed message"

/-- The bytes of a domain. -/
def utf8 (name : String) : Bytes := name.toByteArray.data.toList

/-- `ATYP`, the address and the port. -/
def addressBytes : SocksAddress → Bytes
  | .socketAddr (.v4 ip port) => [1] ++ (bigEndian ip.toNat 4 ++ bigEndian port.toNat 2)
  | .domain name port =>
      [3] ++ (bigEndian name.utf8ByteSize 1 ++ (utf8 name ++ bigEndian port.toNat 2))
  | .socketAddr (.v6 ip port _ _) => [4] ++ (bigEndian ip.toNat 16 ++ bigEndian port.toNat 2)

section Reader

variable {α : Type} (next : SocksAddress → Reader UInt8 (Except SocksError α))

/-- Two bytes for a port, after an IP or a domain. -/
def portReader (addr : UInt16 → SocksAddress) : Reader UInt8 (Except SocksError α) :=
  .exact 2 fun port => next (addr (.ofNat (ofBigEndian port)))

/-- Read an address, and go on with it. -/
def addressReader : Reader UInt8 (Except SocksError α) :=
  .exact 1 fun
    | [1] => .exact 4 fun ip => portReader next (.socketAddr <| .v4 (.ofNat 32 (ofBigEndian ip)) ·)
    | [3] => .exact 1 fun length => .exact (ofBigEndian length) fun bytes =>
        match String.fromUTF8? ⟨bytes.toArray⟩ with
        | some name => portReader next (.domain name ·)
        | none => .done (.error malformed)
    | [4] => .exact 16 fun ip =>
        portReader next (.socketAddr <| .v6 (.ofNat 128 (ofBigEndian ip)) · 0 0)
    | _ => .done (.error malformed)

variable {next}

theorem portReader_run (addr : UInt16 → SocksAddress) (port : UInt16) (rest : Bytes) :
    (portReader next addr).run (bigEndian port.toNat 2 ++ rest) = (next (addr port)).run rest := by
  rw [portReader, Reader.run_exact _ (length_bigEndian _ _),
    ofBigEndian_bigEndian (show port.toNat < 256 ^ 2 from port.toNat_lt), UInt16.ofNat_toNat]

/-- A domain is its bytes. -/
theorem fromUTF8?_utf8 (name : String) : String.fromUTF8? ⟨(utf8 name).toArray⟩ = some name := by
  rw [utf8, Array.toArray_toList]
  exact dif_pos name.isValidUTF8

/-- **An address is read**, as far as it is carried, whatever follows. -/
theorem addressReader_run {addr : SocksAddress} (h : addr.Fits) (rest : Bytes) :
    (addressReader next).run (addressBytes addr ++ rest) = (next addr.carried).run rest := by
  rcases addr with (⟨ip, port⟩ | ⟨ip, port, flowinfo, scopeId⟩) | ⟨name, port⟩
  · rw [addressReader, addressBytes, List.append_assoc, Reader.run_exact _ List.length_singleton,
      List.append_assoc]
    show (Reader.exact 4 _).run _ = _
    rw [Reader.run_exact _ (length_bigEndian _ _), portReader_run,
      ofBigEndian_bigEndian (show ip.toNat < 256 ^ 4 from ip.isLt), BitVec.ofNat_toNat,
      BitVec.setWidth_eq]
    rfl
  · rw [addressReader, addressBytes, List.append_assoc, Reader.run_exact _ List.length_singleton,
      List.append_assoc]
    show (Reader.exact 16 _).run _ = _
    rw [Reader.run_exact _ (length_bigEndian _ _), portReader_run,
      ofBigEndian_bigEndian (show ip.toNat < 256 ^ 16 from ip.isLt), BitVec.ofNat_toNat,
      BitVec.setWidth_eq]
    rfl
  · have hsize : name.utf8ByteSize < 256 ^ 1 := Nat.lt_succ_of_le h
    have hlength : (utf8 name).length = name.utf8ByteSize := Array.length_toList
    rw [addressReader, addressBytes, List.append_assoc, Reader.run_exact _ List.length_singleton,
      List.append_assoc, List.append_assoc]
    show (Reader.exact 1 _).run _ = _
    rw [Reader.run_exact _ (length_bigEndian _ _), ofBigEndian_bigEndian hsize,
      Reader.run_exact _ hlength, fromUTF8?_utf8]
    exact portReader_run _ _ _

end Reader

/-- An address at the front of the bytes. -/
abbrev justAddress : Reader UInt8 (Except SocksError SocksAddress) := addressReader (.done ∘ .ok)

theorem portReader_sound {addr : UInt16 → SocksAddress} {value : SocksAddress} {bytes rest : Bytes}
    (h : (portReader (.done ∘ Except.ok) addr).run bytes = some (.ok value, rest)) :
    ∃ port, value = addr port ∧ bytes = bigEndian port.toNat 2 ++ rest := by
  obtain ⟨port, after, hlength, rfl, hdone⟩ := Reader.exists_of_run_exact h
  cases hdone
  refine ⟨_, rfl, ?_⟩
  have hlt : ofBigEndian port < 2 ^ 16 := ofBigEndian_lt hlength
  rw [UInt16.toNat_ofNat', Nat.mod_eq_of_lt hlt, ← hlength, bigEndian_ofBigEndian]

/-- **Nothing else is read.** -/
theorem addressReader_sound {addr : SocksAddress} {bytes rest : Bytes}
    (h : justAddress.run bytes = some (.ok addr, rest)) :
    addr.Fits ∧ bytes = addressBytes addr ++ rest := by
  obtain ⟨atyp, after, _, rfl, hafter⟩ := Reader.exists_of_run_exact h
  split at hafter
  · obtain ⟨ip, after, hlength, rfl, hport⟩ := Reader.exists_of_run_exact hafter
    obtain ⟨port, rfl, rfl⟩ := portReader_sound hport
    have hlt : ofBigEndian ip < 2 ^ 32 := ofBigEndian_lt hlength
    refine ⟨trivial, ?_⟩
    rw [addressBytes, BitVec.toNat_ofNat, Nat.mod_eq_of_lt hlt, ← hlength, bigEndian_ofBigEndian]
    simp only [List.append_assoc]
  · obtain ⟨length, after, hone, rfl, hname⟩ := Reader.exists_of_run_exact hafter
    obtain ⟨bytes, after, hlength, rfl, hport⟩ := Reader.exists_of_run_exact hname
    split at hport
    · rename_i name hutf8
      obtain ⟨port, rfl, rfl⟩ := portReader_sound hport
      have hbytes : utf8 name = bytes := by
        unfold String.fromUTF8? at hutf8
        split at hutf8
        · cases hutf8
          rfl
        · cases hutf8
      have hsize : name.utf8ByteSize = ofBigEndian length := by
        rw [← hlength, ← hbytes]
        exact Array.length_toList.symm
      have hlt : ofBigEndian length < 256 ^ 1 := ofBigEndian_lt hone
      refine ⟨show name.utf8ByteSize ≤ 255 by omega, ?_⟩
      rw [addressBytes, hsize, ← hone, bigEndian_ofBigEndian, hbytes]
      simp only [List.append_assoc]
    · cases hport
  · obtain ⟨ip, after, hlength, rfl, hport⟩ := Reader.exists_of_run_exact hafter
    obtain ⟨port, rfl, rfl⟩ := portReader_sound hport
    have hlt : ofBigEndian ip < 2 ^ 128 := ofBigEndian_lt hlength
    refine ⟨trivial, ?_⟩
    rw [addressBytes, BitVec.toNat_ofNat, Nat.mod_eq_of_lt hlt, ← hlength, bigEndian_ofBigEndian]
    simp only [List.append_assoc]
  · cases hafter

/-- How addresses are written.  A longer domain does not fit its length. -/
def writer : AddressWriter where
  writeTo addr := if addr.Fits then .ok (addressBytes addr) else .error malformed
  writes s := ⟨addressBytes (.socketAddr s), if_pos trivial⟩

/-- How addresses are read, through a cursor. -/
def codec : AddressCodec where
  readFrom bytes :=
    match justAddress.run bytes with
    | some (.ok addr, rest) => .ok (addr, bytes.length - rest.length)
    | some (.error e, _) => .error e
    | none => .error earlyEof
  consumed_le := by
    intro bytes addr n h
    split at h
    · cases h
      exact Nat.sub_le _ _
    · cases h
    · cases h

theorem codec_undoes : codec.Undoes writer where
  reads addr h := by
    refine ⟨addressBytes addr, if_pos h, fun rest => ?_⟩
    simp only [codec, addressReader_run h, Reader.run, Function.comp_apply, List.length_append,
      Nat.add_sub_cancel]
  refuses bytes h := by
    simp only [codec]
    split
    · rename_i addr rest hrun
      obtain ⟨hfits, hbytes⟩ := addressReader_sound hrun
      exact absurd ⟨addr, _, if_pos hfits, hbytes ▸ List.prefix_append _ _⟩ h
    · exact ⟨_, rfl⟩
    · exact ⟨_, rfl⟩

/-! ## Messages -/

/-- `METHOD`. -/
def methodCode : AuthMethod → UInt8
  | .noauth => 0
  | .gssapi => 1
  | .usernamePassword => 2
  | .noAcceptableMethod => 255

/-- A method that the model does not have is as good as none. -/
def methodOf : UInt8 → AuthMethod
  | 0 => .noauth
  | 1 => .gssapi
  | 2 => .usernamePassword
  | _ => .noAcceptableMethod

theorem methodOf_methodCode (method : AuthMethod) : methodOf (methodCode method) = method := by
  cases method <;> rfl

/-- `CMD`. -/
def commandCode : Command → UInt8
  | .connect => 1
  | .bind => 2
  | .udpAssociate => 3

/-- `REP`. -/
def replyCode : CommandReply → UInt8
  | .succeeded => 0
  | .generalFailure => 1
  | .connectionNotAllowed => 2
  | .networkUnreachable => 3
  | .hostUnreachable => 4
  | .connectionRefused => 5
  | .ttlExpired => 6
  | .commandNotSupported => 7
  | .addressTypeNotSupported => 8

/-- `VER`, which both sides send in front of their methods. -/
def version : Message Version where
  write _ := [5]
  read := .exact 1 fun
    | [5] => .done (.ok .v5)
    | _ => .done (.error malformed)

/-- `NMETHODS` and `METHODS`. -/
def authRequest : Message AuthRequest where
  write v := bigEndian v.methods.length 1 ++ v.methods.map methodCode
  read := .exact 1 fun count => .exact (ofBigEndian count) fun methods =>
    .done (.ok ⟨methods.map methodOf⟩)

/-- `METHOD`. -/
def authResponse : Message AuthResponse where
  write v := [methodCode v.method]
  read := .exact 1 fun
    | [code] => .done (.ok ⟨methodOf code⟩)
    | _ => .done (.error malformed)

/-- `VER`, `CMD`, `RSV` and the address. -/
def commandRequest : Message CommandRequest where
  write v := [5, commandCode v.command, 0] ++ addressBytes v.address
  read := .exact 3 fun
    | [5, 1, 0] => addressReader fun address => .done (.ok ⟨.connect, address⟩)
    | [5, 2, 0] => addressReader fun address => .done (.ok ⟨.bind, address⟩)
    | [5, 3, 0] => addressReader fun address => .done (.ok ⟨.udpAssociate, address⟩)
    | _ => .done (.error malformed)

/-- `VER`, `REP`, `RSV` and the address.  A reply other than success is an error, which is found
before the address. -/
def commandResponse : Message CommandResponse where
  write v := [5, replyCode v.reply, 0] ++ addressBytes v.address
  read := .exact 3 fun
    | [5, 0, 0] => addressReader fun address => .done (.ok ⟨.succeeded, address⟩)
    | _ => .done (.error (.other "not succeeded"))

/-- **The protocol of RFC 1928.** -/
def protocol : Protocol where
  version := version
  authRequest := authRequest
  authResponse := authResponse
  commandRequest := commandRequest
  commandResponse := commandResponse
  selectFrom req auth := (req.methods.find? (· ∈ auth)).getD .noAcceptableMethod
  replyOf _ := .generalFailure
  version_reads _ _ := rfl
  authRequest_reads v hlength rest := by
    have hcount : v.methods.length < 256 ^ 1 := Nat.lt_succ_of_le hlength
    simp only [authRequest]
    rw [List.append_assoc, Reader.run_exact _ (length_bigEndian _ _), ofBigEndian_bigEndian hcount,
      Reader.run_exact _ (List.length_map _), List.map_map]
    simp only [Function.comp_def, methodOf_methodCode, List.map_id', Reader.run]
  authResponse_reads v rest := by
    simp only [authResponse]
    rw [Reader.run_exact _ List.length_singleton]
    simp only [methodOf_methodCode, Reader.run]
  commandRequest_reads v hfits rest := by
    obtain ⟨command, address⟩ := v
    simp only [commandRequest]
    rw [List.append_assoc, Reader.run_exact _ (show List.length [_, _, _] = 3 from rfl)]
    cases command <;> exact addressReader_run hfits rest
  commandResponse_reads v hfits hreply rest := by
    obtain ⟨reply, address⟩ := v
    cases hreply
    simp only [commandResponse]
    rw [List.append_assoc, Reader.run_exact _ (show List.length [_, _, _] = 3 from rfl)]
    exact addressReader_run hfits rest
  commandResponse_refuses v _ hreply := by
    obtain ⟨reply, address⟩ := v
    refine ⟨.other "not succeeded", addressBytes address, fun rest => ?_⟩
    simp only [commandResponse]
    rw [List.append_assoc, Reader.run_exact _ (show List.length [_, _, _] = 3 from rfl)]
    cases reply with
    | succeeded => exact absurd rfl hreply
    | _ => rfl
  selectFrom_noauth := rfl
  replyOf_ne _ := nofun

end RabbitDigger.Rfc1928
