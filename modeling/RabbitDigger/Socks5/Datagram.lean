import RabbitDigger.Socks5.Format

/-!
# The header of a SOCKS5 datagram

`pack_udp` and `parse_udp` (`rd-std/src/socks5/common.rs`) are each other's inverse, **in
place**: what `pack_udp` has put in front of a payload is read by `parse_udp`, which moves
the payload over the header and cuts the buffer down to it.

Three steps of `parse_udp` can panic: the copy within the filled part, the subtraction that
gives the new length, and the setting of this length.  `parseUdpChecked` is `parse_udp` with
these checks, and it never fails (`parseUdpChecked_eq`).

Of the address format (`AddressCodec`, `AddressWriter`) is assumed what is asked of a format
(`AddressCodec.Undoes`): a written address is read, with exactly its bytes, whatever follows,
and bytes that do not begin with a written address are refused.  What the format has no place for,
the flow label and the scope of an IPv6 address, is lost (`Address.carried`).
-/

namespace RabbitDigger

/-! ## Bounds -/

namespace ReadBuf

/-- `copy_within(pos.., 0)`, which panics if `pos` lies behind the filled part. -/
def copyWithinChecked (buf : ReadBuf) (pos : ℕ) : Option ReadBuf :=
  if pos ≤ buf.filled.length then some (buf.copyWithin pos) else none

/-- `set_filled`, which panics if the length lies behind what is initialized. -/
def setFilledChecked (buf : ReadBuf) (n : ℕ) : Option ReadBuf :=
  if n ≤ buf.filled.length then some (buf.setFilled n) else none

end ReadBuf

/-- A subtraction of `usize`, which panics if it underflows. -/
def checkedSub (a b : ℕ) : Option ℕ := if b ≤ a then some (a - b) else none

/-- `parse_udp` with its checks; `none` is a panic. -/
def parseUdpChecked (codec : AddressCodec) (buf : ReadBuf) : Option (ReadBuf × IoResult Address) :=
  match buf.filled with
  | rsv₀ :: rsv₁ :: frag :: rest =>
      if rsv₀ = 0 ∧ rsv₁ = 0 ∧ frag = 0 then
        match codec.readFrom rest with
        | .error e => some (buf, .error (mapErr e).toIoError)
        | .ok (addr, n) => do
            let pos := 3 + n
            let shifted ← buf.copyWithinChecked pos
            let length ← checkedSub shifted.filled.length pos
            let cut ← shifted.setFilledChecked length
            return (cut, .ok (sa2ra addr))
      else
        some (buf, .error { kind := .invalidData, message :=
          s!"server response wrong RSV {rsv₀} RSV {rsv₁} FRAG {frag}" })
  | _ => some (buf, .error { kind := .unexpectedEof, message := "failed to fill whole buffer" })

theorem ReadBuf.length_copyWithin {buf : ReadBuf} {pos : ℕ} (h : pos ≤ buf.filled.length) :
    (buf.copyWithin pos).filled.length = buf.filled.length := by
  simp only [copyWithin, List.length_append, List.length_drop]
  omega

/-- A shift by a header that lies within the filled part passes its checks. -/
theorem ReadBuf.shift_checked {buf : ReadBuf} {pos : ℕ} (h : pos ≤ buf.filled.length) :
    ((buf.copyWithinChecked pos).bind fun shifted =>
        (checkedSub shifted.filled.length pos).bind shifted.setFilledChecked)
      = some ((buf.copyWithin pos).setFilled ((buf.copyWithin pos).filled.length - pos)) := by
  have hsub : pos ≤ (buf.copyWithin pos).filled.length := (length_copyWithin h).symm ▸ h
  rw [copyWithinChecked, if_pos h, Option.bind_some, checkedSub, if_pos hsub, Option.bind_some,
    setFilledChecked, if_pos (Nat.sub_le _ _)]

/-- **`parse_udp` stays within its bounds.** -/
theorem parseUdpChecked_eq (codec : AddressCodec) (buf : ReadBuf) :
    parseUdpChecked codec buf = some (parseUdp codec buf) := by
  rcases hfilled : buf.filled with _ | ⟨rsv₀, _ | ⟨rsv₁, _ | ⟨frag, rest⟩⟩⟩
  all_goals simp only [parseUdpChecked, parseUdp, hfilled]
  by_cases hzero : rsv₀ = 0 ∧ rsv₁ = 0 ∧ frag = 0
  · rw [if_pos hzero, if_pos hzero]
    cases hread : codec.readFrom rest with
    | error e => rfl
    | ok found =>
        obtain ⟨addr, n⟩ := found
        -- the cursor stands at most at the end of the filled part
        have hpos : 3 + n ≤ buf.filled.length := by
          have hle := codec.consumed_le hread
          rw [hfilled]
          simp only [List.length_cons]
          omega
        have hshift := ReadBuf.shift_checked hpos
        simp only [Option.bind_eq_bind, ← Option.bind_assoc, hshift, Option.bind_some]
        rfl
  · rw [if_neg hzero, if_neg hzero]

/-! ## Both directions -/

variable {codec : AddressCodec} {writer : AddressWriter}

/-- What was packed is parsed. -/
theorem parseUdp_packUdp (laws : codec.Undoes writer) {addr : Address}
    (hfits : (ra2sa addr).Fits) (payload : Bytes) :
    ∃ packet, packUdp writer addr payload = .ok packet ∧
      ∀ buf : ReadBuf, buf.filled = packet →
        (parseUdp codec buf).2 = .ok addr.carried ∧ (parseUdp codec buf).1.filled = payload := by
  obtain ⟨bytes, hwrite, hread⟩ := laws.reads (ra2sa addr) hfits
  refine ⟨[0, 0, 0] ++ bytes ++ payload, by simp only [packUdp, hwrite], ?_⟩
  intro buf hbuf
  obtain ⟨hfilled, haddr⟩ := parseUdp_ok hbuf (hread payload)
  exact ⟨haddr, hfilled.trans List.drop_left⟩

/-- What does not begin with a header is refused, and nothing is touched. -/
theorem parseUdp_of_not_header (laws : codec.Undoes writer) {buf : ReadBuf}
    (h : ¬ ∃ rest, buf.filled = 0 :: 0 :: 0 :: rest ∧ writer.Complete rest) :
    ∃ e, parseUdp codec buf = (buf, .error e) := by
  unfold parseUdp
  split
  next rsv₀ rsv₁ frag rest hfilled =>
      split
      next hzero =>
          obtain ⟨rfl, rfl, rfl⟩ := hzero
          -- the three bytes are zero, so it is the address that is not complete
          obtain ⟨e, he⟩ := laws.refuses rest fun hcomplete => h ⟨rest, hfilled, hcomplete⟩
          rw [he]
          exact ⟨_, rfl⟩
      next => exact ⟨_, rfl⟩
  next => exact ⟨_, rfl⟩

/-- **`parse_udp` undoes `pack_udp`.**  For every address with a domain of at most 255 bytes
and every payload, the packed datagram is parsed to the address, as far as it is carried, and
leaves exactly the payload in the buffer; every datagram that does not begin with three zeros and
a complete address is refused and left as it is; and no step of `parse_udp` goes out of bounds. -/
theorem parse_udp_undoes_pack_udp (codec : AddressCodec) (writer : AddressWriter)
    (laws : codec.Undoes writer) :
    (∀ (addr : Address) (payload : Bytes), (ra2sa addr).Fits →
        ∃ packet, packUdp writer addr payload = .ok packet ∧
          ∀ buf : ReadBuf, buf.filled = packet →
            ∃ buf', parseUdpChecked codec buf = some (buf', .ok addr.carried) ∧
              buf'.filled = payload) ∧
      (∀ buf : ReadBuf, (¬ ∃ rest, buf.filled = 0 :: 0 :: 0 :: rest ∧ writer.Complete rest) →
        ∃ e, parseUdpChecked codec buf = some (buf, .error e)) ∧
      ∀ buf : ReadBuf, parseUdpChecked codec buf ≠ none := by
  refine ⟨?_, ?_, ?_⟩
  · intro addr payload hfits
    obtain ⟨packet, hpack, hparse⟩ := parseUdp_packUdp laws hfits payload
    refine ⟨packet, hpack, fun buf hbuf => ?_⟩
    obtain ⟨haddr, hfilled⟩ := hparse buf hbuf
    refine ⟨(parseUdp codec buf).1, ?_, hfilled⟩
    rw [parseUdpChecked_eq, ← haddr]
  · intro buf h
    obtain ⟨e, he⟩ := parseUdp_of_not_header laws h
    exact ⟨e, by rw [parseUdpChecked_eq, he]⟩
  · intro buf
    rw [parseUdpChecked_eq]
    exact Option.some_ne_none _

/-- A domain and an empty payload. -/
theorem parse_udp_undoes_pack_udp_domain :
    ∃ packet, packUdp Rfc1928.writer (.domain "a.b" 53) [] = .ok packet ∧
      ∀ buf : ReadBuf, buf.filled = packet →
        ∃ buf', parseUdpChecked Rfc1928.codec buf = some (buf', .ok (.domain "a.b" 53)) ∧
          buf'.filled = [] :=
  (parse_udp_undoes_pack_udp _ _ Rfc1928.codec_undoes).1 (.domain "a.b" 53) []
    (show "a.b".utf8ByteSize ≤ 255 by decide)

end RabbitDigger
