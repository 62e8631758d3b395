import Mathlib.Data.Int.Notation
import Mathlib.Data.List.Basic

/-! The header in front of a QUIC datagram that is forwarded to another worker: the two
addresses and the time to live. The decoder reads whatever a socket receives, so a read past
the end of the datagram is an outcome of its own. -/

namespace Busker.UdpTransport

/-- A field of a fixed number of bytes, in the order it has in memory. -/
abbrev Bytes (n : ℕ) := { bytes : List UInt8 // bytes.length = n }

/-- What the header keeps of a `quicly_address_t`. -/
inductive QuicAddress
  | inet (addr : Bytes 4) (port : Bytes 2)
  | inet6 (addr : Bytes 16) (port : Bytes 2)
  | unspec
  | otherFamily (family : ℕ)
  deriving DecidableEq, Repr

/-- The families the transport has sockets for. -/
def QuicAddress.Supported : QuicAddress → Prop
  | .otherFamily _ => False
  | _ => True

/-- `quicly_encode32` and `quicly_decode32`, which are in the QUIC library. -/
structure Quicly where
  encode32 : UInt32 → List UInt8
  decode32 : Bytes 4 → UInt32

/-- Four bytes are written, and the same four are read as the number. -/
structure Quicly.Lawful (quicly : Quicly) : Prop where
  length (v : UInt32) : (quicly.encode32 v).length = 4
  decode (v : UInt32) : quicly.decode32 ⟨quicly.encode32 v, length v⟩ = v

def forwardedHeaderMaxSize : ℕ := 1 + 4 + (1 + 16 + 2) * 2 + 1

def forwardedVersion : UInt32 := 0x91c17000

/-- `clj_encode_quic_address`; `none` is the null pointer. -/
def encodeQuicAddress : QuicAddress → Option (List UInt8)
  | .inet addr port => some (4 :: addr.val ++ port.val)
  | .inet6 addr port => some (6 :: addr.val ++ port.val)
  | .unspec => some [0]
  | .otherFamily _ => none

/-- `clj_encode_quic_forwarded_header`; `none` is `SIZE_MAX`. -/
def encodeQuicForwardedHeader (quicly : Quicly) (destaddr srcaddr : QuicAddress) (ttl : UInt8) :
    Option (List UInt8) := do
  let dest ← encodeQuicAddress destaddr
  let src ← encodeQuicAddress srcaddr
  return 0x80 :: quicly.encode32 forwardedVersion ++ dest ++ src ++ [ttl]

/-- Why a decoder stops: the datagram is not forwarded, or a byte past its end is read. -/
inductive Stopped
  | notForwarded
  | pastEnd
  deriving DecidableEq, Repr

section
variable (octets : List UInt8)

/-- `memcpy` of a field, and the read of four bytes in `quicly_decode32`. -/
def readField (src n : ℕ) : Except Stopped (Bytes n) :=
  if fits : src + n ≤ octets.length then .ok ⟨(octets.drop src).take n, by simp; omega⟩
  else .error .pastEnd

def readByte (src : ℕ) : Except Stopped UInt8 :=
  match octets[src]? with
  | some byte => .ok byte
  | none => .error .pastEnd

/-- `end - src`, a difference of pointers. -/
def left (src : ℕ) : ℤ := octets.length - src

/-- `clj_decode_quic_address`, with the pointer it leaves. -/
def decodeQuicAddress (src : ℕ) : Except Stopped (QuicAddress × ℕ) :=
  if octets.length ≤ src then .error .notForwarded
  else do
    let family ← readByte octets src
    let src := src + 1
    if family = 4 then
      if left octets src < 6 then .error .notForwarded
      else
        let addr ← readField octets src 4
        let port ← readField octets (src + 4) 2
        return (.inet addr port, src + 6)
    else if family = 6 then
      if left octets src < 18 then .error .notForwarded
      else
        let addr ← readField octets src 16
        let port ← readField octets (src + 16) 2
        return (.inet6 addr port, src + 18)
    else if family = 0 then return (.unspec, src)
    else .error .notForwarded

/-- The decoded header, and where the packet begins. -/
structure ForwardedHeader where
  destaddr : QuicAddress
  srcaddr : QuicAddress
  ttl : UInt8
  offset : ℕ
  deriving DecidableEq, Repr

/-- `clj_decode_quic_forwarded_header` -/
def decodeQuicForwardedHeader (quicly : Quicly) : Except Stopped ForwardedHeader :=
  if left octets 0 < 6 then .error .notForwarded
  else do
    let first ← readByte octets 0
    if first ≠ 0x80 then .error .notForwarded
    else
      let version ← readField octets 1 4
      if quicly.decode32 version ≠ forwardedVersion then .error .notForwarded
      else
        let (destaddr, src) ← decodeQuicAddress octets 5
        let (srcaddr, src) ← decodeQuicAddress octets src
        if left octets src < 1 then .error .notForwarded
        else
          let ttl ← readByte octets src
          return ⟨destaddr, srcaddr, ttl, src + 1⟩

end

section
variable {octets : List UInt8} {src n : ℕ}

theorem readField_ok (fits : src + n ≤ octets.length) :
    ∃ field, readField octets src n = .ok field := by
  unfold readField
  exact ⟨_, dif_pos fits⟩

theorem readByte_ok (inside : src < octets.length) : ∃ byte, readByte octets src = .ok byte := by
  unfold readByte
  rw [List.getElem?_eq_getElem inside]
  exact ⟨_, rfl⟩

theorem readField_append (front rest : List UInt8) (field : Bytes n) :
    readField (front ++ (field.val ++ rest)) front.length n = .ok field := by
  obtain ⟨bytes, rfl⟩ := field
  have fits : front.length + bytes.length ≤ (front ++ (bytes ++ rest)).length := by simp
  unfold readField
  rw [dif_pos fits]
  congr 1
  apply Subtype.ext
  dsimp only
  rw [List.drop_left, List.take_left]

theorem readByte_append (front rest : List UInt8) (byte : UInt8) :
    readByte (front ++ byte :: rest) front.length = .ok byte := by
  unfold readByte
  rw [List.getElem?_append_right (Nat.le_refl _), Nat.sub_self]
  rfl

/-- The address decoder stays inside the datagram. -/
theorem decodeQuicAddress_within (octets : List UInt8) (src : ℕ) :
    decodeQuicAddress octets src = .error .notForwarded ∨
      ∃ address src', decodeQuicAddress octets src = .ok (address, src') ∧
        src' ≤ octets.length := by
  have fields : ∀ n : ℕ, ¬ left octets (src + 1) < n + 2 → ∃ (addr : Bytes n) (port : Bytes 2),
      readField octets (src + 1) n = .ok addr ∧ readField octets (src + 1 + n) 2 = .ok port ∧
        src + 1 + (n + 2) ≤ octets.length := by
    intro n room
    unfold left at room
    obtain ⟨addr, first⟩ := readField_ok (show src + 1 + n ≤ octets.length by omega)
    obtain ⟨port, second⟩ := readField_ok (show src + 1 + n + 2 ≤ octets.length by omega)
    exact ⟨addr, port, first, second, by omega⟩
  unfold decodeQuicAddress
  by_cases atEnd : octets.length ≤ src
  · exact .inl (if_pos atEnd)
  rw [if_neg atEnd]
  obtain ⟨family, read⟩ := readByte_ok (Nat.lt_of_not_le atEnd)
  simp only [read, bind, Except.bind]
  by_cases four : family = 4
  · rw [if_pos four]
    by_cases short : left octets (src + 1) < 6
    · exact .inl (if_pos short)
    · obtain ⟨addr, port, first, second, fits⟩ := fields 4 (by omega)
      rw [if_neg short, first, second]
      exact .inr ⟨_, _, rfl, fits⟩
  rw [if_neg four]
  by_cases six : family = 6
  · rw [if_pos six]
    by_cases short : left octets (src + 1) < 18
    · exact .inl (if_pos short)
    · obtain ⟨addr, port, first, second, fits⟩ := fields 16 (by omega)
      rw [if_neg short, first, second]
      exact .inr ⟨_, _, rfl, fits⟩
  rw [if_neg six]
  by_cases zero : family = 0
  · rw [if_pos zero]
    exact .inr ⟨_, _, rfl, Nat.lt_of_not_le atEnd⟩
  · exact .inl (if_neg zero)

/-- The fields of an encoded address are read back from behind its family. -/
theorem encoded_fields (front rest : List UInt8) (family : UInt8) (addr : Bytes n)
    (port : Bytes 2) :
    let octets := front ++ (family :: addr.val ++ port.val ++ rest)
    readField octets (front.length + 1) n = .ok addr ∧
      readField octets (front.length + 1 + n) 2 = .ok port ∧
        left octets (front.length + 1) = n + 2 + rest.length := by
  have addrAt : front.length + 1 = (front ++ [family]).length := by simp
  have portAt : front.length + 1 + n = (front ++ [family] ++ addr.val).length := by
    rw [List.length_append, ← addrAt, addr.property]
  have addrText : front ++ (family :: addr.val ++ port.val ++ rest) =
      (front ++ [family]) ++ (addr.val ++ (port.val ++ rest)) := by simp
  have portText : front ++ (family :: addr.val ++ port.val ++ rest) =
      (front ++ [family] ++ addr.val) ++ (port.val ++ rest) := by simp
  refine ⟨?_, ?_, ?_⟩
  · rw [addrAt, addrText]
    exact readField_append _ _ addr
  · rw [portAt, portText]
    exact readField_append _ _ port
  · simp only [left, List.length_append, List.length_cons, addr.property, port.property]
    omega

/-- What one encoded address is decoded to, wherever it stands. -/
theorem decodeQuicAddress_encoded {address : QuicAddress} {bytes : List UInt8}
    (encoded : encodeQuicAddress address = some bytes) (front rest : List UInt8) :
    decodeQuicAddress (front ++ (bytes ++ rest)) front.length =
      .ok (address, front.length + bytes.length) := by
  have room : bytes ≠ [] → ¬ (front ++ (bytes ++ rest)).length ≤ front.length := by
    intro filled
    have := List.length_pos_iff.mpr filled
    simp only [List.length_append]
    omega
  unfold decodeQuicAddress
  cases address with
  | inet addr port =>
      obtain rfl := Option.some.inj encoded
      obtain ⟨first, second, long⟩ := encoded_fields front rest 4 addr port
      have family : readByte (front ++ (4 :: addr.val ++ port.val ++ rest)) front.length = .ok 4 :=
        readByte_append front _ 4
      rw [if_neg (room (List.cons_ne_nil _ _))]
      simp only [family, bind, Except.bind]
      rw [if_pos trivial, if_neg (by omega), first, second]
      simp [pure, Except.pure, addr.property, port.property, Nat.add_assoc]
  | inet6 addr port =>
      obtain rfl := Option.some.inj encoded
      obtain ⟨first, second, long⟩ := encoded_fields front rest 6 addr port
      have family : readByte (front ++ (6 :: addr.val ++ port.val ++ rest)) front.length = .ok 6 :=
        readByte_append front _ 6
      rw [if_neg (room (List.cons_ne_nil _ _))]
      simp only [family, bind, Except.bind]
      rw [if_neg (by decide), if_pos trivial, if_neg (by omega), first, second]
      simp [pure, Except.pure, addr.property, port.property, Nat.add_assoc]
  | unspec =>
      obtain rfl := Option.some.inj encoded
      have family : readByte (front ++ ([0] ++ rest)) front.length = .ok 0 :=
        readByte_append front _ 0
      rw [if_neg (room (List.cons_ne_nil _ _)), family]
      rfl
  | otherFamily family => cases encoded

theorem encodeQuicAddress_length {address : QuicAddress} {bytes : List UInt8}
    (encoded : encodeQuicAddress address = some bytes) : bytes.length ≤ 1 + 16 + 2 := by
  cases address with
  | inet addr port =>
      obtain rfl := Option.some.inj encoded
      simp [addr.property, port.property]
  | inet6 addr port =>
      obtain rfl := Option.some.inj encoded
      simp [addr.property, port.property]
  | unspec =>
      obtain rfl := Option.some.inj encoded
      simp
  | otherFamily family => cases encoded

/-- The decoder stays inside any datagram, and so does the packet. -/
theorem decodeQuicForwardedHeader_within (quicly : Quicly) (octets : List UInt8) :
    decodeQuicForwardedHeader octets quicly = .error .notForwarded ∨
      ∃ header, decodeQuicForwardedHeader octets quicly = .ok header ∧
        header.offset ≤ octets.length := by
  unfold decodeQuicForwardedHeader
  by_cases short : left octets 0 < 6
  · exact .inl (if_pos short)
  rw [if_neg short]
  unfold left at short
  obtain ⟨first, readFirst⟩ := readByte_ok (show 0 < octets.length by omega)
  obtain ⟨version, readVersion⟩ := readField_ok (show 1 + 4 ≤ octets.length by omega)
  simp only [readFirst, readVersion, bind, Except.bind]
  by_cases other : first ≠ 0x80
  · exact .inl (if_pos other)
  rw [if_neg other]
  by_cases unknown : quicly.decode32 version ≠ forwardedVersion
  · exact .inl (if_pos unknown)
  rw [if_neg unknown]
  rcases decodeQuicAddress_within octets 5 with stopped | ⟨destaddr, src, decoded, -⟩
  · rw [stopped]
    exact .inl rfl
  rw [decoded]
  dsimp only
  rcases decodeQuicAddress_within octets src with stopped | ⟨srcaddr, src', decoded', -⟩
  · rw [stopped]
    exact .inl rfl
  rw [decoded']
  dsimp only
  by_cases ended : left octets src' < 1
  · exact .inl (if_pos ended)
  rw [if_neg ended]
  unfold left at ended
  obtain ⟨ttl, readTtl⟩ := readByte_ok (show src' < octets.length by omega)
  rw [readTtl]
  refine .inr ⟨_, rfl, ?_⟩
  dsimp only
  omega

theorem QuicAddress.Supported.encoded {address : QuicAddress} (supported : address.Supported) :
    ∃ bytes, encodeQuicAddress address = some bytes := by
  cases address with
  | otherFamily family => exact supported.elim
  | _ => exact ⟨_, rfl⟩

/-- An encoded header in front of a payload is decoded to what it was made from, and ends
where the payload begins. -/
theorem decodeQuicForwardedHeader_encoded {quicly : Quicly} (lawful : quicly.Lawful)
    {destaddr srcaddr : QuicAddress} {ttl : UInt8} {header : List UInt8}
    (encoded : encodeQuicForwardedHeader quicly destaddr srcaddr ttl = some header)
    (payload : List UInt8) :
    decodeQuicForwardedHeader (header ++ payload) quicly =
      .ok ⟨destaddr, srcaddr, ttl, header.length⟩ := by
  obtain ⟨dest, fromDest, encoded⟩ := Option.bind_eq_some_iff.mp encoded
  obtain ⟨src, fromSrc, encoded⟩ := Option.bind_eq_some_iff.mp encoded
  obtain rfl := Option.some.inj encoded
  have size := lawful.length forwardedVersion
  generalize word : quicly.encode32 forwardedVersion = version at size
  have known : quicly.decode32 ⟨version, size⟩ = forwardedVersion := by
    subst word
    exact lawful.decode forwardedVersion
  have start : (0x80 :: version).length = 5 := by rw [List.length_cons, size]
  have middle : (0x80 :: version ++ dest).length = 5 + dest.length := by
    rw [List.length_append, start]
  have back : (0x80 :: version ++ dest ++ src).length = 5 + dest.length + src.length := by
    rw [List.length_append, middle]
  have readFirst := readByte_append [] (version ++ (dest ++ (src ++ ttl :: payload))) 0x80
  have readVersion := readField_append [0x80] (dest ++ (src ++ ttl :: payload)) ⟨version, size⟩
  have readDest := decodeQuicAddress_encoded fromDest (0x80 :: version) (src ++ ttl :: payload)
  have readSrc := decodeQuicAddress_encoded fromSrc (0x80 :: version ++ dest) (ttl :: payload)
  have readTtl := readByte_append (0x80 :: version ++ dest ++ src) payload ttl
  rw [start] at readDest
  rw [middle] at readSrc
  rw [back] at readTtl
  simp only [List.append_assoc, List.cons_append, List.nil_append, List.length_nil,
    List.length_singleton] at readFirst readVersion readDest readSrc readTtl
  simp only [List.append_assoc, List.cons_append, List.nil_append]
  unfold decodeQuicForwardedHeader left
  rw [if_neg (by simp [size]; omega)]
  simp only [readFirst, readVersion, bind, Except.bind]
  rw [if_neg (by simp), if_neg (by simp [known]), readDest]
  dsimp only
  rw [readSrc]
  dsimp only
  rw [if_neg (by simp [size]; omega), readTtl]
  simp [pure, Except.pure, size]
  omega

theorem encodeQuicForwardedHeader_length {quicly : Quicly} (lawful : quicly.Lawful)
    {destaddr srcaddr : QuicAddress} {ttl : UInt8} {header : List UInt8}
    (encoded : encodeQuicForwardedHeader quicly destaddr srcaddr ttl = some header) :
    header.length ≤ forwardedHeaderMaxSize := by
  obtain ⟨dest, fromDest, encoded⟩ := Option.bind_eq_some_iff.mp encoded
  obtain ⟨src, fromSrc, encoded⟩ := Option.bind_eq_some_iff.mp encoded
  obtain rfl := Option.some.inj encoded
  have := encodeQuicAddress_length fromDest
  have := encodeQuicAddress_length fromSrc
  simp only [List.length_append, List.length_cons, lawful.length, List.length_nil,
    forwardedHeaderMaxSize]
  omega

/-- The header round-trips in front of any payload, and no datagram is read past its end. -/
theorem forwardedHeader_roundTrip (quicly : Quicly) (lawful : quicly.Lawful) :
    (∀ destaddr srcaddr ttl, destaddr.Supported → srcaddr.Supported →
      ∃ header, encodeQuicForwardedHeader quicly destaddr srcaddr ttl = some header ∧
        header.length ≤ forwardedHeaderMaxSize ∧
        ∀ payload, decodeQuicForwardedHeader (header ++ payload) quicly =
          .ok ⟨destaddr, srcaddr, ttl, header.length⟩) ∧
      ∀ octets, decodeQuicForwardedHeader octets quicly ≠ .error .pastEnd ∧
        ∀ header, decodeQuicForwardedHeader octets quicly = .ok header →
          header.offset ≤ octets.length := by
  constructor
  · intro destaddr srcaddr ttl supported supported'
    obtain ⟨dest, fromDest⟩ := supported.encoded
    obtain ⟨src, fromSrc⟩ := supported'.encoded
    have encoded : encodeQuicForwardedHeader quicly destaddr srcaddr ttl =
        some (0x80 :: quicly.encode32 forwardedVersion ++ dest ++ src ++ [ttl]) := by
      simp [encodeQuicForwardedHeader, fromDest, fromSrc]
    exact ⟨_, encoded, encodeQuicForwardedHeader_length lawful encoded,
      decodeQuicForwardedHeader_encoded lawful encoded⟩
  · intro octets
    rcases decodeQuicForwardedHeader_within quicly octets with stopped | ⟨header, decoded, within⟩
    · rw [stopped]
      exact ⟨by simp, fun _ impossible => by cases impossible⟩
    · rw [decoded]
      refine ⟨by simp, fun other same => ?_⟩
      rwa [← Except.ok.inj same]

/-- The library writes the most significant byte first. -/
def bigEndian : Quicly where
  encode32 v := [16777216, 65536, 256, 1].map fun place => UInt8.ofNat (v.toNat / place)
  decode32 bytes := UInt32.ofNat (bytes.val.foldl (fun v byte => v * 256 + byte.toNat) 0)

theorem bigEndian_lawful : bigEndian.Lawful where
  length _ := rfl
  decode v := by
    have small := v.toNat_lt
    apply UInt32.toNat_inj.mp
    simp only [bigEndian, List.map_cons, List.map_nil, List.foldl_cons, List.foldl_nil,
      UInt8.toNat_ofNat', UInt32.toNat_ofNat']
    omega

/-- A datagram of three bytes from an IPv4 address to an IPv6 address. -/
theorem bigEndian_roundTrip :
    (QuicAddress.inet6 ⟨List.replicate 16 1, rfl⟩ ⟨[1, 187], rfl⟩).Supported ∧
      (∀ octets, decodeQuicForwardedHeader octets bigEndian ≠ .error .pastEnd ∧
        ∀ header, decodeQuicForwardedHeader octets bigEndian = .ok header →
          header.offset ≤ octets.length) ∧
      ∃ header, encodeQuicForwardedHeader bigEndian
          (.inet6 ⟨List.replicate 16 1, rfl⟩ ⟨[1, 187], rfl⟩)
          (.inet ⟨[127, 0, 0, 1], rfl⟩ ⟨[2, 1], rfl⟩) 3 = some header ∧
        decodeQuicForwardedHeader (header ++ [7, 8, 9]) bigEndian =
          .ok ⟨.inet6 ⟨List.replicate 16 1, rfl⟩ ⟨[1, 187], rfl⟩,
            .inet ⟨[127, 0, 0, 1], rfl⟩ ⟨[2, 1], rfl⟩, 3, header.length⟩ := by
  obtain ⟨encodes, within⟩ := forwardedHeader_roundTrip bigEndian bigEndian_lawful
  obtain ⟨header, encoded, -, decoded⟩ := encodes
    (.inet6 ⟨List.replicate 16 1, rfl⟩ ⟨[1, 187], rfl⟩)
    (.inet ⟨[127, 0, 0, 1], rfl⟩ ⟨[2, 1], rfl⟩) 3 trivial trivial
  exact ⟨trivial, within, header, encoded, decoded [7, 8, 9]⟩

end

end Busker.UdpTransport
