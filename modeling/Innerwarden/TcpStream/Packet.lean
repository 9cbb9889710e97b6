import Mathlib.Tactic.IntervalCases
import Innerwarden.Lib.BigEndian

/-!
# Ethernet frames with TCP packets

`FlowKey` and `parse_tcp_packet` of `sensor/src/collectors/tcp_stream.rs`.  An *Ethernet frame*
is written here from its fields, with or without a tag, with any options and any padding.  The
parser reads the fields back (`parseTcpPacket_bytes`), and the padding at the end of the payload,
since it does not read the total length.  It checks every length before it accesses a byte.
-/

namespace Innerwarden.TcpStream

open BigEndian List

/-- The two ends of a connection, from one of them to the other. -/
structure FlowKey where
  srcIp : UInt32
  dstIp : UInt32
  srcPort : UInt16
  dstPort : UInt16
  proto : UInt8
deriving DecidableEq

def FlowKey.reverse (k : FlowKey) : FlowKey := ⟨k.dstIp, k.srcIp, k.dstPort, k.srcPort, k.proto⟩

@[simp] theorem FlowKey.reverse_reverse (k : FlowKey) : k.reverse.reverse = k := rfl

/-! ## The parser -/

def byteAt (bytes : List UInt8) (i : Nat) : UInt8 := bytes.getD i 0

/-- `u16::from_be_bytes` of the two bytes at `i`. -/
def u16At (bytes : List UInt8) (i : Nat) : UInt16 := UInt16.ofNat (ofBytes ((bytes.drop i).take 2))

/-- `u32::from_be_bytes` of the four bytes at `i`. -/
def u32At (bytes : List UInt8) (i : Nat) : UInt32 := UInt32.ofNat (ofBytes ((bytes.drop i).take 4))

/-- Where the datagram starts: IPv4, or a tag before it. -/
def ipStartOf (ethertype : UInt16) : Option Nat :=
  if ethertype = 0x0800 then some 14 else if ethertype = 0x8100 then some 18 else none

/-- `parse_tcp_packet`: the key, the flags, the sequence number and the payload. -/
def parseTcpPacket (raw : List UInt8) : Option (FlowKey × UInt8 × UInt32 × List UInt8) :=
  if raw.length < 14 then none
  else
    match ipStartOf (u16At raw 12) with
    | none => none
    | some ipStart =>
      if raw.length < ipStart + 20 then none
      else
        let ipHeader := raw.drop ipStart
        let ipHeaderLen := (byteAt ipHeader 0 &&& 0x0f).toNat * 4
        let tcpStart := ipStart + ipHeaderLen
        if byteAt ipHeader 0 >>> 4 ≠ 4 then none
        else if byteAt ipHeader 9 ≠ 6 then none
        else if raw.length < tcpStart + 20 then none
        else
          let tcp := raw.drop tcpStart
          let payloadStart := tcpStart + (byteAt tcp 12 >>> 4).toNat * 4
          some (⟨u32At ipHeader 12, u32At ipHeader 16, u16At tcp 0, u16At tcp 2, 6⟩,
            byteAt tcp 13, u32At tcp 4,
            if payloadStart < raw.length then raw.drop payloadStart else [])

/-! ## Frames -/

/-- The options of a header fill whole words, at most ten. -/
structure Options where
  bytes : List UInt8
  aligned : bytes.length % 4 = 0
  short : bytes.length ≤ 40

/-- The fields of a segment. -/
structure TcpSegment where
  srcPort : UInt16
  dstPort : UInt16
  seq : UInt32
  ackNumber : UInt32
  /-- The four bits after the length of the header. -/
  reserved : Fin 16
  flags : UInt8
  window : UInt16
  checksum : UInt16
  urgent : UInt16
  options : Options
  payload : List UInt8

def TcpSegment.headerLength (s : TcpSegment) : Nat := 20 + s.options.bytes.length

def TcpSegment.bytes (s : TcpSegment) : List UInt8 :=
  toBytes 2 s.srcPort.toNat ++ toBytes 2 s.dstPort.toNat ++ toBytes 4 s.seq.toNat ++
    toBytes 4 s.ackNumber.toNat ++ [UInt8.ofNat (s.headerLength / 4 * 16 + s.reserved), s.flags] ++
    toBytes 2 s.window.toNat ++ toBytes 2 s.checksum.toNat ++ toBytes 2 s.urgent.toNat ++
    s.options.bytes ++ s.payload

/-- The fields of a packet. -/
structure Ipv4Packet where
  typeOfService : UInt8
  identification : UInt16
  fragment : UInt16
  timeToLive : UInt8
  checksum : UInt16
  src : UInt32
  dst : UInt32
  options : Options
  segment : TcpSegment
  /-- The total length fits its field. -/
  fits : 20 + options.bytes.length + segment.bytes.length < 2 ^ 16

def Ipv4Packet.headerLength (p : Ipv4Packet) : Nat := 20 + p.options.bytes.length

def Ipv4Packet.totalLength (p : Ipv4Packet) : Nat := p.headerLength + p.segment.bytes.length

def Ipv4Packet.bytes (p : Ipv4Packet) : List UInt8 :=
  [UInt8.ofNat (0x40 + p.headerLength / 4), p.typeOfService] ++ toBytes 2 p.totalLength ++
    toBytes 2 p.identification.toNat ++ toBytes 2 p.fragment.toNat ++ [p.timeToLive, 6] ++
    toBytes 2 p.checksum.toNat ++ toBytes 4 p.src.toNat ++ toBytes 4 p.dst.toNat ++
    p.options.bytes ++ p.segment.bytes

/-- The fields of a frame. -/
structure EthernetFrame where
  dstMac : List UInt8
  srcMac : List UInt8
  /-- The control information of a tag. -/
  tag : Option UInt16
  packet : Ipv4Packet
  padding : List UInt8
  dstMac_length : dstMac.length = 6
  srcMac_length : srcMac.length = 6

/-- The header of the link: the addresses, the tag and the type. -/
def EthernetFrame.link (f : EthernetFrame) : List UInt8 :=
  f.dstMac ++ f.srcMac ++
    match f.tag with
    | none => toBytes 2 0x0800
    | some tci => toBytes 2 0x8100 ++ toBytes 2 tci.toNat ++ toBytes 2 0x0800

def EthernetFrame.bytes (f : EthernetFrame) : List UInt8 :=
  f.link ++ f.packet.bytes ++ f.padding

def EthernetFrame.key (f : EthernetFrame) : FlowKey :=
  ⟨f.packet.src, f.packet.dst, f.packet.segment.srcPort, f.packet.segment.dstPort, 6⟩

/-! ## Reading the fields back -/

variable (f : EthernetFrame) (s : TcpSegment) (p : Ipv4Packet) (rest : List UInt8)

theorem TcpSegment.length_bytes : s.bytes.length = s.headerLength + s.payload.length := by
  simp only [bytes, headerLength, length_append, length_toBytes, length_cons,
    length_nil]

theorem Ipv4Packet.length_bytes : p.bytes.length = p.totalLength := by
  simp only [bytes, totalLength, headerLength, length_append, length_toBytes,
    length_cons, length_nil]

/-- The fields of the IP header that the parser reads. -/
structure ReadsIp (h : List UInt8) (p : Ipv4Packet) : Prop where
  first : byteAt h 0 = UInt8.ofNat (0x40 + p.headerLength / 4)
  protocol : byteAt h 9 = 6
  src : u32At h 12 = p.src
  dst : u32At h 16 = p.dst

theorem readsIp : ReadsIp (p.bytes ++ rest) p where
  first := rfl
  protocol := rfl
  src := ofNat_ofBytes_four p.src
  dst := ofNat_ofBytes_four p.dst

/-- The fields of the TCP header that the parser reads. -/
structure ReadsTcp (h : List UInt8) (s : TcpSegment) : Prop where
  srcPort : u16At h 0 = s.srcPort
  dstPort : u16At h 2 = s.dstPort
  seq : u32At h 4 = s.seq
  offset : byteAt h 12 = UInt8.ofNat (s.headerLength / 4 * 16 + s.reserved)
  flags : byteAt h 13 = s.flags

theorem readsTcp : ReadsTcp (s.bytes ++ rest) s where
  srcPort := ofNat_ofBytes_two s.srcPort
  dstPort := ofNat_ofBytes_two s.dstPort
  seq := ofNat_ofBytes_four s.seq
  offset := rfl
  flags := rfl

/-! ### Lengths of headers -/

theorem Options.exists_words (o : Options) : ∃ n ≤ 10, o.bytes.length = 4 * n := by
  have haligned := o.aligned
  have hshort := o.short
  exact ⟨o.bytes.length / 4, by omega, by omega⟩

theorem ipHeaderLen_eq :
    UInt8.ofNat (0x40 + p.headerLength / 4) >>> 4 = 4 ∧
      (UInt8.ofNat (0x40 + p.headerLength / 4) &&& 0x0f).toNat * 4 = p.headerLength := by
  obtain ⟨n, hn, hlength⟩ := p.options.exists_words
  have hwords : p.headerLength / 4 = 5 + n := by
    rw [Ipv4Packet.headerLength]
    omega
  rw [hwords, Ipv4Packet.headerLength, hlength]
  interval_cases n <;> decide

theorem tcpDataOffset_eq :
    (UInt8.ofNat (s.headerLength / 4 * 16 + s.reserved) >>> 4).toNat * 4 = s.headerLength := by
  obtain ⟨n, hn, hlength⟩ := s.options.exists_words
  have hreserved := s.reserved.isLt
  have hwords : s.headerLength / 4 = 5 + n := by
    rw [TcpSegment.headerLength]
    omega
  have hbyte : (UInt8.ofNat ((5 + n) * 16 + s.reserved)).toNat = (5 + n) * 16 + s.reserved := by
    rw [UInt8.toNat_ofNat']
    exact Nat.mod_eq_of_lt (by omega)
  rw [hwords, UInt8.toNat_shiftRight, hbyte, Nat.shiftRight_eq_div_pow, TcpSegment.headerLength,
    hlength]
  have hshift : (4 : UInt8).toNat % 8 = 4 := rfl
  rw [hshift]
  omega

/-! ### Parts of a frame -/

theorem drop_segment : (p.bytes ++ rest).drop p.headerLength = p.segment.bytes ++ rest := by
  rw [Ipv4Packet.bytes, append_assoc]
  refine drop_left' ?_
  simp only [Ipv4Packet.headerLength, length_append, length_toBytes, length_cons,
    length_nil]

theorem drop_payload : (s.bytes ++ rest).drop s.headerLength = s.payload ++ rest := by
  rw [TcpSegment.bytes, append_assoc]
  refine drop_left' ?_
  simp only [TcpSegment.headerLength, length_append, length_toBytes, length_cons,
    length_nil]

theorem u16At_left {l rest : List UInt8} {i : Nat} (h : l.length = i) (n : Nat) :
    u16At (l ++ (toBytes 2 n ++ rest)) i = UInt16.ofNat (n % 256 ^ 2) := by
  rw [u16At, drop_left' h, take_left' (length_toBytes 2 n), ofBytes_toBytes]

/-- The type of a frame tells where its datagram starts. -/
theorem EthernetFrame.ipStartOf_type : ipStartOf (u16At f.bytes 12) = some f.link.length := by
  have hmacs : (f.dstMac ++ f.srcMac).length = 12 := by
    rw [length_append, f.dstMac_length, f.srcMac_length]
  cases htag : f.tag with
  | none =>
    have hlink : f.link = f.dstMac ++ f.srcMac ++ toBytes 2 0x0800 := by
      rw [EthernetFrame.link, htag]
    have hlength : f.link.length = 14 := by
      rw [hlink, length_append, hmacs, length_toBytes]
    rw [hlength, EthernetFrame.bytes, hlink, append_assoc, append_assoc,
      u16At_left hmacs]
    decide
  | some tci =>
    have hlink : f.link = f.dstMac ++ f.srcMac ++
        (toBytes 2 0x8100 ++ (toBytes 2 tci.toNat ++ toBytes 2 0x0800)) := by
      rw [EthernetFrame.link, htag, ← append_assoc (toBytes 2 0x8100)]
    have hlength : f.link.length = 18 := by
      simp only [hlink, length_append, f.dstMac_length, f.srcMac_length, length_toBytes]
    rw [hlength, EthernetFrame.bytes, hlink, append_assoc, append_assoc,
      append_assoc (toBytes 2 0x8100), u16At_left hmacs]
    decide

theorem EthernetFrame.drop_link : f.bytes.drop f.link.length = f.packet.bytes ++ f.padding := by
  rw [EthernetFrame.bytes, append_assoc]
  exact drop_left' rfl

theorem EthernetFrame.link_length : 14 ≤ f.link.length := by
  simp only [EthernetFrame.link, length_append, f.dstMac_length, f.srcMac_length]
  split <;> simp only [length_append, length_toBytes] <;> omega

theorem drop_eq_ite (l : List UInt8) (n : Nat) :
    (if n < l.length then l.drop n else []) = l.drop n := by
  split
  case isTrue => rfl
  case isFalse h => exact (drop_eq_nil_of_le (Nat.not_lt.mp h)).symm

/-- The parser reads every field of a frame back, and the padding with the payload. -/
theorem parseTcpPacket_bytes :
    parseTcpPacket f.bytes =
      some (f.key, f.packet.segment.flags, f.packet.segment.seq,
        f.packet.segment.payload ++ f.padding) := by
  have htcp : f.bytes.drop (f.link.length + f.packet.headerLength) =
      f.packet.segment.bytes ++ f.padding := by
    rw [← drop_drop, f.drop_link, drop_segment]
  have hpayload : f.bytes.drop (f.link.length + f.packet.headerLength +
      f.packet.segment.headerLength) = f.packet.segment.payload ++ f.padding := by
    rw [← drop_drop, htcp, drop_payload]
  have hlength : f.bytes.length = f.link.length + (f.packet.headerLength +
      (f.packet.segment.headerLength + f.packet.segment.payload.length)) + f.padding.length := by
    rw [EthernetFrame.bytes, length_append, length_append, Ipv4Packet.length_bytes,
      Ipv4Packet.totalLength, TcpSegment.length_bytes]
  have hheader : 20 ≤ f.packet.headerLength := Nat.le_add_right ..
  have hsegment : 20 ≤ f.packet.segment.headerLength := Nat.le_add_right ..
  have hlink := f.link_length
  have hreadIp := readsIp f.packet f.padding
  have hreadTcp := readsTcp f.packet.segment f.padding
  obtain ⟨hversion, hheaderLen⟩ := ipHeaderLen_eq f.packet
  have hoffset := tcpDataOffset_eq f.packet.segment
  have h14 : ¬ f.bytes.length < 14 := by omega
  have h20 : ¬ f.bytes.length < f.link.length + 20 := by omega
  have h40 : ¬ f.bytes.length < f.link.length + f.packet.headerLength + 20 := by omega
  simp only [parseTcpPacket, h14, if_false, f.ipStartOf_type, h20, f.drop_link, hreadIp.first,
    hversion, hheaderLen, hreadIp.protocol, h40, htcp, hreadTcp.offset, hoffset, drop_eq_ite,
    hreadIp.src, hreadIp.dst, hreadTcp.srcPort, hreadTcp.dstPort, hreadTcp.flags, hreadTcp.seq,
    ne_eq, not_true_eq_false]
  rw [hpayload]
  rfl

theorem payload_eq_drop :
    f.packet.segment.payload =
      ((f.bytes.drop f.link.length).take f.packet.totalLength).drop
        (f.packet.headerLength + f.packet.segment.headerLength) := by
  have hsegment := drop_segment f.packet []
  have hpayload := drop_payload f.packet.segment []
  simp only [append_nil] at hsegment hpayload
  rw [f.drop_link, take_left' f.packet.length_bytes, ← drop_drop, hsegment, hpayload]

/-- The parser returns the fields of the segment and the payload of the datagram exactly if the
frame has no padding. -/
theorem parseTcpPacket_exact_iff (f : EthernetFrame) :
    parseTcpPacket f.bytes =
        some (f.key, f.packet.segment.flags, f.packet.segment.seq,
          ((f.bytes.drop f.link.length).take f.packet.totalLength).drop
            (f.packet.headerLength + f.packet.segment.headerLength)) ↔
      f.bytes.length = f.link.length + f.packet.totalLength := by
  have hlength : f.bytes.length = f.link.length + f.packet.totalLength + f.padding.length := by
    rw [EthernetFrame.bytes, length_append, length_append, Ipv4Packet.length_bytes]
  rw [parseTcpPacket_bytes, ← payload_eq_drop, hlength]
  simp only [Option.some.injEq, Prod.mk.injEq, true_and, append_right_eq_self,
    Nat.add_eq_left, length_eq_zero_iff]

/-- An acknowledgement without data, in a frame of at least 54 bytes. -/
def ackFrame (padding : List UInt8) : EthernetFrame where
  dstMac := [2, 0, 0, 0, 0, 1]
  srcMac := [2, 0, 0, 0, 0, 2]
  tag := none
  packet :=
    { typeOfService := 0, identification := 1, fragment := 0x4000, timeToLive := 64, checksum := 0,
      src := 0x0a000001, dst := 0x0a000002, options := ⟨[], rfl, by decide⟩,
      segment :=
        { srcPort := 40000, dstPort := 80, seq := 1000, ackNumber := 2000, reserved := 0,
          flags := 0x10, window := 512, checksum := 0, urgent := 0, options := ⟨[], rfl, by decide⟩,
          payload := [] },
      fits := by decide }
  padding := padding
  dstMac_length := rfl
  srcMac_length := rfl

/-- The padding of an acknowledgement to the smallest frame is returned as six bytes of data. -/
theorem padding_returned :
    let f := ackFrame [0, 0, 0, 0, 0, 0]
    f.bytes.length = 60 ∧ f.packet.segment.payload = [] ∧
      (parseTcpPacket f.bytes).map (fun r => r.2.2.2) = some [0, 0, 0, 0, 0, 0] := by
  decide

end Innerwarden.TcpStream
