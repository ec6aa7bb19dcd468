import Mathlib.Algebra.Ring.Int.Defs
import Mathlib.Algebra.Ring.Nat
import Mathlib.Data.List.GetD
import Mathlib.Tactic.Common

/-!
# Frames, packets, segments and datagrams (kernel/netstack.c)

`netstack_poll` takes one Ethernet frame from the device and hands it to
`tcp_handle` or `udp_handle`. What these two see of the bytes is collected here, so
that the state machines behind them can be stated over segments and datagrams.

- `ipPacket`: the bytes of the IP packet in a frame, cut to its length field.
- `frameSegment`: the TCP segment that `tcp_handle` reads. No checksum, no fragment
  field and no destination address is looked at.
- `frameDatagram`: the UDP datagram that `udp_handle` reads. The length of the IP
  header is taken to be 20 there.
-/

namespace OpenAgentOS

/-! ## Addresses (kernel/netstack.h) -/

/-- `NET_IP_HOST`: 10.0.2.15. -/
def netIpHost : UInt32 := 0x0a00020f

/-- `NET_GW_HOST`: 10.0.2.2. -/
def netGwHost : UInt32 := 0x0a000202

/-- `NET_DNS_HOST`: 8.8.8.8. -/
def netDnsHost : UInt32 := 0x08080808

/-- `NET_MASK_HOST`. -/
def netMaskHost : UInt32 := 0xffffff00

/-! ## Reading -/

/-- A byte of a buffer. Every access of the source is inside of it. -/
def byteAt (p : List UInt8) (i : Nat) : UInt8 := p.getD i 0

/-- `ntohs16` of two bytes. -/
def be16 (p : List UInt8) (i : Nat) : UInt16 :=
  (byteAt p i).toUInt16 <<< 8 ||| (byteAt p (i + 1)).toUInt16

/-- `ntohl32` and `read_be32` of four bytes. -/
def be32 (p : List UInt8) (i : Nat) : UInt32 :=
  (be16 p i).toUInt32 <<< 16 ||| (be16 p (i + 2)).toUInt32

/-- The head of `netstack_poll` (netstack.c:929) for IP frames: the packet, cut to
`total_len`. -/
def ipPacket (frame : List UInt8) : Option (List UInt8) :=
  if frame.length < 14 then none
  else if be16 frame 12 = 0x0800 ∧ 34 ≤ frame.length then
    some ((frame.drop 14).take (be16 frame 16).toNat)
  else none

/-- What `tcp_handle` reads of a segment. -/
structure Segment where
  src : UInt32
  sport : UInt16
  dport : UInt16
  seq : UInt32
  flags : UInt8
  payload : List UInt8
deriving DecidableEq

/-- `TCP_FIN`. -/
def Segment.fin (s : Segment) : Bool := s.flags &&& 0x01 != 0

/-- `TCP_SYN`. -/
def Segment.syn (s : Segment) : Bool := s.flags &&& 0x02 != 0

/-- `TCP_RST`. -/
def Segment.rst (s : Segment) : Bool := s.flags &&& 0x04 != 0

/-- `TCP_ACK`. -/
def Segment.ack (s : Segment) : Bool := s.flags &&& 0x10 != 0

/-- The head of `tcp_handle` (netstack.c:670). A data offset behind the end leaves no
payload. -/
def tcpSegment (ip : List UInt8) : Option Segment :=
  let iphdrLen := (byteAt ip 0 &&& 0x0f).toNat * 4
  let th := ip.drop iphdrLen
  if ip.length < 20 then none
  else if iphdrLen < 20 ∨ ip.length < iphdrLen + 20 then none
  else some
    { src := be32 ip 12
      sport := be16 th 0
      dport := be16 th 2
      seq := be32 th 4
      flags := byteAt th 13
      payload := th.drop ((byteAt th 12 >>> 4).toNat * 4) }

/-- The segment in a frame. -/
def frameSegment (frame : List UInt8) : Option Segment := do
  let ip ← ipPacket frame
  if byteAt ip 9 = 6 then tcpSegment ip else none

/-- What `udp_handle` reads of a datagram. -/
structure Datagram where
  sport : UInt16
  dport : UInt16
  payload : List UInt8
deriving DecidableEq

/-- The head of `udp_handle` (netstack.c:564). -/
def udpDatagram (ip : List UInt8) : Option Datagram :=
  if ip.length < 28 then none
  else
    let uh := ip.drop 20
    let len := (be16 uh 4).toNat
    let udplen := if len < 8 ∨ uh.length < len then uh.length else len
    some ⟨be16 uh 0, be16 uh 2, (uh.take udplen).drop 8⟩

/-- The datagram in a frame. -/
def frameDatagram (frame : List UInt8) : Option Datagram := do
  let ip ← ipPacket frame
  if byteAt ip 9 = 17 then udpDatagram ip else none

/-- The payload of a segment fits into a packet. -/
theorem length_payload_le {frame : List UInt8} {s : Segment} (h : frameSegment frame = some s) :
    s.payload.length < 2 ^ 16 := by
  obtain ⟨ip, hip, hs⟩ := Option.bind_eq_some_iff.mp h
  have hlen : ip.length < 2 ^ 16 := by
    rw [ipPacket] at hip
    split_ifs at hip with hshort htype
    rw [← Option.some.inj hip]
    exact Nat.lt_of_le_of_lt (List.length_take_le _ _) (be16 frame 16).toNat_lt
  split_ifs at hs with hproto
  simp only [tcpSegment] at hs
  split_ifs at hs
  rw [← Option.some.inj hs]
  show (List.drop _ (List.drop _ ip)).length < 2 ^ 16
  rw [List.length_drop, List.length_drop]
  omega

/-! ## Frames for concrete runs -/

/-- Two bytes. -/
def be16Bytes (v : UInt16) : List UInt8 := [(v >>> 8).toUInt8, v.toUInt8]

/-- Four bytes. -/
def be32Bytes (v : UInt32) : List UInt8 :=
  [(v >>> 24).toUInt8, (v >>> 16).toUInt8, (v >>> 8).toUInt8, v.toUInt8]

/-- A packet of protocol `proto` from `src`, in a frame, with the fields that are not
looked at left empty. -/
def frameOf (proto : UInt8) (src : UInt32) (data : List UInt8) : List UInt8 :=
  List.replicate 12 0 ++ [0x08, 0x00] ++
    ([0x45, 0] ++ be16Bytes (UInt16.ofNat (20 + data.length)) ++ [0, 0, 0, 0, 64, proto, 0, 0] ++
      be32Bytes src ++ [0, 0, 0, 0]) ++ data

/-- A segment in a frame. -/
def segmentFrame (s : Segment) : List UInt8 :=
  frameOf 6 s.src (be16Bytes s.sport ++ be16Bytes s.dport ++ be32Bytes s.seq ++ [0, 0, 0, 0] ++
    [0x50, s.flags, 0x20, 0, 0, 0, 0, 0] ++ s.payload)

/-- A datagram in a frame. -/
def datagramFrame (src : UInt32) (d : Datagram) : List UInt8 :=
  frameOf 17 src (be16Bytes d.sport ++ be16Bytes d.dport ++
    be16Bytes (UInt16.ofNat (8 + d.payload.length)) ++ [0, 0] ++ d.payload)

example : frameSegment (segmentFrame ⟨0x0a000202, 80, 49152, 0xfffffff0, 0x18, [1, 2, 3]⟩)
    = some ⟨0x0a000202, 80, 49152, 0xfffffff0, 0x18, [1, 2, 3]⟩ := by decide +kernel

example : frameDatagram (datagramFrame 0x08080808 ⟨53, 49153, [1, 2, 3]⟩)
    = some ⟨53, 49153, [1, 2, 3]⟩ := by decide +kernel

end OpenAgentOS
