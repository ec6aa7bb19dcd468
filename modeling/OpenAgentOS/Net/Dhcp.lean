import OpenAgentOS.Abi
import OpenAgentOS.Lib.Bytes
import OpenAgentOS.Lib.Reads
import OpenAgentOS.Net.Frame

/-!
# The DHCP client (kernel/netstack.c)

`net_dhcp_acquire` sends three DISCOVER packets and polls until `dhcp_handle` has seen
an ACK; after that many turns it falls back to a fixed address.

- `dhcpOptions`, `dhcpParse`: the parser of `dhcp_handle`, as a computation that reads
  the datagram. The walk over the options starts at byte 236.
- `dhcpSendDiscover`, `dhcpSendRequest`: the packets, as they are written to the static
  buffer.
- `BootpReply`, `BootpLayout`: what a reply and a request are by the layout of the
  protocol, with the cookie at byte 236 and the options from byte 240 on.
- `dhcpHandle_reply`: the cookie is taken for an option of 130 bytes, so that the walk
  goes on at byte 368.
-/

namespace OpenAgentOS

/-! ## The parser -/

/-- `dhcp_xid`; it is never written. -/
def dhcpXid : UInt16 := 0x1234

/-- Four bytes, the highest first. -/
def readBe32 (i : Nat) : Reads UInt8 UInt32 :=
  .read i fun a => .read (i + 1) fun b => .read (i + 2) fun c => .read (i + 3) fun d =>
    .done (be32 [a, b, c, d] 0)

/-- The message type behind an option; nothing says that there is a byte for the value. -/
def dhcpMsgType (opt olen : UInt8) (pos : Nat) (msgType : UInt8) : Reads UInt8 UInt8 :=
  if opt = 53 ∧ 1 ≤ olen then .read pos .done else .done msgType

/-- The loop over the options (netstack.c:425): the value of the last option 53. -/
def dhcpOptions (len : Nat) : Nat → Nat → UInt8 → Reads UInt8 UInt8
  | 0, _, msgType => .done msgType
  | fuel + 1, pos, msgType =>
    if pos + 1 < len then
      .read pos fun head =>
        if head = 255 then .done msgType
        else
          .read pos fun opt =>
            -- there is a byte for the length, by the condition of the loop
            .read (pos + 1) fun olen =>
              (dhcpMsgType opt olen (pos + 2) msgType).bind fun msgType =>
                if olen = 0 then .done msgType
                else dhcpOptions len fuel (pos + 2 + olen.toNat) msgType
    else .done msgType

/-- What `dhcp_handle` (netstack.c:410) takes out of a datagram: the message type and
`yiaddr`. -/
def dhcpParse (len : Nat) : Reads UInt8 (Option (UInt8 × UInt32)) :=
  if len < 240 then .done none
  else
    .read 0 fun op =>
      if op ≠ 2 then .done none
      else
        (readBe32 4).bind fun xid =>
          if xid ≠ dhcpXid.toUInt32 then .done none
          else
            (readBe32 16).bind fun yiaddr =>
              (dhcpOptions len len 236 0).bind fun msgType => .done (some (msgType, yiaddr))

/-! ## The packets -/

/-- The six bytes of `virtio_net_mac`. -/
abbrev Mac := Vector UInt8 6

/-- The magic cookie. -/
def magicCookie : List UInt8 := [99, 130, 83, 99]

/-- The first 26 bytes of both packets. The fields that are passed over keep what the
static buffer holds. -/
def dhcpHead (mac : Mac) (pkt : Buf) : Buf :=
  (pkt.write 0 ([1, 1, 6, 0] ++ be32Bytes dhcpXid.toUInt32)).write 20 mac.toList

/-- The buffer behind `dhcp_send_discover` (netstack.c:340). -/
def dhcpSendDiscover (mac : Mac) (pkt : Buf) : Buf :=
  (dhcpHead mac pkt).write 228 (magicCookie ++ [53, 1, 1, 255])

/-- The buffer behind `dhcp_send_request` (netstack.c:367). -/
def dhcpSendRequest (mac : Mac) (pkt : Buf) (reqIp : UInt32) : Buf :=
  ((dhcpHead mac pkt).write 36 (be32Bytes reqIp)).write 232
    (magicCookie ++ [53, 1, 3, 50, 4] ++ be32Bytes reqIp ++ [54, 4] ++ be32Bytes netGwHost ++ [255])

/-- The DISCOVER packet that is handed to `udp_send`. -/
def discoverPacket (mac : Mac) (pkt : Buf) : List UInt8 := (dhcpSendDiscover mac pkt).slice 0 236

/-- The REQUEST packet. -/
def requestPacket (mac : Mac) (pkt : Buf) (reqIp : UInt32) : List UInt8 :=
  (dhcpSendRequest mac pkt reqIp).slice 0 252

/-! ## The client -/

/-- The globals of the client. -/
structure DhcpState where
  ourIp : UInt32
  dnsServer : UInt32
  offeredIp : UInt32
  done : Bool
  txPkt : Buf

/-- The end of `dhcp_handle` (netstack.c:439), with the packets it sends. -/
def DhcpState.act (mac : Mac) (s : DhcpState) (msgType : UInt8) (yiaddr : UInt32) :
    DhcpState × List (List UInt8) :=
  if msgType = 2 ∧ yiaddr ≠ 0 then
    ({ s with offeredIp := yiaddr, txPkt := dhcpSendRequest mac s.txPkt yiaddr },
      [requestPacket mac s.txPkt yiaddr])
  else if msgType = 5 then
    ({ s with
        ourIp := if s.offeredIp ≠ 0 then s.offeredIp else yiaddr
        dnsServer := netDnsHost
        done := true }, [])
  else (s, [])

/-- `dhcp_handle` (netstack.c:410) for a payload with other bytes of `rx_frame` behind it. -/
def dhcpHandle (mac : Mac) (s : DhcpState) (payload : List UInt8) (behind : Buf) :
    DhcpState × List (List UInt8) :=
  match (dhcpParse payload.length).run (Reads.arrayOf payload behind) with
  | none => (s, [])
  | some (msgType, yiaddr) => s.act mac msgType yiaddr

/-- The loop of `net_dhcp_acquire` (netstack.c:546): one turn for each poll, which may
have a datagram for the client. -/
def acquireLoop (mac : Mac) : DhcpState → List (Option (List UInt8 × Buf)) → Int × DhcpState
  | s, [] => (etimedout, { s with ourIp := netIpHost, dnsServer := netDnsHost })
  | s, none :: turns => if s.done then (0, s) else acquireLoop mac s turns
  | s, some (payload, behind) :: turns =>
    let s := (dhcpHandle mac s payload behind).1
    if s.done then (0, s) else acquireLoop mac s turns

/-- `net_dhcp_acquire` (netstack.c:546). -/
def netDhcpAcquire (mac : Mac) (s : DhcpState) (turns : List (Option (List UInt8 × Buf))) :
    Int × DhcpState :=
  let send := dhcpSendDiscover mac
  acquireLoop mac { s with done := false, ourIp := 0, txPkt := send (send (send s.txPkt)) } turns

/-! ## The layout of the protocol -/

/-- An option with a value. -/
structure DhcpOption where
  code : UInt8
  value : List UInt8
  not_pad : code ≠ 0
  not_end : code ≠ 255
  short : value.length < 256

/-- The bytes of an option, or of a pad. -/
def DhcpOption.encode : Option DhcpOption → List UInt8
  | none => [0]
  | some o => [o.code, UInt8.ofNat o.value.length] ++ o.value

/-- The options of a packet with the end option, and anything behind it. -/
def optionBytes (opts : List (Option DhcpOption)) (rest : List UInt8) : List UInt8 :=
  opts.flatMap DhcpOption.encode ++ 255 :: rest

/-- A reply to this client: the fields in front of the cookie, the options and what is
behind them. -/
structure BootpReply where
  head : List UInt8
  opts : List (Option DhcpOption)
  rest : List UInt8
  length_head : head.length = 236
  op : byteAt head 0 = 2
  xid : be32 head 4 = dhcpXid.toUInt32

namespace BootpReply

/-- The payload. -/
def bytes (r : BootpReply) : List UInt8 := r.head ++ (magicCookie ++ optionBytes r.opts r.rest)

/-- The offered address. -/
def yiaddr (r : BootpReply) : UInt32 := be32 r.head 16

/-- The reply has an option 53, of the value `v`. -/
def Says (r : BootpReply) (v : UInt8) : Prop :=
  (∃ o, some o ∈ r.opts ∧ o.code = 53) ∧ ∀ o, some o ∈ r.opts → o.code = 53 → o.value = [v]

end BootpReply

/-- A packet has the hardware address, the cookie and the options where they belong. -/
structure BootpLayout (mac : Mac) (p : List UInt8) : Prop where
  hardware : (p.drop 28).take 6 = mac.toList
  cookie : (p.drop 236).take 4 = magicCookie
  options : ∃ opts rest, p.drop 240 = optionBytes opts rest

/-! ## What becomes of a reply -/

section Reply

variable (mac : Mac) (s : DhcpState) (r : BootpReply) (behind : Buf)

theorem BootpReply.length_bytes : r.bytes.length = 240 + (optionBytes r.opts r.rest).length := by
  rw [bytes, List.length_append, List.length_append, r.length_head, ← Nat.add_assoc]
  rfl

theorem BootpReply.le_length_bytes : 241 ≤ r.bytes.length := by
  have hend : 0 < (optionBytes r.opts r.rest).length := by
    rw [optionBytes, List.length_append, List.length_cons]
    omega
  rw [length_bytes]
  omega

theorem BootpReply.arrayOf_head {i : Nat} (hi : i < 236) :
    Reads.arrayOf r.bytes behind i = byteAt r.head i := by
  have hhead : i < r.head.length := by rw [r.length_head]; exact hi
  have hlen := r.le_length_bytes
  rw [Reads.arrayOf, byteAt, List.getD_eq_getElem _ _ (by omega), List.getD_eq_getElem _ _ hhead]
  exact List.getElem_append_left hhead

theorem BootpReply.arrayOf_cookie {i : Nat} (hi : i < 4) :
    Reads.arrayOf r.bytes behind (236 + i) = byteAt magicCookie i := by
  have hlen := r.le_length_bytes
  have hcookie : i < magicCookie.length := hi
  rw [Reads.arrayOf, byteAt, List.getD_eq_getElem _ _ (by omega), List.getD_eq_getElem _ _ hcookie]
  simp only [bytes]
  rw [List.getElem_append_right (by rw [r.length_head]; omega), List.getElem_append_left]
  · simp only [r.length_head, Nat.add_sub_cancel_left]
  · rw [r.length_head]
    show 236 + i - 236 < 4
    omega

theorem BootpReply.run_readBe32 {i : Nat} (hi : i + 3 < 236) :
    (readBe32 i).run (Reads.arrayOf r.bytes behind) = be32 r.head i := by
  simp only [readBe32, Reads.run_read, Reads.run_done, r.arrayOf_head behind (show i < 236 by omega),
    r.arrayOf_head behind (show i + 1 < 236 by omega), r.arrayOf_head behind (show i + 2 < 236 by omega),
    r.arrayOf_head behind hi]
  rfl

/-- The walk takes the cookie for option 99 with 130 bytes. -/
theorem BootpReply.run_dhcpOptions (fuel : Nat) (msgType : UInt8) :
    (dhcpOptions r.bytes.length (fuel + 1) 236 msgType).run (Reads.arrayOf r.bytes behind) =
      (dhcpOptions r.bytes.length fuel 368 msgType).run (Reads.arrayOf r.bytes behind) := by
  have hlen := r.le_length_bytes
  have hfirst : Reads.arrayOf r.bytes behind 236 = 99 := r.arrayOf_cookie behind (show 0 < 4 by decide)
  have hsecond : Reads.arrayOf r.bytes behind (236 + 1) = 130 :=
    r.arrayOf_cookie behind (show 1 < 4 by decide)
  rw [dhcpOptions, if_pos (by omega), Reads.run_read, hfirst, if_neg (by decide), Reads.run_read,
    hfirst, Reads.run_read, hsecond, dhcpMsgType, if_neg (by decide), Reads.run_bind, Reads.run_done,
    if_neg (by decide)]
  rfl

/-- **What becomes of a reply** depends on the bytes from 368 on. -/
theorem dhcpHandle_reply :
    dhcpHandle mac s r.bytes behind =
      s.act mac ((dhcpOptions r.bytes.length (r.bytes.length - 1) 368 0).run
        (Reads.arrayOf r.bytes behind)) r.yiaddr := by
  have hlen := r.le_length_bytes
  have hop : Reads.arrayOf r.bytes behind 0 = 2 := (r.arrayOf_head behind (by decide)).trans r.op
  have hfuel : r.bytes.length = r.bytes.length - 1 + 1 := by omega
  have hwalk : (dhcpOptions r.bytes.length r.bytes.length 236 0).run (Reads.arrayOf r.bytes behind) =
      (dhcpOptions r.bytes.length (r.bytes.length - 1) 368 0).run (Reads.arrayOf r.bytes behind) := by
    rw [← r.run_dhcpOptions behind, ← hfuel]
  rw [dhcpHandle, dhcpParse, if_neg (by omega), Reads.run_read, hop, if_neg (not_not.mpr rfl),
    Reads.run_bind, r.run_readBe32 behind (by decide), r.xid, if_neg (not_not.mpr rfl), Reads.run_bind,
    r.run_readBe32 behind (by decide), Reads.run_bind, hwalk]
  rfl

/-- A reply without a byte 369 is not acted on, whatever its options are. -/
theorem dhcpHandle_short (hshort : r.bytes.length ≤ 369) :
    dhcpHandle mac s r.bytes behind = (s, []) := by
  have hwalk : dhcpOptions r.bytes.length (r.bytes.length - 1) 368 0 = .done 0 := by
    cases r.bytes.length - 1 with
    | zero => rfl
    | succ fuel => exact if_neg (by omega)
  rw [dhcpHandle_reply, hwalk]
  rfl

end Reply

/-- While all replies are short the client ends with the fixed address. -/
theorem netDhcpAcquire_short (mac : Mac) (s : DhcpState) (turns : List (Option (List UInt8 × Buf)))
    (hturns : ∀ payload behind, some (payload, behind) ∈ turns →
      ∃ r : BootpReply, r.bytes = payload ∧ r.bytes.length ≤ 369) :
    (netDhcpAcquire mac s turns).1 = etimedout ∧ (netDhcpAcquire mac s turns).2.ourIp = netIpHost := by
  -- No turn changes the state, so `done` stays clear to the end.
  have hloop : ∀ s : DhcpState, s.done = false → (acquireLoop mac s turns).1 = etimedout ∧
      (acquireLoop mac s turns).2.ourIp = netIpHost := by
    intro s hdone
    induction turns with
    | nil => exact ⟨rfl, rfl⟩
    | cons turn turns ih =>
      have hrest := ih fun payload behind hmem => hturns payload behind (List.mem_cons_of_mem _ hmem)
      match turn with
      | none =>
        rw [acquireLoop, hdone]
        exact hrest
      | some (payload, behind) =>
        obtain ⟨r, rfl, hshort⟩ := hturns payload behind List.mem_cons_self
        rw [acquireLoop, dhcpHandle_short mac s r behind hshort, hdone]
        exact hrest
  exact hloop _ rfl

/-! ## The packets of the client -/

theorem not_bootpLayout_discover (mac : Mac) (pkt : Buf) :
    ¬ BootpLayout mac (discoverPacket mac pkt) := by
  intro h
  have hcookie := h.cookie
  rw [discoverPacket, List.drop_of_length_le (Nat.le_of_eq (Buf.length_slice ..))] at hcookie
  exact absurd hcookie (by decide)

theorem not_bootpLayout_request (mac : Mac) (pkt : Buf) (ip : UInt32) :
    ¬ BootpLayout mac (requestPacket mac pkt ip) := by
  intro h
  -- Where the cookie should start there is option 53.
  have hbyte : ((requestPacket mac pkt ip).drop 236)[0]? = some 53 := by
    rw [List.getElem?_drop, requestPacket, Buf.slice, List.getElem?_map]
    rfl
  have hcookie := congrArg (·[0]?) h.cookie
  simp only [List.getElem?_take_of_lt (show 0 < 4 by decide), hbyte] at hcookie
  exact absurd hcookie (by decide)

/-- The client does with a reply what the protocol asks for, and so are its packets. -/
structure DhcpConforms (mac : Mac) (s : DhcpState) (r : BootpReply) (behind : Buf) : Prop where
  offer : r.Says 2 → r.yiaddr ≠ 0 →
    (dhcpHandle mac s r.bytes behind).2 = [requestPacket mac s.txPkt r.yiaddr]
  ack : r.Says 5 → (dhcpHandle mac s r.bytes behind).1.done = true ∧
    (dhcpHandle mac s r.bytes behind).1.ourIp = if s.offeredIp ≠ 0 then s.offeredIp else r.yiaddr
  discover : BootpLayout mac (discoverPacket mac s.txPkt)
  request : ∀ ip, BootpLayout mac (requestPacket mac s.txPkt ip)

/-- **The client never conforms**: both of its packets have the cookie in front of its place. -/
theorem not_dhcpConforms (mac : Mac) (s : DhcpState) (r : BootpReply) (behind : Buf) :
    ¬ DhcpConforms mac s r behind := by
  intro h
  exact not_bootpLayout_discover mac s.txPkt h.discover

/-- An OFFER of the address 10.0.2.15. -/
def someOffer : BootpReply where
  head := [2, 1, 6, 0] ++ be32Bytes dhcpXid.toUInt32 ++ List.replicate 8 0 ++ be32Bytes netIpHost ++
    List.replicate 216 0
  opts := [some ⟨53, [2], by decide, by decide, by decide⟩]
  rest := []
  length_head := by
    simp only [List.length_append, List.length_replicate]
    rfl
  op := by decide +kernel
  xid := by decide

theorem someOffer_says : someOffer.Says 2 := by
  constructor
  · exact ⟨_, List.mem_singleton.mpr rfl, rfl⟩
  · intro o ho _
    rw [Option.some.inj (List.mem_singleton.mp ho)]

theorem not_dhcpConforms_offer :
    ¬ ∀ (mac : Mac) (s : DhcpState) (r : BootpReply) (behind : Buf), DhcpConforms mac s r behind := by
  intro h
  let s : DhcpState := ⟨0, netDnsHost, 0, false, fun _ => 0⟩
  have hoffer := (h (.replicate 6 0) s someOffer fun _ => 0).offer someOffer_says (by decide)
  rw [dhcpHandle_short _ _ _ _ (by rw [BootpReply.length_bytes]; decide)] at hoffer
  exact absurd hoffer nofun

end OpenAgentOS
