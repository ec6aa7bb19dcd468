import OpenAgentOS.Abi
import OpenAgentOS.Net.Frame

/-!
# Name lookup (kernel/netstack.c)

`net_dns_resolve` asks three servers in turn and polls for frames until
`dns_handle` has left an address in the globals. Every query has the same
transaction id and source port.

- `dnsQuery`: the packet that `dns_send_query` builds, with the question for a host.
- `frameReply`: what `dns_handle` takes out of a frame. The question is skipped there;
  it is kept in `DnsReply` for the statements about lookups.
- `DnsState`: the globals. `netDnsResolve` and `netDnsResolveSlirp` are the two
  lookups.
-/

namespace OpenAgentOS

/-! ## Queries -/

/-- The labels of a host name, as `dns_send_query` (netstack.c:455) writes them. A turn
of its outer loop takes a label and the dot behind it. -/
def dnsLabels : Nat → List UInt8 → List UInt8
  | 0, _ => []
  | _, [] => []
  | fuel + 1, c :: cs =>
    let label := ((c :: cs).takeWhile (· != 46)).take 63
    let rest := (c :: cs).drop label.length
    UInt8.ofNat label.length :: (label ++ dnsLabels fuel (if rest.head? = some 46 then rest.tail
      else rest))

/-- The question for a host: name, type A, class IN. -/
def dnsQuestion (host : List UInt8) : List UInt8 :=
  dnsLabels host.length host ++ [0, 0, 1, 0, 1]

/-- The packet of `dns_send_query`. The hosts of all callers fit into it. -/
def dnsQuery (host : List UInt8) : List UInt8 :=
  [0x12, 0x34, 0x01, 0x00, 0x00, 0x01, 0x00, 0x00, 0x00, 0x00, 0x00, 0x00] ++ dnsQuestion host

/-! ## Replies -/

/-- The loop of `dns_handle` over the labels of a name: the place of the byte 0. -/
def skipName (pkt : List UInt8) : Nat → Nat → Nat
  | 0, pos => pos
  | fuel + 1, pos =>
    if pos < pkt.length ∧ byteAt pkt pos ≠ 0 then
      skipName pkt fuel (pos + 1 + (byteAt pkt pos).toNat)
    else pos

/-- The place behind the question. -/
def questionEnd (pkt : List UInt8) : Nat := skipName pkt pkt.length 12 + 5

/-- The place behind the name of an answer, which may be a pointer. -/
def answerStart (pkt : List UInt8) (pos : Nat) : Nat :=
  if byteAt pkt pos &&& 0xc0 = 0xc0 then pos + 2 else skipName pkt pkt.length pos + 1

/-- The address in the answer at `pos`, if it is one of type A. -/
def answerAddress (pkt : List UInt8) (pos : Nat) : Option UInt32 :=
  if pkt.length < pos + 10 then none
  else if byteAt pkt pos ≠ 0 ∨ byteAt pkt (pos + 1) ≠ 1 then none
  else if be16 pkt (pos + 8) ≠ 4 ∨ pkt.length < pos + 14 then none
  else some (be32 pkt (pos + 10))

/-- The parser of `dns_handle` (netstack.c:492). Only the first answer is looked at. -/
def dnsAnswer (pkt : List UInt8) : Option UInt32 :=
  if pkt.length < 12 then none
  else if byteAt pkt 0 ≠ 0x12 ∨ byteAt pkt 1 ≠ 0x34 then none
  else if be16 pkt 6 = 0 then none
  else if pkt.length ≤ questionEnd pkt then none
  else answerAddress pkt (answerStart pkt (questionEnd pkt))

/-- A reply: the question in it and the address. -/
structure DnsReply where
  question : List UInt8
  ip : UInt32
deriving DecidableEq

/-- The reply in a packet. -/
def packetReply (pkt : List UInt8) : Option DnsReply :=
  (dnsAnswer pkt).map fun ip => ⟨(pkt.take (questionEnd pkt)).drop 12, ip⟩

/-- The reply in a frame, behind the ports that `udp_handle` (netstack.c:564) asks for. -/
def frameReply (frame : List UInt8) : Option DnsReply := do
  let d ← frameDatagram frame
  if d.dport = 49153 ∧ d.sport = 53 then packetReply d.payload else none

/-! ### Replies to a query -/

/-- The header of a reply with one question and one answer. -/
def replyHeader : List UInt8 := [0x12, 0x34, 0x81, 0x80, 0, 1, 0, 1, 0, 0, 0, 0]

/-- An answer of type A, with a pointer to the name in the question. -/
def replyAnswer (ip : UInt32) : List UInt8 :=
  [0xc0, 0x0c, 0, 1, 0, 1, 0, 0, 0, 60, 0, 4] ++ be32Bytes ip

/-- A reply to the query for `host`. -/
def dnsReplyTo (host : List UInt8) (ip : UInt32) : List UInt8 :=
  replyHeader ++ dnsQuestion host ++ replyAnswer ip

/-! ## The globals -/

/-- The globals of the lookups. The cache holds one host, cut to 63 bytes. -/
structure DnsState where
  resultIp : UInt32
  resultOk : Bool
  sawBogus : Bool
  acceptBogus : Bool
  cache : Option (List UInt8 × UInt32)

/-- `dns_ip_bogus` (netstack.c:330). -/
def dnsIpBogus (ip : UInt32) : Bool :=
  (ip >>> 24).toUInt8 == 198 && ((ip >>> 16).toUInt8 == 18 || (ip >>> 16).toUInt8 == 19)

/-- The end of `dns_handle` (netstack.c:492): the address is stored before it is looked
at. -/
def DnsState.take (s : DnsState) (r : DnsReply) : DnsState :=
  let s := { s with resultIp := r.ip }
  if dnsIpBogus r.ip = true ∧ s.acceptBogus = false then { s with sawBogus := true }
  else { s with resultOk := true }

/-- `netstack_poll` (netstack.c:929) for the lookups. -/
def DnsState.poll (s : DnsState) (frame : List UInt8) : DnsState :=
  match frameReply frame with
  | none => s
  | some r => s.take r

/-- `dns_cache_store` (netstack.c:1210). -/
def dnsCacheStore (s : DnsState) (host : List UInt8) (ip : UInt32) : DnsState :=
  { s with cache := some (host.take 63, ip) }

/-! ## Lookups -/

/-- The digits and dots of `parse_ipv4` (netstack.c:810), with the parts read so far. -/
def ipv4Parts : List UInt8 → List UInt32 → UInt32 → Option (List UInt32)
  | [], parts, acc => some (parts ++ [acc])
  | c :: cs, parts, acc =>
    if 48 ≤ c ∧ c ≤ 57 then
      let acc := acc * 10 + (c - 48).toUInt32
      if 255 < acc then none else ipv4Parts cs parts acc
    else if c = 46 then
      if 3 ≤ parts.length then none else ipv4Parts cs (parts ++ [acc]) 0
    else none

/-- `parse_ipv4` (netstack.c:810). -/
def parseIpv4 (s : List UInt8) : Option UInt32 :=
  match ipv4Parts s [] 0 with
  | some [a, b, c, d] => some (a <<< 24 ||| b <<< 16 ||| c <<< 8 ||| d)
  | _ => none

/-- What happens with one server: the frames that arrive in `arp_resolve`, whether it
and `dns_send_query` succeed, and the frames of the loop, one for each turn. -/
structure Exchange where
  arp : List (List UInt8)
  arpOk : Bool
  sendOk : Bool
  frames : List (List UInt8)

/-- A call of `net_dns_resolve`: one exchange for each server of `udp_dns`, and the
answer of `dns_doh_resolve_a` with the frames that arrive meanwhile. -/
structure Lookup where
  host : List UInt8
  ready : Bool
  servers : List Exchange
  doh : Option UInt32
  dohFrames : List (List UInt8)

/-- How a lookup ends; all but the last return 0. -/
inductive DnsReturn where
  | literal (ip : UInt32)
  | cached (ip : UInt32)
  | udp (ip : UInt32)
  | doh (ip : UInt32)
  | failed (rc : Int)
deriving DecidableEq

/-- The globals at the start of an exchange, after `arp_resolve`. -/
def DnsState.ask (s : DnsState) (x : Exchange) : DnsState :=
  x.arp.foldl DnsState.poll { s with resultIp := 0, resultOk := false, sawBogus := false }

/-- The loops that wait for a reply: one turn for each frame, and a condition under
which the loop is left without a result. -/
def waitReply (leave : DnsState → Bool) : DnsState → List (List UInt8) → Option UInt32 × DnsState
  | s, [] => (none, s)
  | s, frame :: frames =>
    let s := s.poll frame
    if s.resultOk then (some s.resultIp, s)
    else if leave s then (none, s)
    else waitReply leave s frames

/-- The loop over the servers. A bogus address ends it. -/
def askServers : DnsState → List Exchange → Option UInt32 × DnsState
  | s, [] => (none, s)
  | s, x :: xs =>
    let s := s.ask x
    if x.arpOk = false ∨ x.sendOk = false then askServers s xs
    else
      match waitReply DnsState.sawBogus s x.frames with
      | (some ip, s) => (some ip, s)
      | (none, s) => if s.sawBogus then (none, s) else askServers s xs

/-- The address in the cache for a host. -/
def DnsState.cached (s : DnsState) (host : List UInt8) : Option UInt32 :=
  match s.cache with
  | some (name, ip) => if host = name then some ip else none
  | none => none

/-- `net_dns_resolve` (netstack.c:1221). -/
def netDnsResolve (s : DnsState) (c : Lookup) : DnsReturn × DnsState :=
  if c.host = [] then (.failed einval, s)
  else
    match parseIpv4 c.host, s.cached c.host with
    | some ip, _ => (.literal ip, s)
    | none, some ip => (.cached ip, s)
    | none, none =>
      if c.ready = false then (.failed enodev, s)
      else
        match askServers s c.servers with
        | (some ip, s) => (.udp ip, dnsCacheStore s c.host ip)
        | (none, s) =>
          let s := c.dohFrames.foldl DnsState.poll s
          match c.doh with
          | some ip => (.doh ip, dnsCacheStore s c.host ip)
          | none => (.failed etimedout, s)

/-- `net_dns_resolve_slirp` (netstack.c:1280). It neither reads nor writes the cache,
and its loop is not left at a bogus address. -/
def netDnsResolveSlirp (s : DnsState) (host : List UInt8) (ready : Bool) (x : Exchange) :
    DnsReturn × DnsState :=
  if host = [] then (.failed einval, s)
  else
    match parseIpv4 host with
    | some ip => (.literal ip, s)
    | none =>
      if ready = false then (.failed enodev, s)
      else
        let s := DnsState.ask { s with acceptBogus := true } x
        if x.arpOk = false ∨ x.sendOk = false then
          (.failed etimedout, { s with acceptBogus := false })
        else
          match waitReply (fun _ => false) s x.frames with
          | (some ip, s) => (.udp ip, { s with acceptBogus := false })
          | (none, s) => (.failed etimedout, { s with acceptBogus := false })

end OpenAgentOS
