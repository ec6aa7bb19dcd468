import OpenAgentOS.Abi
import OpenAgentOS.Net.Frame

/-!
# The TCP connection (kernel/netstack.c)

The stack has one connection at a time. Its local port and its initial sequence
number are constants, and a segment is taken by its addresses and flags alone: the
sequence number is not compared with anything.

- `Tcp`: `struct tcp_conn` with the receive buffer, which never holds more than
  `TCP_RX_SIZE` bytes.
- `tcpHandle`: one segment, and the segments sent in answer to it.
- `tcpOpen`, `tcpConnect`: opening a connection, which polls for frames twice, while
  it waits for an ARP reply and while it waits for the peer.
- `TcpMove`: what one segment can do to a connection. The results about runs are
  derived from `tcpHandle_moves`.
-/

namespace OpenAgentOS

/-- `TCP_RX_SIZE`. -/
abbrev tcpRxSize : Nat := 16384

/-- The values of `state` in `struct tcp_conn`: 0, 1 and 2. -/
inductive TcpState where
  | closed
  | synSent
  | established
deriving DecidableEq

/-- `struct tcp_conn` and `tcp_rx`. -/
structure Tcp where
  active : Bool
  remoteIp : UInt32
  remotePort : UInt16
  localPort : UInt16
  iss : UInt32
  sndNxt : UInt32
  rcvNxt : UInt32
  state : TcpState
  rx : List UInt8
  rx_le : rx.length ≤ tcpRxSize

/-- A segment that the stack sends, as far as the peer's view of the stream goes. -/
structure SentSegment where
  seq : UInt32
  ack : UInt32
  flags : UInt8
deriving DecidableEq

/-! ## The receive buffer -/

/-- `tcp_rx_append` (netstack.c:619): what does not fit is dropped. -/
def tcpRxAppend (t : Tcp) (data : List UInt8) : Tcp :=
  { t with
    rx := t.rx ++ data.take (tcpRxSize - t.rx.length)
    rx_le := by
      have := t.rx_le
      rw [List.length_append, List.length_take]
      omega }

/-- `tcp_rx_take` (netstack.c:628): the bytes returned and what is left. -/
def tcpRxTake (t : Tcp) (buflen : Nat) : List UInt8 × Tcp :=
  (t.rx.take buflen,
    { t with
      rx := t.rx.drop buflen
      rx_le := by
        have := t.rx_le
        rw [List.length_drop]
        omega })

/-- `tcp_reset` (netstack.c:641). -/
def tcpReset (t : Tcp) : Tcp :=
  { t with
    active := false
    state := .closed
    rx := []
    rx_le := Nat.zero_le _ }

/-! ## Segments -/

/-- The segment is from the peer of the connection. -/
def Tcp.matches (t : Tcp) (s : Segment) : Bool :=
  s.src == t.remoteIp && s.sport == t.remotePort && s.dport == t.localPort

/-- An acknowledgement with the given flags. -/
def Tcp.answer (t : Tcp) (flags : UInt8) : SentSegment := ⟨t.sndNxt, t.rcvNxt, flags⟩

/-- The data of a segment goes into the buffer and is acknowledged. -/
def tcpData (t : Tcp) (s : Segment) : Tcp × List SentSegment :=
  if s.payload = [] then (t, [])
  else
    let t := { tcpRxAppend t s.payload with rcvNxt := s.seq + UInt32.ofNat s.payload.length }
    (t, [t.answer 0x10])

/-- `tcp_handle` (netstack.c:670), behind the length checks. -/
def tcpHandle (t : Tcp) (s : Segment) : Tcp × List SentSegment :=
  if t.active = false then (t, [])
  else if t.matches s = false then (t, [])
  else if s.rst then (tcpReset t, [])
  else if s.syn then
    if t.state = .synSent then
      let t := { t with rcvNxt := s.seq + 1, sndNxt := t.iss + 1, state := .established }
      (t, [t.answer 0x10])
    else (t, [])
  else
    let t := if s.ack = true ∧ t.state = .synSent then { t with state := .established } else t
    let data := tcpData t s
    if s.fin then
      let t := { data.1 with rcvNxt := data.1.rcvNxt + 1 }
      (tcpReset t, data.2 ++ [t.answer 0x11])
    else data

/-- `netstack_poll` (netstack.c:929) for the connection; a poll that finds no frame
is one with an empty frame. -/
def Tcp.poll (t : Tcp) (frame : List UInt8) : Tcp × List SentSegment :=
  match frameSegment frame with
  | none => (t, [])
  | some s => tcpHandle t s

/-! ## Opening a connection -/

/-- The state in which `tcp_connect` (netstack.c:741) starts to wait. -/
def tcpOpen (ip : UInt32) (port : UInt16) : Tcp where
  active := true
  remoteIp := ip
  remotePort := port
  localPort := 49152
  iss := 0x12345000
  sndNxt := 0x12345000
  rcvNxt := 0
  state := .synSent
  rx := []
  rx_le := Nat.zero_le _

/-- The loop of `tcp_connect`: a poll, and a look at the state. -/
def connectLoop : Tcp → List (List UInt8) → Int × Tcp
  | t, [] => (etimedout, tcpReset t)
  | t, frame :: frames =>
    let t := (t.poll frame).1
    if t.state = .established then (0, t) else connectLoop t frames

/-- `tcp_connect` (netstack.c:741): `arp` are the frames that arrive while it waits for
an ARP reply, `frames` those of its own loop, one for each turn. -/
def tcpConnect (ip : UInt32) (port : UInt16) (arp : List (List UInt8)) (arpOk sendOk : Bool)
    (frames : List (List UInt8)) : Int × Tcp :=
  let t := arp.foldl (fun t frame => (t.poll frame).1) (tcpOpen ip port)
  if arpOk = false then (etimedout, t)
  else if sendOk = false then (eio, t)
  else connectLoop t frames

/-! ## What a segment can do -/

/-- `tcp_handle` goes on to the data of the segment. -/
def Tcp.Accepts (t : Tcp) (s : Segment) : Prop :=
  t.active = true ∧ t.matches s = true ∧ s.rst = false ∧ s.syn = false

instance (t : Tcp) (s : Segment) : Decidable (t.Accepts s) := inferInstanceAs (Decidable (_ ∧ _))

/-- The effect of a segment on the connection. -/
inductive TcpMove (t : Tcp) (s : Segment) : Tcp × List SentSegment → Prop
  /-- It is for somebody else, or a SYN that is not expected. -/
  | ignored (hnot : ¬ t.Accepts s) : TcpMove t s (t, [])
  /-- It resets the connection. -/
  | reset (hactive : t.active = true) (hmatch : t.matches s = true) (hrst : s.rst = true) :
      TcpMove t s (tcpReset t, [])
  /-- It is the SYN of the handshake. -/
  | syn (hactive : t.active = true) (hmatch : t.matches s = true) (hrst : s.rst = false)
      (hsyn : s.syn = true) (hstate : t.state = .synSent) {t' : Tcp}
      (ht' : t' = { t with rcvNxt := s.seq + 1, sndNxt := t.iss + 1, state := .established }) :
      TcpMove t s (t', [t'.answer 0x10])
  /-- It carries data, or nothing, and the connection goes on. -/
  | data (hactive : t.active = true) (hmatch : t.matches s = true) (hrst : s.rst = false)
      (hsyn : s.syn = false) (hfin : s.fin = false) {t' : Tcp}
      (ht' : t' = if s.ack = true ∧ t.state = .synSent then { t with state := .established }
        else t) : TcpMove t s (tcpData t' s)
  /-- It ends the connection, with or without data. -/
  | fin (hactive : t.active = true) (hmatch : t.matches s = true) (hrst : s.rst = false)
      (hsyn : s.syn = false) (hfin : s.fin = true) {t' : Tcp}
      (ht' : t' = if s.ack = true ∧ t.state = .synSent then { t with state := .established }
        else t) {t'' : Tcp}
      (ht'' : t'' = { (tcpData t' s).1 with rcvNxt := (tcpData t' s).1.rcvNxt + 1 }) :
      TcpMove t s (tcpReset t'', (tcpData t' s).2 ++ [t''.answer 0x11])

/-- **Every segment makes one of these moves.** -/
theorem tcpHandle_moves (t : Tcp) (s : Segment) : TcpMove t s (tcpHandle t s) := by
  rw [tcpHandle]
  by_cases hactive : t.active = false
  · rw [if_pos hactive]
    exact .ignored fun h => absurd (hactive.symm.trans h.1) (by decide)
  rw [if_neg hactive]
  by_cases hmatch : t.matches s = false
  · rw [if_pos hmatch]
    exact .ignored fun h => absurd (hmatch.symm.trans h.2.1) (by decide)
  rw [if_neg hmatch]
  rw [Bool.not_eq_false] at hactive hmatch
  by_cases hrst : s.rst = true
  · rw [if_pos hrst]
    exact .reset hactive hmatch hrst
  rw [if_neg hrst]
  rw [Bool.not_eq_true] at hrst
  by_cases hsyn : s.syn = true
  · rw [if_pos hsyn]
    by_cases hstate : t.state = .synSent
    · rw [if_pos hstate]
      exact .syn hactive hmatch hrst hsyn hstate rfl
    · rw [if_neg hstate]
      exact .ignored fun h => absurd (hsyn.symm.trans h.2.2.2) (by decide)
  rw [if_neg hsyn]
  rw [Bool.not_eq_true] at hsyn
  by_cases hfin : s.fin = true
  · rw [if_pos hfin]
    exact .fin hactive hmatch hrst hsyn hfin rfl rfl
  · rw [if_neg hfin]
    exact .data hactive hmatch hrst hsyn (Bool.not_eq_true _ ▸ hfin) rfl

end OpenAgentOS
