import Mathlib.Data.List.TakeDrop
import OpenAgentOS.Lib.Runs
import OpenAgentOS.Lib.SeqNum
import OpenAgentOS.Net.Tcp

/-!
# The stream of a connection (kernel/netstack.c)

A connection is followed from its SYN on, through frames and reads in any order. The
peer sends a stream `S`; a `Receiver` is the connection together with what has been
read and which acknowledgements have been sent.

- `StreamSafe`: what has been read is a beginning of `S`, and the acknowledgement
  number never goes back. `stream_safe` has this for runs in which data arrives in
  order and fits the buffer; the stack takes whatever arrives
  (`not_stream_safe_duplicate`).
- `Kept`: every byte of `S` that an acknowledgement covers has been read or is in the
  buffer. `acked_kept_iff` says for in-order streams exactly when this holds: a
  segment must not overflow the buffer, and the connection must not be closed by the
  peer before everything is read (`not_acked_kept_fin`).
-/

namespace OpenAgentOS

/-! ## The receiver -/

/-- A connection, the bytes returned by `tcp_rx_take` so far, and the acknowledgement
numbers sent, the latest first. -/
structure Receiver where
  tcp : Tcp
  taken : List UInt8
  acks : List UInt32

/-- A frame arrives, or somebody reads. -/
inductive TcpEvent where
  | poll (frame : List UInt8)
  | take (buflen : Nat)

/-- The receiver after an event. -/
def Receiver.step (r : Receiver) : TcpEvent → Receiver
  | .poll frame =>
    let out := r.tcp.poll frame
    { r with tcp := out.1, acks := (out.2.map (·.ack)).reverse ++ r.acks }
  | .take buflen =>
    let out := tcpRxTake r.tcp buflen
    { r with tcp := out.2, taken := r.taken ++ out.1 }

/-- How many bytes of the stream the acknowledgements cover, the byte that a FIN stands
for included. -/
def Receiver.covered (r : Receiver) : Nat := SeqNum.span r.acks

/-- The receiver right after the handshake with a SYN of sequence number `irs`. -/
def Receiver.start (ip : UInt32) (port : UInt16) (irs : UInt32) : Receiver where
  tcp := { tcpOpen ip port with
    rcvNxt := irs + 1
    sndNxt := (tcpOpen ip port).iss + 1
    state := .established }
  taken := []
  acks := [irs + 1]

/-- **This is where `tcp_connect` returns** when the peer's first frame is its SYN. -/
theorem tcpConnect_syn {ip : UInt32} {port : UInt16} {frame : List UInt8} {s : Segment}
    (hframe : frameSegment frame = some s) (hmatch : (tcpOpen ip port).matches s = true)
    (hrst : s.rst = false) (hsyn : s.syn = true) (rest : List (List UInt8)) :
    tcpConnect ip port [] true true (frame :: rest) = (0, (Receiver.start ip port s.seq).tcp) := by
  have hactive : ¬ (tcpOpen ip port).active = false := nofun
  have hstate : (tcpOpen ip port).state = .synSent := rfl
  have hpoll : ((tcpOpen ip port).poll frame).1 = (Receiver.start ip port s.seq).tcp := by
    rw [Tcp.poll, hframe]
    dsimp only
    rw [tcpHandle, if_neg hactive, if_neg (by rw [hmatch]; decide), hrst, if_neg (by decide),
      if_pos hsyn, if_pos hstate]
    rfl
  have hdone : (Receiver.start ip port s.seq).tcp.state = .established := rfl
  rw [tcpConnect, if_neg (by decide), if_neg (by decide)]
  show connectLoop (tcpOpen ip port) (frame :: rest) = _
  rw [connectLoop, hpoll, if_pos hdone]

/-- A condition on the segment in a frame, if there is one. -/
def OnSegment (P : Segment → Prop) (frame : List UInt8) : Prop :=
  match frameSegment frame with
  | none => True
  | some s => P s

instance (P : Segment → Prop) [DecidablePred P] (frame : List UInt8) :
    Decidable (OnSegment P frame) := by
  unfold OnSegment
  split <;> infer_instance

theorem onSegment_some {P : Segment → Prop} {frame : List UInt8} {s : Segment}
    (h : frameSegment frame = some s) : OnSegment P frame ↔ P s := by
  rw [OnSegment, h]

/-! ## Safety of the stream -/

/-- The frame holds a piece of the stream `S` behind the sequence number `irs`, or
nothing for this connection. -/
def PieceOf (S : List UInt8) (irs : UInt32) : List UInt8 → Prop :=
  OnSegment fun s => ∃ off, s.seq = irs + 1 + UInt32.ofNat off ∧ s.payload <+: S.drop off

/-- What has been read is a beginning of the stream, and acknowledgements advance. -/
def StreamSafe (S : List UInt8) (r : Receiver) : Prop :=
  r.taken <+: S ∧ SeqNum.Advancing r.acks

/-- Data arrives in order and fits: it is what follows the bytes received so far. -/
def InOrder (S : List UInt8) (r : Receiver) : TcpEvent → Prop
  | .take _ => True
  | .poll frame => OnSegment (fun s => r.tcp.Accepts s → s.payload ≠ [] →
      s.seq = r.tcp.rcvNxt ∧ s.payload <+: S.drop (r.taken.length + r.tcp.rx.length) ∧
        r.tcp.rx.length + s.payload.length ≤ tcpRxSize) frame

instance (S : List UInt8) (r : Receiver) : ∀ e, Decidable (InOrder S r e)
  | .take _ => inferInstanceAs (Decidable True)
  | .poll frame => inferInstanceAs (Decidable (OnSegment _ frame))

/-- Read and buffered bytes are a beginning of the stream; the last acknowledgement is
the next number expected. -/
structure StreamInv (S : List UInt8) (r : Receiver) : Prop where
  open_ : r.tcp.state ≠ .synSent
  bytes : r.taken ++ r.tcp.rx <+: S
  acks : SeqNum.Advancing r.acks
  last : r.tcp.active = true → r.acks.head? = some r.tcp.rcvNxt

/-- More of the stream behind a beginning of it. -/
theorem append_isPrefix {S xs ys : List UInt8} (hxs : xs <+: S) (hys : ys <+: S.drop xs.length) :
    xs ++ ys <+: S := by
  obtain ⟨rest, rfl⟩ := hxs
  rw [List.drop_left] at hys
  obtain ⟨tail, rfl⟩ := hys
  exact ⟨tail, by rw [List.append_assoc]⟩

/-- A connection that has been reset keeps what was read. -/
theorem StreamInv.reset {S : List UInt8} {r : Receiver} (h : StreamInv S r) (t : Tcp)
    {acks : List UInt32} (hacks : SeqNum.Advancing acks) :
    StreamInv S { r with tcp := tcpReset t, acks := acks } where
  open_ := nofun
  bytes := by
    show r.taken ++ [] <+: S
    rw [List.append_nil]
    exact (List.prefix_append _ _).trans h.bytes
  acks := hacks
  last := nofun

/-- Data that arrives in order. -/
theorem StreamInv.data {S : List UInt8} {r : Receiver} (h : StreamInv S r)
    (hactive : r.tcp.active = true) {s : Segment} (hlen : s.payload.length < 2 ^ 16)
    (hnext : s.payload ≠ [] →
      s.seq = r.tcp.rcvNxt ∧ s.payload <+: S.drop (r.taken.length + r.tcp.rx.length) ∧
        r.tcp.rx.length + s.payload.length ≤ tcpRxSize) :
    StreamInv S { r with
      tcp := (tcpData r.tcp s).1
      acks := ((tcpData r.tcp s).2.map (·.ack)).reverse ++ r.acks } := by
  rw [tcpData]
  by_cases hempty : s.payload = []
  · rw [if_pos hempty]
    exact h
  · obtain ⟨hseq, hpayload, hfits⟩ := hnext hempty
    rw [if_neg hempty]
    have hall : s.payload.take (tcpRxSize - r.tcp.rx.length) = s.payload :=
      List.take_of_length_le (by omega)
    constructor
    · exact h.open_
    · show r.taken ++ (r.tcp.rx ++ s.payload.take (tcpRxSize - r.tcp.rx.length)) <+: S
      rw [hall, ← List.append_assoc]
      exact append_isPrefix h.bytes (by rwa [List.length_append])
    · show SeqNum.Advancing ((s.seq + UInt32.ofNat s.payload.length) :: r.acks)
      rw [hseq]
      exact SeqNum.advancing_add (h.last hactive) h.acks (by omega)
    · intro _
      rfl

/-- **One event.** -/
theorem StreamInv.step {S : List UInt8} {r : Receiver} {e : TcpEvent} (hok : InOrder S r e)
    (h : StreamInv S r) : StreamInv S (r.step e) := by
  cases e with
  | take buflen =>
    refine ⟨h.open_, ?_, h.acks, h.last⟩
    show (r.taken ++ r.tcp.rx.take buflen) ++ r.tcp.rx.drop buflen <+: S
    rw [List.append_assoc, List.take_append_drop]
    exact h.bytes
  | poll frame =>
    show StreamInv S { r with
      tcp := (r.tcp.poll frame).1
      acks := ((r.tcp.poll frame).2.map (·.ack)).reverse ++ r.acks }
    rw [Tcp.poll]
    cases hframe : frameSegment frame with
    | none => exact h
    | some s =>
      have hlen := length_payload_le hframe
      have hnext := (onSegment_some hframe).mp hok
      -- an established connection is not established again
      have hsame : (if s.ack = true ∧ r.tcp.state = .synSent then
          { r.tcp with state := .established } else r.tcp) = r.tcp :=
        if_neg fun hsyn => h.open_ hsyn.2
      dsimp only
      generalize hout : tcpHandle r.tcp s = out
      have hmove := tcpHandle_moves r.tcp s
      rw [hout] at hmove
      cases hmove with
      | ignored => exact h
      | reset hactive hmatch hrst => exact h.reset r.tcp h.acks
      | syn hactive hmatch hrst hsyn hstate ht' => exact absurd hstate h.open_
      | data hactive hmatch hrst hsyn hfin ht' =>
        rw [hsame] at ht'
        subst ht'
        exact h.data hactive hlen (hnext ⟨hactive, hmatch, hrst, hsyn⟩)
      | fin hactive hmatch hrst hsyn hfin ht' ht'' =>
        rw [hsame] at ht'
        subst ht'
        have hdata := h.data hactive hlen (hnext ⟨hactive, hmatch, hrst, hsyn⟩)
        have hstill : (tcpData r.tcp s).1.active = true := by
          rw [tcpData]
          split_ifs
          · exact hactive
          · exact hactive
        have hone := SeqNum.advancing_add (hdata.last hstill) hdata.acks (show 1 < 2 ^ 31 by decide)
        subst ht''
        refine hdata.reset _ ?_
        rw [List.map_append, List.reverse_append]
        exact hone

/-- **The stream is safe along every run in which data arrives in order and fits the
buffer**, from the SYN of the peer on, whatever else arrives and however it is read. -/
theorem stream_safe (S : List UInt8) (ip : UInt32) (port : UInt16) (irs : UInt32)
    (es : List TcpEvent)
    (h : Runs.Along Receiver.step (InOrder S) (Receiver.start ip port irs) es) :
    StreamSafe S (Runs.run Receiver.step (Receiver.start ip port irs) es) := by
  have hstart : StreamInv S (Receiver.start ip port irs) :=
    ⟨nofun, List.nil_prefix, List.isChain_singleton _, fun _ => rfl⟩
  have hend := h.invariant (fun r e hok hr => hr.step hok) hstart
  exact ⟨(List.prefix_append _ _).trans hend.bytes, hend.acks⟩

/-- The host and port of the concrete runs. -/
def somePeer : UInt32 × UInt16 := (0x0a000202, 80)

/-- A frame from that peer. -/
def peerFrame (seq : UInt32) (flags : UInt8) (payload : List UInt8) : List UInt8 :=
  segmentFrame ⟨somePeer.1, somePeer.2, 49152, seq, flags, payload⟩

/-- Two segments in order, across the end of the sequence numbers, each read at once. -/
def orderedEvents : List TcpEvent :=
  [.poll (peerFrame 0xffffffff 0x18 [1, 2]), .take 8, .poll (peerFrame 1 0x18 [3]), .take 8]

theorem stream_safe_wrap :
    (Runs.run Receiver.step (Receiver.start somePeer.1 somePeer.2 0xfffffffe) orderedEvents).taken
        = [1, 2, 3] ∧
      StreamSafe [1, 2, 3, 4]
        (Runs.run Receiver.step (Receiver.start somePeer.1 somePeer.2 0xfffffffe)
          orderedEvents) := by
  exact ⟨by decide +kernel, stream_safe _ _ _ _ _ (by decide +kernel)⟩

/-- A segment, the next one, and the first one again, and then everything is read. -/
def duplicateEvents : List TcpEvent :=
  [.poll (peerFrame 1 0x18 [1]), .poll (peerFrame 2 0x18 [2]), .poll (peerFrame 1 0x18 [1]),
    .take 8]

/-- The retransmitted segment is read twice, and acknowledged with the lower number. -/
theorem not_stream_safe_duplicate :
    ¬ ∀ es : List TcpEvent, (∀ frame, .poll frame ∈ es → PieceOf [1, 2] 0 frame) →
      StreamSafe [1, 2] (Runs.run Receiver.step (Receiver.start somePeer.1 somePeer.2 0) es) := by
  intro hall
  have hfirst : PieceOf [1, 2] 0 (peerFrame 1 0x18 [1]) :=
    (onSegment_some (s := ⟨somePeer.1, somePeer.2, 49152, 1, 0x18, [1]⟩) (by decide +kernel)).mpr
      ⟨0, by decide, by decide⟩
  have hsecond : PieceOf [1, 2] 0 (peerFrame 2 0x18 [2]) :=
    (onSegment_some (s := ⟨somePeer.1, somePeer.2, 49152, 2, 0x18, [2]⟩) (by decide +kernel)).mpr
      ⟨1, by decide, by decide⟩
  have hpieces : ∀ frame, .poll frame ∈ duplicateEvents → PieceOf [1, 2] 0 frame := by
    intro frame hmem
    simp only [duplicateEvents, List.mem_cons, TcpEvent.poll.injEq, reduceCtorEq, List.not_mem_nil,
      or_false] at hmem
    rcases hmem with rfl | rfl | rfl
    · exact hfirst
    · exact hsecond
    · exact hfirst
  obtain ⟨hread, -⟩ := hall duplicateEvents hpieces
  revert hread
  decide +kernel

/-! ## Acknowledged bytes -/

/-- The bytes of the stream that acknowledgements cover have been read or are in the
buffer, in their places. -/
def Kept (S : List UInt8) (r : Receiver) : Prop := r.taken ++ r.tcp.rx = S.take r.covered

/-- The peer sends its stream in order and without loss, and its FIN at the end. -/
def LossFree (S : List UInt8) (r : Receiver) : TcpEvent → Prop
  | .take _ => True
  | .poll frame => OnSegment (fun s => r.tcp.matches s = true →
      s.rst = false ∧ (r.tcp.Accepts s → s.seq = r.tcp.rcvNxt ∧ s.payload <+: S.drop r.covered ∧
        (s.fin = true → r.covered + s.payload.length = S.length))) frame

instance (S : List UInt8) (r : Receiver) : ∀ e, Decidable (LossFree S r e)
  | .take _ => inferInstanceAs (Decidable True)
  | .poll frame => inferInstanceAs (Decidable (OnSegment _ frame))

/-- A segment leaves room, and the last one comes without data when all has been
read. -/
def SegmentFits (r : Receiver) : TcpEvent → Prop
  | .take _ => True
  | .poll frame => OnSegment (fun s => r.tcp.Accepts s →
      if s.fin = true then r.tcp.rx = [] ∧ s.payload = []
      else r.tcp.rx.length + s.payload.length ≤ tcpRxSize) frame

/-- What holds as long as nothing has been lost. -/
structure KeptInv (S : List UInt8) (r : Receiver) : Prop where
  open_ : r.tcp.state ≠ .synSent
  kept : Kept S r
  last : r.tcp.active = true → r.acks.head? = some r.tcp.rcvNxt

/-- The data of a segment, as far as it fits. -/
theorem tcpData_rx (t : Tcp) (s : Segment) :
    (tcpData t s).1.rx = t.rx ++ s.payload.take (tcpRxSize - t.rx.length) := by
  rw [tcpData]
  split_ifs with hempty
  · rw [hempty, List.take_nil, List.append_nil]
  · rfl

theorem tcpData_state (t : Tcp) (s : Segment) : (tcpData t s).1.state = t.state := by
  rw [tcpData]
  split_ifs
  · rfl
  · rfl

/-- Data in order is covered in full, whether it fits or not. -/
theorem span_tcpData {t : Tcp} {s : Segment} {acks : List UInt32}
    (hhead : acks.head? = some t.rcvNxt) (hseq : s.seq = t.rcvNxt)
    (hlen : s.payload.length < 2 ^ 16) :
    SeqNum.span (((tcpData t s).2.map (·.ack)).reverse ++ acks)
        = SeqNum.span acks + s.payload.length ∧
      (((tcpData t s).2.map (·.ack)).reverse ++ acks).head? = some (tcpData t s).1.rcvNxt := by
  rw [tcpData]
  split_ifs with hempty
  · rw [hempty]
    exact ⟨rfl, hhead⟩
  · refine ⟨?_, rfl⟩
    show SeqNum.span ((s.seq + UInt32.ofNat s.payload.length) :: acks) = _
    rw [hseq]
    exact SeqNum.span_add hhead (by omega)

/-- The next piece of a stream. -/
theorem take_add_of_isPrefix {S payload : List UInt8} {n : Nat} (h : payload <+: S.drop n) :
    S.take (n + payload.length) = S.take n ++ payload := by
  rw [List.take_add, ← List.prefix_iff_eq_take.mp h]

section Step

variable {S : List UInt8} {r : Receiver} {s : Segment} (hinv : KeptInv S r)
  (hactive : r.tcp.active = true) (hlen : s.payload.length < 2 ^ 16)
  (hseq : s.seq = r.tcp.rcvNxt) (hpayload : s.payload <+: S.drop r.covered)

include hinv hactive hlen hseq hpayload

/-- **A segment that goes on**: nothing is lost exactly if it fits. -/
theorem kept_data_iff :
    Kept S { r with
        tcp := (tcpData r.tcp s).1
        acks := ((tcpData r.tcp s).2.map (·.ack)).reverse ++ r.acks } ↔
      r.tcp.rx.length + s.payload.length ≤ tcpRxSize := by
  have hspan := (span_tcpData (hinv.last hactive) hseq hlen).1
  have hstream := take_add_of_isPrefix hpayload
  have hroom := r.tcp.rx_le
  have hkept : r.taken ++ r.tcp.rx = S.take r.covered := hinv.kept
  show r.taken ++ (tcpData r.tcp s).1.rx = S.take (SeqNum.span _) ↔ _
  rw [tcpData_rx, hspan, ← List.append_assoc, hkept]
  show S.take r.covered ++ _ = S.take (r.covered + s.payload.length) ↔ _
  rw [hstream, List.append_cancel_left_eq, List.take_eq_self_iff]
  omega

/-- **A segment that ends the connection**: nothing is lost exactly if nothing is
left to be read. -/
theorem kept_fin_iff (hend : r.covered + s.payload.length = S.length) {t : Tcp}
    (ht : t = { (tcpData r.tcp s).1 with rcvNxt := (tcpData r.tcp s).1.rcvNxt + 1 }) :
    Kept S { r with
        tcp := tcpReset t
        acks := (((tcpData r.tcp s).2 ++ [t.answer 0x11]).map (·.ack)).reverse ++ r.acks } ↔
      r.tcp.rx = [] ∧ s.payload = [] := by
  obtain ⟨hspan, hhead⟩ := span_tcpData (hinv.last hactive) hseq hlen
  have hstream := take_add_of_isPrefix hpayload
  have hkept : r.taken ++ r.tcp.rx = S.take r.covered := hinv.kept
  have hcovered : SeqNum.span ((((tcpData r.tcp s).2 ++ [t.answer 0x11]).map (·.ack)).reverse
      ++ r.acks) = S.length + 1 := by
    rw [List.map_append, List.reverse_append, ht]
    show SeqNum.span (((tcpData r.tcp s).1.rcvNxt + UInt32.ofNat 1) ::
      (((tcpData r.tcp s).2.map (·.ack)).reverse ++ r.acks)) = _
    rw [SeqNum.span_add hhead (by decide), hspan, ← hend]
    rfl
  rw [hend, List.take_length, ← hkept] at hstream
  show r.taken ++ [] = S.take (SeqNum.span _) ↔ _
  rw [hcovered, List.take_of_length_le (Nat.le_succ _), hstream, List.append_assoc,
    List.append_cancel_left_eq, eq_comm, List.append_eq_nil_iff]

end Step

/-- **One event**: what is kept stays kept exactly if the event fits. -/
theorem kept_step_iff {S : List UInt8} {r : Receiver} {e : TcpEvent} (hinv : KeptInv S r)
    (hin : LossFree S r e) :
    (Kept S (r.step e) ↔ SegmentFits r e) ∧ (Kept S (r.step e) → KeptInv S (r.step e)) := by
  cases e with
  | take buflen =>
    have hkept : Kept S (r.step (.take buflen)) := by
      show (r.taken ++ r.tcp.rx.take buflen) ++ r.tcp.rx.drop buflen = S.take r.covered
      rw [List.append_assoc, List.take_append_drop]
      exact hinv.kept
    exact ⟨iff_of_true hkept trivial, fun _ => ⟨hinv.open_, hkept, hinv.last⟩⟩
  | poll frame =>
    have hstep : r.step (.poll frame) = { r with
        tcp := (r.tcp.poll frame).1
        acks := ((r.tcp.poll frame).2.map (·.ack)).reverse ++ r.acks } := rfl
    rw [hstep, Tcp.poll]
    cases hframe : frameSegment frame with
    | none =>
      refine ⟨iff_of_true hinv.kept ?_, fun _ => hinv⟩
      rw [SegmentFits, OnSegment, hframe]
      trivial
    | some s =>
      have hlen := length_payload_le hframe
      have hsegment := (onSegment_some hframe).mp hin
      have hsame : (if s.ack = true ∧ r.tcp.state = .synSent then
          { r.tcp with state := .established } else r.tcp) = r.tcp :=
        if_neg fun hsyn => hinv.open_ hsyn.2
      rw [SegmentFits, onSegment_some hframe]
      dsimp only
      generalize hout : tcpHandle r.tcp s = out
      have hmove := tcpHandle_moves r.tcp s
      rw [hout] at hmove
      cases hmove with
      | ignored hnot => exact ⟨iff_of_true hinv.kept fun h => absurd h hnot, fun _ => hinv⟩
      | reset hactive hmatch hrst =>
        rw [(hsegment hmatch).1] at hrst
        cases hrst
      | syn hactive hmatch hrst hsyn hstate ht' => exact absurd hstate hinv.open_
      | data hactive hmatch hrst hsyn hfin ht' =>
        rw [hsame] at ht'
        subst ht'
        have haccepts : r.tcp.Accepts s := ⟨hactive, hmatch, hrst, hsyn⟩
        obtain ⟨hseq, hpayload, -⟩ := (hsegment hmatch).2 haccepts
        constructor
        · rw [kept_data_iff hinv hactive hlen hseq hpayload, if_neg (by rw [hfin]; decide)]
          exact ⟨fun h _ => h, fun h => h haccepts⟩
        · intro hkept
          refine ⟨?_, hkept, fun _ => (span_tcpData (hinv.last hactive) hseq hlen).2⟩
          rw [tcpData_state]
          exact hinv.open_
      | fin hactive hmatch hrst hsyn hfin ht' ht'' =>
        rw [hsame] at ht'
        subst ht'
        have haccepts : r.tcp.Accepts s := ⟨hactive, hmatch, hrst, hsyn⟩
        obtain ⟨hseq, hpayload, hend⟩ := (hsegment hmatch).2 haccepts
        constructor
        · rw [kept_fin_iff hinv hactive hlen hseq hpayload (hend hfin) ht'', if_pos hfin]
          exact ⟨fun h _ => h, fun h => h haccepts⟩
        · intro hkept
          exact ⟨nofun, hkept, nofun⟩

/-- **Acknowledged bytes are kept exactly as long as segments fit the buffer and the
FIN comes alone, after everything has been read.** The peer sends its stream in order
and without loss; frames and reads come in any order. -/
theorem acked_kept_iff (S : List UInt8) (ip : UInt32) (port : UInt16) (irs : UInt32)
    (es : List TcpEvent)
    (hin : Runs.Along Receiver.step (LossFree S) (Receiver.start ip port irs) es) :
    Runs.Along Receiver.step (fun r e => Kept S (r.step e)) (Receiver.start ip port irs) es ↔
      Runs.Along Receiver.step SegmentFits (Receiver.start ip port irs) es := by
  have hstart : KeptInv S (Receiver.start ip port irs) := by
    refine ⟨nofun, ?_, fun _ => rfl⟩
    show [] ++ [] = S.take 0
    rw [List.take_zero, List.append_nil]
  revert hin hstart
  -- along the run, until the first event that does not fit
  generalize Receiver.start ip port irs = r
  intro hin hinv
  induction es generalizing r with
  | nil => exact Iff.rfl
  | cons e es ih =>
    obtain ⟨hiff, hnext⟩ := kept_step_iff hinv hin.1
    constructor
    · rintro ⟨hkept, hrest⟩
      exact ⟨hiff.mp hkept, (ih _ hin.2 (hnext hkept)).mp hrest⟩
    · rintro ⟨hfits, hrest⟩
      have hkept := hiff.mpr hfits
      exact ⟨hkept, (ih _ hin.2 (hnext hkept)).mpr hrest⟩

theorem acked_kept_iff_ordered :
    Runs.Along Receiver.step (fun r e => Kept [1, 2, 3, 4] (r.step e))
        (Receiver.start somePeer.1 somePeer.2 0xfffffffe) orderedEvents ↔
      Runs.Along Receiver.step SegmentFits (Receiver.start somePeer.1 somePeer.2 0xfffffffe)
        orderedEvents :=
  acked_kept_iff [1, 2, 3, 4] _ _ _ _ (by decide +kernel)

/-- A byte, and then a FIN before the byte has been read. -/
def finEvents : List TcpEvent := [.poll (peerFrame 1 0x18 [7]), .poll (peerFrame 2 0x11 [])]

/-- The byte is acknowledged, and gone. -/
theorem not_acked_kept_fin :
    ¬ ∀ es : List TcpEvent,
      Runs.Along Receiver.step (LossFree [7]) (Receiver.start somePeer.1 somePeer.2 0) es →
        Runs.Along Receiver.step (fun r e => Kept [7] (r.step e))
          (Receiver.start somePeer.1 somePeer.2 0) es := by
  intro hall
  obtain ⟨-, hfin, -⟩ := hall finEvents (by decide +kernel)
  revert hfin
  rw [Kept]
  decide +kernel

end OpenAgentOS
