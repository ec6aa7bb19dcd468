import OpenAgentOS.Net.TcpStream

/-!
# The handshake (kernel/netstack.c)

`tcp_connect` should return 0 only when the peer has answered with a SYN. A segment
with the ACK flag alone does as well, and since port and initial sequence number are
the same for every connection, segments of an earlier one are taken for the new one.

- `Arrival`: a frame that a poll finds while `tcp_connect` waits, with a mark on what
  the peer sent for an earlier connection.
- `HandshakeSafe`: when the call returns 0, a SYN that is not a late one has arrived
  since it began, and the sequence numbers are those of that SYN.
- `CleanConnect`: the condition on the arrivals. `handshake_safe` has safety under it,
  `not_handshake_safe` without it.
-/

namespace OpenAgentOS

/-- A frame, and whether it belongs to an earlier connection. -/
structure Arrival where
  late : Bool
  frame : List UInt8

/-- The connection after an arrival. -/
def Tcp.arrive (t : Tcp) (a : Arrival) : Tcp := (t.poll a.frame).1

/-- The bytes of data that come from the peer of `t`. -/
def Tcp.dataIn (t : Tcp) : List Arrival → Nat
  | [] => 0
  | a :: as =>
    (match frameSegment a.frame with
      | none => 0
      | some s =>
        if t.matches s = true ∧ s.rst = false ∧ s.syn = false then s.payload.length else 0) +
      t.dataIn as

/-- The connection was established by one of the arrivals: a SYN of the peer that is
not a late one. The sequence numbers of `t` are those that it and the data behind it
give. -/
def SynAmong (ip : UInt32) (port : UInt16) (polled : List Arrival) (t : Tcp) : Prop :=
  ∃ pre a post s, polled = pre ++ a :: post ∧
    (Runs.run Tcp.arrive (tcpOpen ip port) pre).state = .synSent ∧
    frameSegment a.frame = some s ∧ (tcpOpen ip port).matches s = true ∧
    s.rst = false ∧ s.syn = true ∧ a.late = false ∧ t.sndNxt = t.iss + 1 ∧
    t.rcvNxt = s.seq + 1 + UInt32.ofNat ((tcpOpen ip port).dataIn post)

/-- If `tcp_connect` returns 0, the arrivals that it has polled contain a SYN. -/
def HandshakeSafe (ip : UInt32) (port : UInt16) (arp : List Arrival) (arpOk sendOk : Bool)
    (frames : List Arrival) : Prop :=
  ∀ t, tcpConnect ip port (arp.map (·.frame)) arpOk sendOk (frames.map (·.frame)) = (0, t) →
    ∃ polled, arp <+: polled ∧ polled <+: arp ++ frames ∧ SynAmong ip port polled t

/-! ## The condition -/

/-- Before the connection is established, no late SYN and no bare ACK arrives; then,
data arrives in order. -/
def CleanSegment (t : Tcp) (late : Bool) (s : Segment) : Prop :=
  match t.state with
  | .closed => True
  | .synSent => if s.syn = true then late = false else s.ack = true → s.fin = true
  | .established => s.syn = false → s.fin = false → s.payload ≠ [] → s.seq = t.rcvNxt

theorem cleanSegment_syn {t : Tcp} {late : Bool} {s : Segment} (hstate : t.state = .synSent)
    (hsyn : s.syn = true) : CleanSegment t late s ↔ late = false := by
  rw [CleanSegment, hstate]
  exact iff_of_eq (if_pos hsyn)

theorem cleanSegment_ack {t : Tcp} {late : Bool} {s : Segment} (hstate : t.state = .synSent)
    (hsyn : s.syn = false) : CleanSegment t late s ↔ (s.ack = true → s.fin = true) := by
  rw [CleanSegment, hstate]
  exact iff_of_eq (if_neg (ne_true_of_eq_false hsyn))

/-- The arrival is clean, if it is from the peer of the connection. -/
def Clean (t : Tcp) (a : Arrival) : Prop :=
  OnSegment (fun s => t.active = true ∧ t.matches s = true ∧ s.rst = false →
    CleanSegment t a.late s) a.frame

/-- The arrivals of the loop are clean up to the one with which it ends. -/
def CleanLoop : Tcp → List Arrival → Prop
  | _, [] => True
  | t, a :: as => Clean t a ∧ ((t.arrive a).state ≠ .established → CleanLoop (t.arrive a) as)

/-- All arrivals that `tcp_connect` polls are clean. -/
def CleanConnect (ip : UInt32) (port : UInt16) (arp frames : List Arrival) : Prop :=
  Runs.Along Tcp.arrive Clean (tcpOpen ip port) arp ∧
    CleanLoop (Runs.run Tcp.arrive (tcpOpen ip port) arp) frames

/-! ## One arrival -/

/-- What holds of the connection after the arrivals `polled`. -/
structure HandshakeInv (ip : UInt32) (port : UInt16) (polled : List Arrival) (t : Tcp) : Prop where
  run_eq : Runs.run Tcp.arrive (tcpOpen ip port) polled = t
  peer : t.matches = (tcpOpen ip port).matches
  syn : t.state = .established → SynAmong ip port polled t
  active : t.state = .established → t.active = true

variable {ip : UInt32} {port : UInt16} {polled : List Arrival} {t : Tcp} {a : Arrival}

theorem Tcp.dataIn_append (t : Tcp) (as bs : List Arrival) :
    t.dataIn (as ++ bs) = t.dataIn as + t.dataIn bs := by
  induction as with
  | nil => exact (Nat.zero_add _).symm
  | cons a as ih => rw [List.cons_append, Tcp.dataIn, Tcp.dataIn, ih, Nat.add_assoc]

/-- One more arrival, behind the SYN. -/
theorem SynAmong.snoc {t' : Tcp} (h : SynAmong ip port polled t) (hsnd : t'.sndNxt = t.sndNxt)
    (hiss : t'.iss = t.iss)
    (hrcv : t'.rcvNxt = t.rcvNxt + UInt32.ofNat ((tcpOpen ip port).dataIn [a])) :
    SynAmong ip port (polled ++ [a]) t' := by
  obtain ⟨pre, b, post, s, rfl, hwait, hframe, hmatch, hrst, hsyn, hlate, hnxt, hseq⟩ := h
  refine ⟨pre, b, post ++ [a], s, ?_, hwait, hframe, hmatch, hrst, hsyn, hlate, ?_, ?_⟩
  · rw [List.append_assoc, List.cons_append]
  · rw [hsnd, hiss, hnxt]
  · rw [hrcv, hseq, Tcp.dataIn_append, UInt32.ofNat_add, UInt32.add_assoc (s.seq + 1)]

/-- The bytes of data of one arrival. -/
theorem dataIn_singleton {s : Segment} (hframe : frameSegment a.frame = some s)
    (hpeer : t.matches = (tcpOpen ip port).matches) :
    (tcpOpen ip port).dataIn [a] =
      if t.matches s = true ∧ s.rst = false ∧ s.syn = false then s.payload.length else 0 := by
  rw [Tcp.dataIn, hframe, hpeer]
  rfl

/-- The data of a segment that an established connection gets. -/
theorem SynAmong.data {s : Segment} (h : SynAmong ip port polled t)
    (hdata : (tcpOpen ip port).dataIn [a] = s.payload.length)
    (hseq : s.payload ≠ [] → s.seq = t.rcvNxt) :
    SynAmong ip port (polled ++ [a]) (tcpData t s).1 := by
  by_cases hempty : s.payload = []
  · rw [tcpData, if_pos hempty]
    refine h.snoc rfl rfl ?_
    rw [hdata, hempty]
    exact (UInt32.add_zero _).symm
  · rw [tcpData, if_neg hempty]
    refine h.snoc rfl rfl ?_
    rw [hdata, ← hseq hempty]

/-- The data of a segment changes neither state nor peer. -/
theorem tcpData_frame (t : Tcp) (s : Segment) :
    (tcpData t s).1.state = t.state ∧ (tcpData t s).1.active = t.active ∧
      (tcpData t s).1.matches = t.matches := by
  rw [tcpData]
  split <;> exact ⟨rfl, rfl, rfl⟩

/-- What a segment does to a connection that has been opened. -/
theorem HandshakeInv.move (h : HandshakeInv ip port polled t) (hclean : Clean t a) {s : Segment}
    (hframe : frameSegment a.frame = some s) {out : Tcp × List SentSegment}
    (hmove : TcpMove t s out) :
    out.1.matches = t.matches ∧
      (out.1.state = .established → SynAmong ip port (polled ++ [a]) out.1) ∧
      (out.1.state = .established → out.1.active = true) := by
  have hsegment := (onSegment_some hframe).mp hclean
  have hdata := dataIn_singleton hframe h.peer
  cases hmove with
  | ignored hnot =>
    refine ⟨rfl, fun hstate => (h.syn hstate).snoc rfl rfl ?_, h.active⟩
    rw [hdata, if_neg fun hacc => hnot ⟨h.active hstate, hacc⟩]
    exact (UInt32.add_zero _).symm
  | reset hactive hmatch hrst => exact ⟨rfl, nofun, nofun⟩
  | syn hactive hmatch hrst hsyn hstate ht' =>
    subst ht'
    have hnew := (cleanSegment_syn hstate hsyn).mp (hsegment ⟨hactive, hmatch, hrst⟩)
    refine ⟨rfl, fun _ => ⟨polled, a, [], s, rfl, ?_, hframe, ?_, hrst, hsyn, hnew, rfl, ?_⟩,
      fun _ => hactive⟩
    · rw [h.run_eq, hstate]
    · rw [← h.peer, hmatch]
    · exact (UInt32.add_zero _).symm
  | data hactive hmatch hrst hsyn hfin ht' =>
    have hnew := hsegment ⟨hactive, hmatch, hrst⟩
    -- a bare ACK would establish the connection here
    have hsame : ¬ (s.ack = true ∧ t.state = .synSent) := by
      rintro ⟨hack, hstate⟩
      have hfin' := (cleanSegment_ack hstate hsyn).mp hnew hack
      exact absurd (hfin.symm.trans hfin') (by decide)
    rw [if_neg hsame] at ht'
    rw [ht']
    obtain ⟨hstate, hact, hpeer⟩ := tcpData_frame t s
    refine ⟨hpeer, fun hest => ?_, fun _ => hact.trans hactive⟩
    rw [hstate] at hest
    rw [CleanSegment, hest] at hnew
    refine (h.syn hest).data ?_ (hnew hsyn hfin)
    rw [hdata, if_pos ⟨hmatch, hrst, hsyn⟩]
  | @fin hactive hmatch hrst hsyn hfin t' ht' t'' ht'' =>
    refine ⟨?_, nofun, nofun⟩
    have hpeer : t'.matches = t.matches := by
      rw [ht']
      split <;> rfl
    rw [← hpeer, ← (tcpData_frame t' s).2.2, ht'']
    rfl

/-- **One arrival.** -/
theorem HandshakeInv.arrive (h : HandshakeInv ip port polled t) (hclean : Clean t a) :
    HandshakeInv ip port (polled ++ [a]) (t.arrive a) := by
  have hrun : Runs.run Tcp.arrive (tcpOpen ip port) (polled ++ [a]) = t.arrive a := by
    rw [Runs.run_append, h.run_eq]
    rfl
  cases hframe : frameSegment a.frame with
  | none =>
    have hsame : t.arrive a = t := by
      rw [Tcp.arrive, Tcp.poll, hframe]
    rw [hsame] at hrun ⊢
    refine ⟨hrun, h.peer, fun hstate => (h.syn hstate).snoc rfl rfl ?_, h.active⟩
    rw [Tcp.dataIn, hframe]
    exact (UInt32.add_zero _).symm
  | some s =>
    have hstep : t.arrive a = (tcpHandle t s).1 := by
      rw [Tcp.arrive, Tcp.poll, hframe]
    obtain ⟨hpeer, hsyn, hactive⟩ := h.move hclean hframe (tcpHandle_moves t s)
    rw [← hstep] at hpeer hsyn hactive
    exact ⟨hrun, hpeer.trans h.peer, hsyn, hactive⟩

/-! ## The call -/

/-- The wait for an ARP reply. -/
theorem HandshakeInv.run (h : HandshakeInv ip port polled t) {as : List Arrival}
    (hclean : Runs.Along Tcp.arrive Clean t as) :
    HandshakeInv ip port (polled ++ as) (Runs.run Tcp.arrive t as) := by
  induction as generalizing polled t with
  | nil =>
    rw [List.append_nil]
    exact h
  | cons a as ih =>
    obtain ⟨hhead, htail⟩ := hclean
    have hnext := ih (h.arrive hhead) htail
    rw [List.append_assoc] at hnext
    exact hnext

/-- The loop of `tcp_connect` ends with 0 at an established connection. -/
theorem HandshakeInv.loop (h : HandshakeInv ip port polled t) {as : List Arrival}
    (hclean : CleanLoop t as) {t' : Tcp}
    (hret : connectLoop t (as.map (·.frame)) = (0, t')) :
    ∃ taken, taken <+: as ∧ SynAmong ip port (polled ++ taken) t' := by
  induction as generalizing polled t with
  | nil => exact absurd (congrArg Prod.fst hret) (show etimedout ≠ 0 by decide)
  | cons a as ih =>
    obtain ⟨hhead, htail⟩ := hclean
    have hnext := h.arrive hhead
    rw [List.map_cons, connectLoop] at hret
    change (if (t.arrive a).state = .established then (0, t.arrive a)
      else connectLoop (t.arrive a) (as.map (·.frame))) = (0, t') at hret
    by_cases hest : (t.arrive a).state = .established
    · rw [if_pos hest, Prod.mk.injEq] at hret
      rw [← hret.2]
      exact ⟨[a], ⟨as, rfl⟩, hnext.syn hest⟩
    · rw [if_neg hest] at hret
      obtain ⟨taken, hpre, hsyn⟩ := ih hnext (htail hest) hret
      refine ⟨a :: taken, List.cons_prefix_cons.mpr ⟨rfl, hpre⟩, ?_⟩
      rw [List.append_assoc] at hsyn
      exact hsyn

/-- A connection that is being opened. -/
theorem HandshakeInv.open (ip : UInt32) (port : UInt16) :
    HandshakeInv ip port [] (tcpOpen ip port) :=
  ⟨rfl, rfl, nofun, nofun⟩

/-- **The handshake is safe if all arrivals are clean.** -/
theorem handshake_safe (ip : UInt32) (port : UInt16) (arp : List Arrival) (arpOk sendOk : Bool)
    (frames : List Arrival) (hclean : CleanConnect ip port arp frames) :
    HandshakeSafe ip port arp arpOk sendOk frames := by
  intro t hret
  obtain ⟨harp, hloop⟩ := hclean
  have hinv := (HandshakeInv.open ip port).run harp
  rw [List.nil_append] at hinv
  rw [tcpConnect, List.foldl_map] at hret
  by_cases hok : arpOk = false
  · rw [if_pos hok] at hret
    exact absurd (congrArg Prod.fst hret) (show etimedout ≠ 0 by decide)
  rw [if_neg hok] at hret
  by_cases hsend : sendOk = false
  · rw [if_pos hsend] at hret
    exact absurd (congrArg Prod.fst hret) (show eio ≠ 0 by decide)
  rw [if_neg hsend] at hret
  obtain ⟨taken, hpre, hsyn⟩ := hinv.loop hloop hret
  exact ⟨arp ++ taken, List.prefix_append _ _, List.prefix_append_right_inj arp |>.mpr hpre, hsyn⟩

/-- One arrival that establishes the connection is enough. -/
theorem tcpConnect_arrive (hest : ((tcpOpen ip port).arrive a).state = .established) :
    tcpConnect ip port [] true true [a.frame] = (0, (tcpOpen ip port).arrive a) :=
  if_pos hest

/-- The peer answers with SYN and ACK. -/
def synAnswer (late : Bool) : Arrival := ⟨late, peerFrame 7 0x12 []⟩

theorem handshake_safe_answer :
    (tcpConnect somePeer.1 somePeer.2 [] true true [(synAnswer false).frame]).1 = 0 ∧
      HandshakeSafe somePeer.1 somePeer.2 [] true true [synAnswer false] := by
  refine ⟨by decide +kernel, handshake_safe _ _ _ _ _ _ ⟨trivial, ?_, fun _ => trivial⟩⟩
  refine (onSegment_some (s := ⟨somePeer.1, somePeer.2, 49152, 7, 0x12, []⟩) ?_).mpr fun _ => ?_
  · decide +kernel
  · exact (cleanSegment_syn rfl (by decide)).mpr rfl

/-- An acknowledgement without a SYN. -/
def bareAck : Arrival := ⟨false, peerFrame 7 0x10 []⟩

/-- A segment with the ACK flag alone establishes a connection, and so does the answer
to an earlier one that comes late. -/
theorem not_handshake_safe :
    ¬ HandshakeSafe somePeer.1 somePeer.2 [] true true [bareAck] ∧
      ¬ HandshakeSafe somePeer.1 somePeer.2 [] true true [synAnswer true] := by
  constructor
  · intro hsafe
    have hest : ((tcpOpen somePeer.1 somePeer.2).arrive bareAck).state = .established := by
      decide +kernel
    obtain ⟨polled, -, -, pre, a, post, s, -, -, -, -, -, -, -, hnxt, -⟩ :=
      hsafe _ (tcpConnect_arrive hest)
    -- `snd_nxt` is still the number of the own SYN
    exact absurd hnxt (by decide +kernel)
  · intro hsafe
    have hest : ((tcpOpen somePeer.1 somePeer.2).arrive (synAnswer true)).state =
        .established := by
      decide +kernel
    obtain ⟨polled, -, hpre, pre, a, post, s, rfl, -, -, -, -, -, hlate, -, -⟩ :=
      hsafe _ (tcpConnect_arrive hest)
    have hmem : a ∈ [synAnswer true] := hpre.subset (by simp)
    rw [List.mem_singleton.mp hmem] at hlate
    exact absurd hlate (by decide)

end OpenAgentOS
