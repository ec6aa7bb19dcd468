import Mathlib.Data.List.DropRight
import OpenAgentOS.Ipc.Msgbox

/-!
# A mailbox is a pair of bounded FIFO queues

The kernel documentation describes a mailbox as two queues: *steer*, of
capacity 4 and served first, and *normal*, of capacity 16
(docs/AGENT_MODEL.md). `Mailbox` states that reading: two bounded lists and the
three operations on them. `Refines` relates a kernel box to the mailbox it
stands for. Each kernel operation simulates its abstract counterpart
(`refines_init`, `refines_push`, `refines_pop`, `refines_compact`), and by
induction over the calls so does every run (`msgbox_refines_mailbox`).
-/

namespace OpenAgentOS

/-! ## The abstract mailbox -/

/-- Two FIFO queues, oldest message first, that never exceed their capacity. -/
@[ext] structure Mailbox where
  steer : List AgentMsg
  normal : List AgentMsg
  steer_le : steer.length ≤ msgSteerCapacity
  normal_le : normal.length ≤ msgCapacity

namespace Mailbox

/-- No messages. -/
def empty : Mailbox := ⟨[], [], Nat.zero_le _, Nat.zero_le _⟩

/-- Append to the queue the message type selects, if it has room. -/
def push (m : Mailbox) (msg : AgentMsg) : Int × Mailbox :=
  if msg.type = msgSteer then
    if h : m.steer.length < msgSteerCapacity then
      (0, { m with steer := m.steer ++ [msg], steer_le := by simpa using Nat.succ_le_of_lt h })
    else (enospc, m)
  else
    if h : m.normal.length < msgCapacity then
      (0, { m with normal := m.normal ++ [msg], normal_le := by simpa using Nat.succ_le_of_lt h })
    else (enospc, m)

/-- Take the oldest steer message, else the oldest normal one. -/
def pop (m : Mailbox) : Except Int AgentMsg × Mailbox :=
  match m with
  | ⟨s :: ss, ns, hs, hn⟩ => (.ok s, ⟨ss, ns, (Nat.le_succ _).trans hs, hn⟩)
  | ⟨[], n :: ns, hs, hn⟩ => (.ok n, ⟨[], ns, hs, (Nat.le_succ _).trans hn⟩)
  | ⟨[], [], hs, hn⟩ => (.error eagain, ⟨[], [], hs, hn⟩)

/-- Replace all but the last `k` normal messages by one summary of them, when
there are more than `k`. -/
def keepLast (m : Mailbox) (k : Nat) : Mailbox :=
  if h : k < m.normal.length then
    { m with
      normal := compactSummary (m.normal.rdrop k) :: m.normal.rtake k
      normal_le := by
        have hle := m.normal_le
        rw [List.length_cons, List.rtake, List.length_drop]
        omega }
  else m

/-- Compaction keeps the last `k` messages, `k` being `keep` clamped to `0 … 16`. -/
def compact (m : Mailbox) (keep : Int) : Int × Mailbox :=
  (0, m.keepLast (max 0 (min keep msgCapacity)).toNat)

end Mailbox

/-! ## Calls and runs -/

/-- A call of the mailbox interface. -/
inductive MsgboxCall where
  | init
  | push (msg : AgentMsg)
  | pop
  | compact (keep : Int)

/-- What a call returns: a code, or a message through the out parameter. -/
inductive MsgboxReply where
  | code (rc : Int)
  | message (msg : Except Int AgentMsg)
  deriving DecidableEq

/-- One call on the kernel's box. -/
def Msgbox.call (box : Msgbox) : MsgboxCall → MsgboxReply × Msgbox
  | .init => (.code 0, msgboxInit box)
  | .push msg => ((msgboxPush box msg).map .code id)
  | .pop => ((msgboxPop box).map .message id)
  | .compact keep => ((msgboxCompact box keep).map .code id)

/-- One call on the abstract mailbox. -/
def Mailbox.call (m : Mailbox) : MsgboxCall → MsgboxReply × Mailbox
  | .init => (.code 0, .empty)
  | .push msg => ((m.push msg).map .code id)
  | .pop => (m.pop.map .message id)
  | .compact keep => ((m.compact keep).map .code id)

/-- A sequence of calls: all replies in order, and the final state. -/
def runCalls {σ : Type} (call : σ → MsgboxCall → MsgboxReply × σ) (s : σ) :
    List MsgboxCall → List MsgboxReply × σ
  | [] => ([], s)
  | c :: cs =>
    let (reply, s') := call s c
    ((runCalls call s' cs).map (reply :: ·) id)

/-- A reply that reports an error. -/
def MsgboxReply.IsError : MsgboxReply → Prop
  | .code rc => rc < 0
  | .message msg => ∃ e, msg = .error e

/-! ## The simulation -/

/-- The box keeps its indices in order and its rings hold the queues. -/
structure Refines (box : Msgbox) (m : Mailbox) : Prop where
  steer_valid : box.steer.Valid
  normal_valid : box.normal.Valid
  steer_eq : box.steer.contents = m.steer
  normal_eq : box.normal.contents = m.normal

namespace Refines

variable {box : Msgbox} {m : Mailbox}

theorem steer_count (h : Refines box m) : box.steer.count = m.steer.length := by
  rw [← h.steer_eq, RingBuffer.length_contents]

theorem normal_count (h : Refines box m) : box.normal.count = m.normal.length := by
  rw [← h.normal_eq, RingBuffer.length_contents]

end Refines

/-- Initialisation empties both queues, whatever the memory held before. -/
theorem refines_init (box : Msgbox) : Refines (msgboxInit box) .empty where
  steer_valid := box.steer.valid_clear
  normal_valid := box.normal.valid_clear
  steer_eq := rfl
  normal_eq := rfl

theorem refines_push {box : Msgbox} {m : Mailbox} (h : Refines box m) (msg : AgentMsg) :
    (msgboxPush box msg).1 = (m.push msg).1 ∧
      Refines (msgboxPush box msg).2 (m.push msg).2 := by
  have hs := h.steer_count
  have hn := h.normal_count
  by_cases htype : msg.type = msgSteer
  · by_cases hroom : m.steer.length < msgSteerCapacity
    · have hcount : box.steer.count < msgSteerCapacity := by rwa [hs]
      rw [msgboxPush, Mailbox.push, if_pos htype, dif_pos hroom,
        if_pos (by simpa [msgboxIsPriorityType] using htype),
        if_neg (Nat.not_le.mpr hcount)]
      refine ⟨rfl, RingBuffer.valid_pushBack h.steer_valid msg hcount, h.normal_valid, ?_,
        h.normal_eq⟩
      show (box.steer.pushBack msg).contents = m.steer ++ [msg]
      rw [RingBuffer.contents_pushBack h.steer_valid msg hcount, h.steer_eq]
    · rw [msgboxPush, Mailbox.push, if_pos htype, dif_neg hroom,
        if_pos (by simpa [msgboxIsPriorityType] using htype),
        if_pos (by rw [hs]; exact Nat.not_lt.mp hroom)]
      exact ⟨rfl, h⟩
  · by_cases hroom : m.normal.length < msgCapacity
    · have hcount : box.normal.count < msgCapacity := by rwa [hn]
      rw [msgboxPush, Mailbox.push, if_neg htype, dif_pos hroom,
        if_neg (by simpa [msgboxIsPriorityType] using htype),
        if_neg (Nat.not_le.mpr hcount)]
      refine ⟨rfl, h.steer_valid, RingBuffer.valid_pushBack h.normal_valid msg hcount,
        h.steer_eq, ?_⟩
      show (box.normal.pushBack msg).contents = m.normal ++ [msg]
      rw [RingBuffer.contents_pushBack h.normal_valid msg hcount, h.normal_eq]
    · rw [msgboxPush, Mailbox.push, if_neg htype, dif_neg hroom,
        if_neg (by simpa [msgboxIsPriorityType] using htype),
        if_pos (by rw [hn]; exact Nat.not_lt.mp hroom)]
      exact ⟨rfl, h⟩

theorem refines_pop {box : Msgbox} {m : Mailbox} (h : Refines box m) :
    (msgboxPop box).1 = m.pop.1 ∧ Refines (msgboxPop box).2 m.pop.2 := by
  obtain ⟨steer, normal, hsle, hnle⟩ := m
  obtain ⟨hsv, hnv, hse, hne⟩ := h
  dsimp only at hse hne
  have hs : box.steer.count = steer.length := by rw [← hse, RingBuffer.length_contents]
  have hn : box.normal.count = normal.length := by rw [← hne, RingBuffer.length_contents]
  cases steer with
  | cons s ss =>
    have hpos : 0 < box.steer.count := by rw [hs]; exact Nat.succ_pos _
    rw [RingBuffer.contents_popFront hpos, List.cons.injEq] at hse
    rw [msgboxPop, if_pos hpos]
    exact ⟨congrArg Except.ok hse.1, RingBuffer.valid_popFront hsv hpos, hnv, hse.2, hne⟩
  | nil =>
    have hzero : ¬ 0 < box.steer.count := by rw [hs]; exact Nat.lt_irrefl 0
    cases normal with
    | nil =>
      rw [msgboxPop, if_neg hzero, if_pos (by rw [hn]; rfl)]
      exact ⟨rfl, hsv, hnv, hse, hne⟩
    | cons n ns =>
      have hpos : 0 < box.normal.count := by rw [hn]; exact Nat.succ_pos _
      rw [RingBuffer.contents_popFront hpos, List.cons.injEq] at hne
      rw [msgboxPop, if_neg hzero, if_neg (Nat.pos_iff_ne_zero.mp hpos)]
      exact ⟨congrArg Except.ok hne.1, hsv, RingBuffer.valid_popFront hnv hpos, hse, hne.2⟩

/-- The three-way clamp of the C code is `max`/`min` clamping. -/
theorem clampKeep_eq (keep : Int) :
    clampKeep keep = (max 0 (min keep msgCapacity)).toNat := by
  unfold clampKeep
  split
  · omega
  · split <;> omega

/-- Laying the summary and the kept messages out again yields `keepLast`. -/
theorem refines_rebuild {box : Msgbox} {m : Mailbox} (h : Refines box m) {k : Nat}
    (hk : k < m.normal.length) :
    Refines
      { box with
        normal := box.normal.rebuild
          (compactSummary (m.normal.rdrop k) :: m.normal.rtake k) }
      (m.keepLast k) := by
  -- the summary takes the place of at least one dropped message
  have hfit : (compactSummary (m.normal.rdrop k) :: m.normal.rtake k).length
      ≤ msgCapacity := by
    have hcap := m.normal_le
    rw [List.length_cons, List.rtake, List.length_drop]
    omega
  rw [Mailbox.keepLast, dif_pos hk]
  exact ⟨h.steer_valid, RingBuffer.valid_rebuild _ hfit, h.steer_eq,
    RingBuffer.contents_rebuild _ hfit⟩

theorem refines_compact {box : Msgbox} {m : Mailbox} (h : Refines box m) (keep : Int) :
    (msgboxCompact box keep).1 = (m.compact keep).1 ∧
      Refines (msgboxCompact box keep).2 (m.compact keep).2 := by
  have hordered : (List.range box.normal.count).map box.normal.nth = m.normal := h.normal_eq
  simp only [msgboxCompact, Mailbox.compact, hordered, ← clampKeep_eq]
  rw [h.normal_count]
  by_cases hk : clampKeep keep < m.normal.length
  · rw [if_neg (Nat.not_le.mpr hk)]
    exact ⟨rfl, refines_rebuild h hk⟩
  · rw [if_pos (Nat.not_lt.mp hk), Mailbox.keepLast, dif_neg hk]
    exact ⟨rfl, h⟩

/-- One call: equal replies, and the refinement carries over. -/
theorem refines_call {box : Msgbox} {m : Mailbox} (h : Refines box m) (c : MsgboxCall) :
    (box.call c).1 = (m.call c).1 ∧ Refines (box.call c).2 (m.call c).2 := by
  cases c with
  | init => exact ⟨rfl, refines_init box⟩
  | push msg =>
    obtain ⟨hrc, hbox⟩ := refines_push h msg
    exact ⟨congrArg MsgboxReply.code hrc, hbox⟩
  | pop =>
    obtain ⟨hmsg, hbox⟩ := refines_pop h
    exact ⟨congrArg MsgboxReply.message hmsg, hbox⟩
  | compact keep =>
    obtain ⟨hrc, hbox⟩ := refines_compact h keep
    exact ⟨congrArg MsgboxReply.code hrc, hbox⟩

/-- A run of calls: equal replies throughout, related final states. -/
theorem refines_runCalls {box : Msgbox} {m : Mailbox} (h : Refines box m)
    (cs : List MsgboxCall) :
    (runCalls Msgbox.call box cs).1 = (runCalls Mailbox.call m cs).1 ∧
      Refines (runCalls Msgbox.call box cs).2 (runCalls Mailbox.call m cs).2 := by
  induction cs generalizing box m with
  | nil => exact ⟨rfl, h⟩
  | cons c cs ih =>
    obtain ⟨hreply, hnext⟩ := refines_call h c
    obtain ⟨hreplies, hfinal⟩ := ih hnext
    exact ⟨congrArg₂ List.cons hreply hreplies, hfinal⟩

/-- A call that reports an error leaves every byte of the box as it was. -/
theorem call_error_unchanged (box : Msgbox) (c : MsgboxCall)
    (herr : (box.call c).1.IsError) : (box.call c).2 = box := by
  cases c with
  | init => exact absurd herr (by simp [Msgbox.call, MsgboxReply.IsError])
  | push msg =>
    simp only [Msgbox.call, msgboxPush] at herr ⊢
    split_ifs at herr ⊢
    all_goals first | rfl | exact absurd herr (by simp [MsgboxReply.IsError])
  | pop =>
    simp only [Msgbox.call, msgboxPop] at herr ⊢
    split_ifs at herr ⊢
    all_goals first | rfl | exact absurd herr (by simp [MsgboxReply.IsError])
  | compact keep =>
    simp only [Msgbox.call, msgboxCompact] at herr
    split_ifs at herr
    all_goals exact absurd herr (by simp [MsgboxReply.IsError])

/-- A compaction that keeps everything leaves every byte of the box as it was. -/
theorem compact_noop_unchanged (box : Msgbox) {keep : Int}
    (hkeep : box.normal.count ≤ clampKeep keep) : msgboxCompact box keep = (0, box) := by
  rw [msgboxCompact]
  exact if_pos hkeep

/-- **Mailbox refinement**: from any memory, after `msgbox_init` every sequence
of calls returns exactly what the pair of FIFO queues returns and ends in a box
whose rings hold those queues. In the box reached, a further call that reports
an error (`ENOSPC` from push, `EAGAIN` from pop) changes nothing at all, and
neither does a compaction that keeps at least as many messages as there are. -/
theorem msgbox_refines_mailbox (mem : Msgbox) (cs : List MsgboxCall) :
    let box := (runCalls Msgbox.call (msgboxInit mem) cs).2
    let m := (runCalls Mailbox.call .empty cs).2
    (runCalls Msgbox.call (msgboxInit mem) cs).1 = (runCalls Mailbox.call .empty cs).1 ∧
      box.steer.contents = m.steer ∧ box.normal.contents = m.normal ∧
      (∀ c, (box.call c).1.IsError → (box.call c).2 = box) ∧
      ∀ keep, m.normal.length ≤ clampKeep keep → msgboxCompact box keep = (0, box) := by
  obtain ⟨hreplies, hfinal⟩ := refines_runCalls (refines_init mem) cs
  refine ⟨hreplies, hfinal.steer_eq, hfinal.normal_eq,
    fun c herr => call_error_unchanged _ c herr, fun keep hkeep => ?_⟩
  exact compact_noop_unchanged _ (by rwa [hfinal.normal_count])

end OpenAgentOS
