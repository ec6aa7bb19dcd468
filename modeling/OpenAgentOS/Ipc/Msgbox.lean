import OpenAgentOS.Abi
import OpenAgentOS.Lib.CInt
import OpenAgentOS.Lib.CString
import OpenAgentOS.Lib.RingBuffer

/-!
# Agent mailboxes (kernel/ipc.c)

Every agent owns a mailbox with two rings: a small *steer* ring for priority
messages and a *normal* ring for everything else. This module follows
`kernel/ipc.c` function by function. The global `msgbox_lock` makes each
operation atomic, so an operation is a function from the box before to the box
after.

A box is uninitialised memory before `msgboxInit`: the slots of both rings hold
arbitrary messages and no operation may depend on them.
-/

namespace OpenAgentOS

open CInt CString

/-- `struct agent_msg`. -/
structure AgentMsg where
  senderId : Int
  type : Int
  payload : Vector UInt8 msgPayloadSize
  deriving DecidableEq

/-- The message a send system call builds (agent.c:193–203): the text, padded
with zeroes. -/
def AgentMsg.ofText (senderId type : Int) (text : List UInt8) : AgentMsg where
  senderId := senderId
  type := type
  payload := Vector.ofFn fun i => charAt text i

/-- `struct msgbox`: the normal and the steer ring. -/
structure Msgbox where
  normal : RingBuffer AgentMsg msgCapacity
  steer : RingBuffer AgentMsg msgSteerCapacity

/-! ## Writing a summary payload -/

/-- A payload under construction with the write position `*pos`. -/
structure PayloadBuf where
  dst : Vector UInt8 msgPayloadSize
  pos : Nat

/-- `payload_putc` (ipc.c:22): append one byte, always leaving room for the
terminator. -/
def payloadPutc (cap : Nat) (b : PayloadBuf) (c : UInt8) : PayloadBuf :=
  if b.pos < cap - 1 then ⟨b.dst.setIfInBounds b.pos c, b.pos + 1⟩ else b

/-- `payload_puts` (ipc.c:27). -/
def payloadPuts (cap : Nat) (b : PayloadBuf) : List UInt8 → PayloadBuf
  | [] => b
  | c :: s =>
    if b.pos < cap - 1 then
      payloadPuts cap ⟨b.dst.setIfInBounds b.pos c, b.pos + 1⟩ s
    else b

/-- `payload_put_uint` (ipc.c:32): the decimal digits, most significant first. -/
def payloadPutUint (cap : Nat) (b : PayloadBuf) (n : Nat) : PayloadBuf :=
  (decimal n).foldl (payloadPutc cap) b

/-- The type list of a summary (ipc.c:148–154): `t<type>` for each dropped
message, comma separated, until fewer than eight bytes are left. -/
def payloadPutTypes : Bool → PayloadBuf → List AgentMsg → PayloadBuf
  | _, b, [] => b
  | first, b, m :: ms =>
    if b.pos < msgPayloadSize - 8 then
      let b := if first then b else payloadPutc msgPayloadSize b ','.toUInt8
      let b := payloadPutc msgPayloadSize b 't'.toUInt8
      payloadPutTypes false (payloadPutUint msgPayloadSize b (toUint32 m.type)) ms
    else b

/-- `rebuilt[0]` of `msgbox_compact`: the message that stands for the dropped
ones. -/
def compactSummary (dropped : List AgentMsg) : AgentMsg where
  senderId := 0
  type := msgSummary
  payload :=
    let b : PayloadBuf := ⟨Vector.replicate msgPayloadSize 0, 0⟩
    let b := payloadPuts msgPayloadSize b (bytes "compact:")
    let b := payloadPutUint msgPayloadSize b (toUint32 dropped.length)
    let b := payloadPuts msgPayloadSize b (bytes ";")
    (payloadPutTypes true b dropped).dst

/-! ## The mailbox operations -/

/-- `msgbox_init` (ipc.c:46): reset the indices, keep the slots. -/
def msgboxInit (box : Msgbox) : Msgbox :=
  ⟨box.normal.clear, box.steer.clear⟩

/-- `msgbox_is_priority_type` (ipc.c:51). -/
def msgboxIsPriorityType (type : Int) : Bool :=
  type == msgSteer

/-- `msgbox_empty` (ipc.c:55). -/
def msgboxEmpty (box : Msgbox) : Bool :=
  box.normal.count == 0 && box.steer.count == 0

/-- `msgbox_push` (ipc.c:59): the return code and the box afterwards. -/
def msgboxPush (box : Msgbox) (msg : AgentMsg) : Int × Msgbox :=
  if msgboxIsPriorityType msg.type then
    if msgSteerCapacity ≤ box.steer.count then (enospc, box)
    else (0, { box with steer := box.steer.pushBack msg })
  else if msgCapacity ≤ box.normal.count then (enospc, box)
  else (0, { box with normal := box.normal.pushBack msg })

/-- There is room for a message of this type. -/
def Msgbox.hasRoom (box : Msgbox) (type : Int) : Bool :=
  if msgboxIsPriorityType type then decide (box.steer.count < msgSteerCapacity)
  else decide (box.normal.count < msgCapacity)

theorem msgboxPush_rc (box : Msgbox) (msg : AgentMsg) :
    (msgboxPush box msg).1 = if box.hasRoom msg.type then 0 else enospc := by
  unfold msgboxPush Msgbox.hasRoom
  by_cases htype : msgboxIsPriorityType msg.type = true
  · rw [if_pos htype, if_pos htype]
    simp only [decide_eq_true_eq, ← Nat.not_le]
    split_ifs <;> rfl
  · rw [if_neg htype, if_neg htype]
    simp only [decide_eq_true_eq, ← Nat.not_le]
    split_ifs <;> rfl

/-- A push without room leaves the box alone. -/
theorem msgboxPush_of_full {box : Msgbox} {msg : AgentMsg} (hfull : box.hasRoom msg.type = false) :
    (msgboxPush box msg).2 = box := by
  unfold Msgbox.hasRoom at hfull
  unfold msgboxPush
  by_cases htype : msgboxIsPriorityType msg.type = true
  · rw [if_pos htype, decide_eq_false_iff_not, Nat.not_lt] at hfull
    rw [if_pos htype, if_pos hfull]
  · rw [if_neg htype, decide_eq_false_iff_not, Nat.not_lt] at hfull
    rw [if_neg htype, if_pos hfull]

/-- `msgbox_pop` (ipc.c:89): the message copied out, or the error code. -/
def msgboxPop (box : Msgbox) : Except Int AgentMsg × Msgbox :=
  if 0 < box.steer.count then
    (.ok box.steer.front, { box with steer := box.steer.popFront })
  else if box.normal.count = 0 then (.error eagain, box)
  else (.ok box.normal.front, { box with normal := box.normal.popFront })

/-- The clamping of `keep` (ipc.c:127–130). -/
def clampKeep (keep : Int) : Nat :=
  if keep < 0 then 0
  else if (msgCapacity : Int) < keep then msgCapacity
  else keep.toNat

/-- `msgbox_compact` (ipc.c:114): fold all but the newest `keep` normal messages
into one summary and lay the ring out again from slot 0. The return code is
always 0. -/
def msgboxCompact (box : Msgbox) (keep : Int) : Int × Msgbox :=
  let total := box.normal.count
  let keep := clampKeep keep
  if total ≤ keep then (0, box)
  else
    let drop := total - keep
    let ordered := (List.range total).map box.normal.nth
    let rebuilt := compactSummary (ordered.take drop) :: ordered.drop drop
    (0, { box with normal := box.normal.rebuild rebuilt })

end OpenAgentOS
