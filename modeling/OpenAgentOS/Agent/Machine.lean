import OpenAgentOS.Agent.Table
import OpenAgentOS.Lib.Runs

/-!
# Harts and the scheduler (kernel/sched.c, arch/riscv/trap_handler.c)

A hart runs an agent in user mode until it traps. The kernel runs with interrupts
off, so from the trap on it is in one of a few places until it returns to user
mode, and what it does between two of them is one step:

- a trap up to the point where the kernel takes `sched_lock`, gives a message back
  to an inbox, or returns;
- a section under `sched_lock`: the update in `sched_notify_runnable`, one round of
  the loop in `schedule_trap` and one of that in `sched_cpu_run_loop`.

In particular the test at the head of `sched_notify_runnable` and the update under
the lock are two steps, and so are a system call and the return from it, which
stores the registers into the trapframe of the current agent once more.

- `Machine`: the agent table, run queues, and for every hart its `cpu_current`
  and where it is (`Ctl`).
- `Machine.step`: what an event does. `Machine.dispatched`: the agent that it
  dispatches, with the trapframe it resumes from.
- `boot`: the machine when the first agent starts.
-/

namespace OpenAgentOS

open Function

/-! ## The machine -/

/-- Where a hart is.

- `user`: in user mode.
- `notify target next`: in `sched_notify_runnable(target)` behind the test; the
  hart goes on with `next`.
- `undo msg tf`: in `agent_recv`, about to push `msg` back.
- `burn count tf`: in the loop of `quota_burn_ipc`.
- `ret tf`: about to return from a system call with the registers `tf`.
- `sched tf`: in `schedule_trap(tf)`, about to take the lock.
- `loop`: in `sched_cpu_run_loop`, about to take the lock.
- `stopped`: halted, or never started. -/
inductive Ctl where
  | user
  | notify (target : Fin maxAgents) (next : Ctl)
  | undo (msg : AgentMsg) (tf : TrapFrame)
  | burn (count : Nat) (tf : TrapFrame)
  | ret (tf : TrapFrame)
  | sched (tf : TrapFrame)
  | loop
  | stopped
  deriving DecidableEq

structure Machine extends Kernel where
  current : Fin maxHarts → Option (Fin maxAgents)
  rq : Fin maxHarts → List (Fin maxAgents)
  rrNext : Nat
  ctl : Fin maxHarts → Ctl

namespace Machine

variable (m : Machine) (h : Fin maxHarts) (i : Fin maxAgents)

/-- Replace one slot of the table. -/
def setAgent (a : Agent) : Machine := { m with toKernel := m.toKernel.setAgent i a }

/-- Send a hart on. -/
def goto (c : Ctl) : Machine := { m with ctl := update m.ctl h c }

/-- Replace the table, and send a hart on. -/
def after (k : Kernel) (c : Ctl) : Machine := { m with toKernel := k }.goto h c

/-! ## Run queues -/

/-- `sched_rq_add_locked` (sched.c:80). -/
def rqAdd : Machine :=
  let cpu := (m.agents i).homeCpu
  if i ∈ m.rq cpu then m
  else if maxAgents ≤ (m.rq cpu).length then m
  else { m with rq := update m.rq cpu (m.rq cpu ++ [i]) }

/-- `sched_rq_remove_locked` (sched.c:95). -/
def rqRemove (cpu : Fin maxHarts) : Machine :=
  { m with rq := update m.rq cpu ((m.rq cpu).erase i) }

/-- Make an agent runnable, on no hart, and queue it: the update of
`sched_notify_runnable` (sched.c:116), also of `schedule_trap` (sched.c:225). -/
def makeRunnable : Machine :=
  (m.setAgent i { m.agents i with state := .runnable, runningCpu := none }).rqAdd i

/-- `trapframe_store`. -/
def trapframeStore (tf : TrapFrame) : Machine :=
  if (m.agents i).tf.isSome then m.setAgent i { m.agents i with tf := some tf } else m

/-! ## Choosing the next agent -/

/-- `sched_agent_has_inbox` (sched.c:168). -/
def agentHasInbox : Bool :=
  (m.agents i).state != .unused && (m.agents i).state != .zombie && (m.agents i).state != .created

/-- `sched_agent_selectable` (sched.c:71). -/
def agentSelectable : Bool := m.agentHasInbox i && (m.agents i).state != .running

/-- `pick_from_runqueues` (sched.c:154). -/
def pickFromRunqueues : Option (Fin maxAgents) :=
  (m.rq h).find? fun i => (m.agents i).state == .runnable && (m.agents i).runningCpu.isNone

/-- The first loop of `pick_next`: an agent of this hart with a message. -/
def pickFromInboxes : Option (Fin maxAgents) :=
  (List.finRange maxAgents).find? fun i =>
    m.agentHasInbox i && (m.agents i).homeCpu == h && !msgboxEmpty (m.agents i).inbox

/-- The last loop of `pick_next`: the next runnable agent of this hart. -/
def pickRoundRobin : Option (Fin maxAgents) :=
  ((List.range maxAgents).map fun pass => Fin.ofNat maxAgents (m.rrNext + pass)).find? fun i =>
    m.agentSelectable i && (m.agents i).homeCpu == h && (m.agents i).state == .runnable

/-- `pick_next` (sched.c:175). -/
def pickNext : Option (Fin maxAgents) × Machine :=
  match m.pickFromInboxes h with
  | some i =>
    (some i, m.setAgent i { m.agents i with state := .runnable, runningCpu := none })
  | none =>
    match m.pickFromRunqueues h with
    | some i => (some i, m)
    | none =>
      match m.pickRoundRobin h with
      | some i => (some i, { m with rrNext := (i + 1) % maxAgents })
      | none => (none, m)

/-- `sched_has_runnable` (sched.c:125). -/
def hasRunnable : Bool :=
  (List.finRange maxAgents).any fun i =>
    m.agentSelectable i && ((m.agents i).state == .runnable || !msgboxEmpty (m.agents i).inbox)

/-- `sched_system_done` (sched.c:140). -/
def systemDone : Bool :=
  ((List.finRange maxAgents).all fun i => i == 0 || (m.agents i).free) && !m.hasRunnable

/-! ## Dispatching -/

/-- Run agent `i` on the hart: the common end of `schedule_trap` and of a round of
`sched_cpu_run_loop`. Without a trapframe the kernel halts. -/
def dispatch : Machine :=
  let m : Machine := { m with current := update m.current h (some i) }
  let m := m.setAgent i { m.agents i with state := .running, runningCpu := some h }
  let m := m.rqRemove i (m.agents i).homeCpu
  m.goto h (if (m.agents i).tf.isSome then .user else .stopped)

/-- A round of either loop from `pick_next` on. The hart stops when there is
nothing left to do, and `idle` is where it comes back to otherwise. Also what was
dispatched, and from which trapframe. `kernel_sched_ready` is set when more than
one hart is online. -/
def schedRound (cfg : Config) (idle : Ctl) : Machine × Option (Fin maxAgents × TrapFrame) :=
  match m.pickNext h with
  | (some i, m) => (m.dispatch h i, (m.agents i).tf.map fun tf => (i, tf))
  | (none, m) =>
    (m.goto h (if decide (1 < cfg.online) && m.systemDone then .stopped else idle), none)

/-- The head of a round of `schedule_trap` (sched.c:221-228): the registers are
stored, and the current agent is queued if it was running. -/
def park (tf : TrapFrame) : Machine :=
  match m.current h with
  | none => m
  | some i =>
    let m := m.trapframeStore i tf
    if (m.agents i).state = .running then m.makeRunnable i else m

/-- A round of the loop of `schedule_trap` (sched.c:212). -/
def scheduleTrap (cfg : Config) (tf : TrapFrame) : Machine × Option (Fin maxAgents × TrapFrame) :=
  (m.park h tf).schedRound h cfg (.sched tf)

/-- A round of `sched_cpu_run_loop` (sched.c:271). -/
def schedCpuRunLoop (cfg : Config) : Machine × Option (Fin maxAgents × TrapFrame) :=
  m.schedRound h cfg .loop

end Machine

/-! ## Traps -/

/-- System calls that use the table. `quotaBurn` and `quotaNotify` are commands of
`TOOL_QUOTA`; all other calls and tools are `other` with their result. -/
inductive Call where
  | create (gp : Nat) (caps : UInt32) (outcome : Spawn)
  | load (gp : Nat) (caps : UInt32) (outcome : Spawn)
  | destroy (id : Int)
  | send (dst type : Int) (payload : UserText)
  | recv (null fault : Bool)
  | compact (keep : Int)
  | quotaBurn (count : Int)
  | quotaNotify (text : List UInt8)
  | other (ret : Int)
  deriving DecidableEq

inductive Trap where
  | call (c : Call)
  | yield
  | exit
  | timer
  | heapFault
  | badFault
  | ipi

/-- `sched_notify_runnable` (sched.c:111) as far as the test. -/
def schedNotifyRunnable (k : Kernel) (target : Fin maxAgents) (next : Ctl) : Ctl :=
  if (k.agents target).state = .zombie then next else .notify target next

/-- After an attempt to create an agent. -/
def spawnEnd (tf : TrapFrame) : Except Int (Fin maxAgents) × Kernel → Kernel × Ctl
  | (.error rc, k) => (k, .ret (tf.returning rc))
  | (.ok i, k) => (k, schedNotifyRunnable k i (.ret (tf.returning i)))

/-- After an attempt to send a message; `next` on success. -/
def sendEnd (k : Kernel) (tf : TrapFrame) (next : Ctl) :
    Except Int (Fin maxAgents × Kernel) → Kernel × Ctl
  | .error rc => (k, .ret (tf.returning rc))
  | .ok (target, k) => (k, schedNotifyRunnable k target next)

/-- After a message was popped or not. -/
def recvEnd (k : Kernel) (tf : TrapFrame) (fault : Bool) :
    Except Int (AgentMsg × Kernel) → Kernel × Ctl
  | .error rc => (k, .ret (tf.returning rc))
  | .ok (msg, k) => (k, if fault then .undo msg tf else .ret (tf.returning msg.type))

/-- A system call of agent `cur`: the table, and where the hart goes on. -/
def Call.run (cfg : Config) (k : Kernel) (cur : Fin maxAgents) (tf : TrapFrame) :
    Call → Kernel × Ctl
  | .create gp caps outcome => spawnEnd tf (agentCreate cfg k cur gp caps outcome)
  | .load gp caps outcome => spawnEnd tf (agentLoadFromPath k cur gp caps outcome)
  | .destroy id => let out := agentDestroy k id; (out.2, .ret (tf.returning out.1))
  | .send dst type payload =>
    sendEnd k tf (.ret (tf.returning 0)) (agentSend cfg k cur dst type payload)
  | .recv null fault => recvEnd k tf fault (agentRecv k cur null)
  | .compact keep => let out := agentCompactInbox k cur keep; (out.2, .ret (tf.returning out.1))
  | .quotaBurn count =>
    (k, if count ≤ 0 then .ret (tf.returning einval) else .burn count.toNat tf)
  | .quotaNotify text =>
    sendEnd k tf (.ret (tf.returning 0)) (agentSendKernelNocheck k cur 1 msgResult text)
  | .other ret => (k, .ret (tf.returning ret))

/-- `trap_handler` (trap_handler.c:82) of agent `cur`, as far as its first step
goes. A page fault in the heap that could be served returns with the registers as
they are. -/
def trapHandler (cfg : Config) (m : Machine) (h : Fin maxHarts) (cur : Fin maxAgents)
    (tf : TrapFrame) : Trap → Machine
  | .call c => let out := c.run cfg m.toKernel cur tf; m.after h out.1 out.2
  | .yield => (m.trapframeStore cur (tf.returning 0)).goto h (.sched (tf.returning 0))
  | .exit =>
    let tf := { tf with sepc := (tf.sepc + 4) % 2 ^ 64 }
    ({ m with toKernel := agentExit m.toKernel cur }.trapframeStore cur tf).goto h (.sched tf)
  | .timer => (m.trapframeStore cur tf).goto h (.sched tf)
  | .heapFault => m.trapframeStore cur tf
  | .badFault =>
    ({ m with toKernel := agentExit m.toKernel cur }.trapframeStore cur tf).goto h (.sched tf)
  | .ipi => m

/-- The text of `quota_burn_ipc`. -/
def quotaBurnText : List UInt8 := CString.bytes "quota-burn"

/-- A round of the loop of `quota_burn_ipc` (quota.c:140). -/
def burnRound (cfg : Config) (k : Kernel) (cur : Fin maxAgents) (tf : TrapFrame) :
    Nat → Kernel × Ctl
  | 0 => (k, .ret (tf.returning 0))
  | count + 1 =>
    sendEnd k tf (.burn count tf) (agentSendKernel cfg k cur displayAgentId msgResult quotaBurnText)

/-- What happens to a hart: its agent traps with the registers `tf`, or the kernel
on it goes on. -/
inductive Event where
  | trap (h : Fin maxHarts) (tf : TrapFrame) (t : Trap)
  | go (h : Fin maxHarts)

/-- The hart on which an event happens. -/
def Event.hart : Event → Fin maxHarts
  | trap h _ _ | go h => h

/-- The kernel goes on, on behalf of agent `cur` where there is one. -/
def Machine.goOn (cfg : Config) (m : Machine) (h : Fin maxHarts) : Ctl → Machine
  | .user | .stopped => m
  | .notify target next => (m.makeRunnable target).goto h next
  | .undo msg tf =>
    match m.current h with
    | none => m
    | some cur => m.after h (agentRecvUndo m.toKernel cur msg) (.ret (tf.returning efault))
  | .burn count tf =>
    match m.current h with
    | none => m
    | some cur => let out := burnRound cfg m.toKernel cur tf count; m.after h out.1 out.2
  | .ret tf =>
    match m.current h with
    | none => m.goto h .stopped
    | some cur => (m.trapframeStore cur tf).goto h (if (m.agents cur).tf.isSome then .user else .stopped)
  | .sched tf => (m.scheduleTrap h cfg tf).1
  | .loop => (m.schedCpuRunLoop h cfg).1

/-- The machine after an event. An event that cannot happen changes nothing. -/
def Machine.step (cfg : Config) (m : Machine) : Event → Machine
  | .trap h tf t =>
    match m.ctl h, m.current h with
    | .user, some cur => trapHandler cfg m h cur tf t
    | _, _ => m
  | .go h => m.goOn cfg h (m.ctl h)

/-- What an event dispatches: the agent, and the trapframe it resumes from. -/
def Machine.dispatched (cfg : Config) (m : Machine) : Event → Option (Fin maxAgents × TrapFrame)
  | .trap _ _ _ => none
  | .go h =>
    match m.ctl h with
    | .sched tf => (m.scheduleTrap h cfg tf).2
    | .loop => (m.schedCpuRunLoop h cfg).2
    | _ => none

/-! ## What a step means for messages -/

/-- What a step does to messages and to the life of agents.

- `accepted target msg`: a send returns 0.
- `popped cur msg fault`: `agent_recv` takes `msg` out of the inbox of `cur`; it
  returns it, unless the copy to the user faults.
- `givenBack cur msg`, `dropped cur`: `agent_recv` pushes a message back, and the
  push succeeds or not. -/
inductive Note where
  | quiet
  | recreated (i : Fin maxAgents)
  | ended (i : Fin maxAgents)
  | accepted (target : Fin maxAgents) (msg : AgentMsg)
  | popped (cur : Fin maxAgents) (msg : AgentMsg) (fault : Bool)
  | givenBack (cur : Fin maxAgents) (msg : AgentMsg)
  | dropped (cur : Fin maxAgents)
  | compacted (cur : Fin maxAgents) (keep : Int)
  | dispatched (i : Fin maxAgents)

/-- The bytes of a string argument. -/
def UserText.bytes : UserText → List UInt8
  | null | fault => []
  | text s => s

/-- The message that a send by `cur` builds. -/
def sentMsg (cur : Fin maxAgents) (type : Int) (payload : List UInt8) : AgentMsg :=
  .ofText cur type (payload.take (msgPayloadSize - 1))

/-- A send, by its result. -/
def sendNote (msg : AgentMsg) : Except Int (Fin maxAgents × Kernel) → Note
  | .ok (target, _) => .accepted target msg
  | .error _ => .quiet

/-- An attempt to create an agent, by its result. -/
def spawnNote : Except Int (Fin maxAgents) × Kernel → Note
  | (.ok i, _) => .recreated i
  | (.error _, _) => .quiet

/-- What a system call of agent `cur` means. -/
def Call.note (cfg : Config) (k : Kernel) (cur : Fin maxAgents) : Call → Note
  | .create gp caps outcome => spawnNote (agentCreate cfg k cur gp caps outcome)
  | .load gp caps outcome => spawnNote (agentLoadFromPath k cur gp caps outcome)
  | .destroy id => ((agentGet k id).map .ended).getD .quiet
  | .send dst type payload =>
    sendNote (sentMsg cur type payload.bytes) (agentSend cfg k cur dst type payload)
  | .recv null fault =>
    match agentRecv k cur null with
    | .ok (msg, _) => .popped cur msg fault
    | .error _ => .quiet
  | .compact keep => if (k.agents cur).hasCap capRecv then .compacted cur keep else .quiet
  | .quotaNotify text =>
    sendNote (sentMsg cur msgResult text) (agentSendKernelNocheck k cur 1 msgResult text)
  | .quotaBurn _ | .other _ => .quiet

/-- What a round of `quota_burn_ipc` means. -/
def burnNote (cfg : Config) (k : Kernel) (cur : Fin maxAgents) : Nat → Note
  | 0 => .quiet
  | _ + 1 => sendNote (sentMsg cur msgResult quotaBurnText)
      (agentSendKernel cfg k cur displayAgentId msgResult quotaBurnText)

/-- What pushing a message back means. -/
def undoNote (k : Kernel) (cur : Fin maxAgents) (msg : AgentMsg) : Note :=
  if (msgboxPush (k.agents cur).inbox msg).1 = 0 then .givenBack cur msg else .dropped cur

/-- A round of the scheduler, by what it dispatched. -/
def dispatchNote (out : Option (Fin maxAgents × TrapFrame)) : Note :=
  (out.map fun (i, _) => .dispatched i).getD .quiet

/-- What a trap of agent `cur` means. -/
def Trap.note (cfg : Config) (k : Kernel) (cur : Fin maxAgents) : Trap → Note
  | .call c => c.note cfg k cur
  | .exit | .badFault => .ended cur
  | .yield | .timer | .heapFault | .ipi => .quiet

/-- What an event means. -/
def Machine.note (cfg : Config) (m : Machine) : Event → Note
  | .trap h _ t =>
    match m.ctl h, m.current h with
    | .user, some cur => t.note cfg m.toKernel cur
    | _, _ => .quiet
  | .go h =>
    match m.ctl h with
    | .undo msg _ => ((m.current h).map fun cur => undoNote m.toKernel cur msg).getD .quiet
    | .burn count _ => ((m.current h).map fun cur => burnNote cfg m.toKernel cur count).getD .quiet
    | _ => dispatchNote (m.dispatched cfg (.go h))

/-! ## Boot -/

/-- A service of the kernel image. -/
structure Service where
  id : Fin maxAgents
  entry : Nat
  gp : Nat
  caps : UInt32

/-- `agent_init` (agent.c:31), over mailboxes that hold anything, and no hart in
the scheduler yet. -/
def agentInit (boxes : Fin maxAgents → Msgbox) : Machine where
  agents := fun i => ⟨.unused, none, 0, msgboxInit (boxes i), 0, none⟩
  ipcCount := fun _ => 0
  current := fun _ => none
  rq := fun _ => []
  rrNext := 0
  ctl := fun _ => .stopped

/-- `agent_start_service` (agent.c:405). -/
def agentStartService (m : Machine) (s : Service) : Machine :=
  (m.setAgent s.id (Agent.reload s.gp s.caps s.id s.entry (m.agents s.id))).makeRunnable s.id

/-- `agent_start_kernel` (agent.c:386) for slot 1, then `scheduler_run_first`
(sched.c:328) on hart 0, while the other harts enter their loop. -/
def schedulerRunFirst (cfg : Config) (m : Machine) (entry gp : Nat) (caps : UInt32) : Machine :=
  let a : Agent :=
    { m.agents 1 with
      state := .running, tf := some (newTrapframe 1 entry gp), caps := caps, homeCpu := 0
      runningCpu := some 0 }
  { m.setAgent 1 a with
    current := update m.current 0 (some 1)
    ctl := fun h => if h = 0 then .user else if h.val < cfg.online then .loop else .stopped }

/-- What a kernel image starts. -/
structure Image where
  services : List Service
  entry : Nat
  gp : Nat
  caps : UInt32

/-- The machine when the first agent starts. -/
def boot (cfg : Config) (image : Image) (boxes : Fin maxAgents → Msgbox) : Machine :=
  schedulerRunFirst cfg (image.services.foldl agentStartService (agentInit boxes)) image.entry
    image.gp image.caps

/-- The machine after a list of events. -/
abbrev Machine.run (cfg : Config) (m : Machine) (es : List Event) : Machine :=
  Runs.run (Machine.step cfg) m es

end OpenAgentOS
