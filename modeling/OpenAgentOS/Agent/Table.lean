import Mathlib.Data.Fintype.Basic
import OpenAgentOS.Ipc.Msgbox
import OpenAgentOS.Vm.AgentMemory

/-!
# The agent table (kernel/agent.c, elfload.c, quota.c)

A slot of the table is used again when its agent has ended. The functions below
are the system calls that work on the table, under the names of the source. What
they read from user memory, and whether the memory of a new agent could be set
up, are arguments: neither depends on the table.

- `Agent`, `Kernel`: the table, and the message counters of quota.c.
- `agentCreate`, `agentLoadFromPath`: both choose a slot with `agentAllocId` and
  build a trapframe there. An attempt that fails late leaves that trapframe
  behind.
- `agentSend`, `agentRecv`, `agentCompactInbox`: messages.
- `agentDestroy`, `agentExit`: the two ends of an agent.
-/

namespace OpenAgentOS

/-! ## Trapframes -/

/-- `struct trapframe`, the registers by their groups. -/
structure TrapFrame where
  ra : Nat
  sp : Nat
  gp : Nat
  tp : Nat
  t : Vector Nat 7
  a : Vector Nat 8
  s : Vector Nat 12
  sepc : Nat
  sstatus : Nat
  deriving DecidableEq

/-- `SSTATUS_SPIE | SSTATUS_SUM`. -/
abbrev userSstatus : Nat := 1 <<< 5 ||| 1 <<< 18

/-- The stack pointer of a new agent (agent.c:87, elfload.c:167): the top of the
stack of its slot, below a reserve of 256 bytes. -/
def userSp (id : Fin maxAgents) : Nat :=
  userStackBase + id * userStackSlot + pageSize + agentStackSize - 256

/-- The trapframe of a new agent (agent_arch.c:7, elfload.c:178). -/
def newTrapframe (id : Fin maxAgents) (entry gp : Nat) : TrapFrame where
  ra := 0
  sp := userSp id
  gp := gp
  tp := 0
  t := Vector.replicate 7 0
  a := Vector.replicate 8 0
  s := Vector.replicate 12 0
  sepc := entry
  sstatus := userSstatus

/-- A system call returns: `sepc` behind the `ecall`, the result in `a0`. -/
def TrapFrame.returning (tf : TrapFrame) (ret : Int) : TrapFrame :=
  { tf with sepc := (tf.sepc + 4) % 2 ^ 64, a := tf.a.set 0 (ret % 2 ^ 64).toNat }

/-! ## The table -/

/-- `SMP_MAX_HARTS`. -/
abbrev maxHarts : Nat := 4

/-- `QUOTA_IPC_MAX`. -/
abbrev quotaIpcMax : Nat := 16

/-- `enum agent_state`. -/
inductive AgentState where
  | unused
  | created
  | runnable
  | running
  | waiting
  | zombie
  deriving DecidableEq

/-- The fields of `struct agent` that scheduling and messages depend on. A
`running_cpu` of -1 is `none`, and `tf` is the trapframe behind the pointer. -/
structure Agent where
  state : AgentState
  tf : Option TrapFrame
  caps : UInt32
  inbox : Msgbox
  homeCpu : Fin maxHarts
  runningCpu : Option (Fin maxHarts)

/-- How the kernel was built and how many harts came up. -/
structure Config where
  online : Nat
  quota : Bool
  online_pos : 0 < online
  online_le : online ≤ maxHarts

/-- `id % smp_online_count()`. -/
def Config.home (cfg : Config) (id : Fin maxAgents) : Fin maxHarts :=
  ⟨id % cfg.online, (Nat.mod_lt _ cfg.online_pos).trans_le cfg.online_le⟩

/-- `agents` and `quota_ipc_count`. -/
structure Kernel where
  agents : Fin maxAgents → Agent
  ipcCount : Fin maxAgents → Nat

/-- Replace one slot. -/
def Kernel.setAgent (k : Kernel) (i : Fin maxAgents) (a : Agent) : Kernel :=
  { k with agents := Function.update k.agents i a }

@[simp] theorem Kernel.setAgent_agents (k : Kernel) (i : Fin maxAgents) (a : Agent) :
    (k.setAgent i a).agents = Function.update k.agents i a := rfl

@[simp] theorem Kernel.setAgent_ipcCount (k : Kernel) (i : Fin maxAgents) (a : Agent) :
    (k.setAgent i a).ipcCount = k.ipcCount := rfl

/-- `agent_has_cap`. -/
def Agent.hasCap (a : Agent) (cap : UInt32) : Bool := a.caps &&& cap != 0

/-- `agent_get` (agent.c:61): only slots that were never used are refused. -/
def agentGet (k : Kernel) (id : Int) : Option (Fin maxAgents) :=
  if h : 0 ≤ id ∧ id < maxAgents then
    let i : Fin maxAgents := ⟨id.toNat, by omega⟩
    if (k.agents i).state = .unused then none else some i
  else none

/-- The slot is free for a new agent. -/
def Agent.free (a : Agent) : Bool := a.state == .unused || a.state == .zombie

/-- `agent_alloc_id` (agent.c:53): the first free slot, slot 0 excepted. -/
def agentAllocId (k : Kernel) : Option (Fin maxAgents) :=
  (List.finRange maxAgents).find? fun i => i != 0 && (k.agents i).free

/-! ## Creating agents -/

/-- How far an attempt to create an agent gets.

- `refused`: an argument or the file was rejected before a slot was chosen.
- `noFrame`: the slot was chosen, and memory ran out before the trapframe.
- `failed`: there is a trapframe with the given `sepc`, and a later step failed
  (the ELF file or the name).
- `done`: nothing failed. -/
inductive Spawn where
  | refused (rc : Int)
  | noFrame (rc : Int)
  | failed (rc : Int) (sepc : Nat)
  | done (entry : Nat)
  deriving DecidableEq

/-- What both ways to create an agent have in common: permission, the choice of
the slot, and the slot afterwards, as `noFrame`, `failed` and `created` give it.
The result is the error code or the slot. -/
def spawnWith (k : Kernel) (cur : Fin maxAgents) (outcome : Spawn)
    (noFrame : Agent → Agent) (failed created : Fin maxAgents → Nat → Agent → Agent) :
    Except Int (Fin maxAgents) × Kernel :=
  if !(k.agents cur).hasCap capSpawn then (.error eperm, k)
  else
    match outcome, agentAllocId k with
    | .refused rc, _ => (.error rc, k)
    | _, none => (.error enospc, k)
    | .noFrame rc, some i => (.error rc, k.setAgent i (noFrame (k.agents i)))
    | .failed rc sepc, some i => (.error rc, k.setAgent i (failed i sepc (k.agents i)))
    | .done entry, some i => (.ok i, k.setAgent i (created i entry (k.agents i)))

/-- A trapframe that a failed attempt leaves behind. -/
def Agent.reframe (gp : Nat) (i : Fin maxAgents) (sepc : Nat) (a : Agent) : Agent :=
  { a with tf := some (newTrapframe i sepc gp) }

/-- The slot after `agent_create`. -/
def Agent.recreate (cfg : Config) (gp : Nat) (caps : UInt32) (i : Fin maxAgents) (entry : Nat)
    (a : Agent) : Agent where
  state := .runnable
  tf := some (newTrapframe i entry gp)
  caps := caps
  inbox := msgboxInit a.inbox
  homeCpu := cfg.home i
  runningCpu := none

/-- The slot after `agent_load_from_path`, which sets neither `home_cpu` nor
`running_cpu`. -/
def Agent.reload (gp : Nat) (caps : UInt32) (i : Fin maxAgents) (entry : Nat) (a : Agent) : Agent :=
  { a with
    state := .runnable
    tf := some (newTrapframe i entry gp)
    caps := caps
    inbox := msgboxInit a.inbox }

/-- `agent_create` (agent.c:130) up to `sched_notify_runnable`. Without memory the
slot has no trapframe at all. -/
def agentCreate (cfg : Config) (k : Kernel) (cur : Fin maxAgents) (gp : Nat) (caps : UInt32)
    (outcome : Spawn) : Except Int (Fin maxAgents) × Kernel :=
  spawnWith k cur outcome (fun a => { a with tf := none }) (Agent.reframe gp)
    (Agent.recreate cfg gp caps)

/-- `agent_load_from_path` (elfload.c:197) up to `sched_notify_runnable`. Without
memory the old trapframe stays. -/
def agentLoadFromPath (k : Kernel) (cur : Fin maxAgents) (gp : Nat) (caps : UInt32)
    (outcome : Spawn) : Except Int (Fin maxAgents) × Kernel :=
  spawnWith k cur outcome id (Agent.reframe gp) (Agent.reload gp caps)

/-! ## Messages -/

/-- A string argument of a system call, as `user_strnlen` and `copy_from_user` see
it. -/
inductive UserText where
  | null
  | fault
  | text (s : List UInt8)
  deriving DecidableEq

/-- `quota_ipc_allow` (quota.c:56); the stub allows everything. -/
def quotaIpcAllow (cfg : Config) (k : Kernel) (i : Fin maxAgents) : Int :=
  if cfg.quota ∧ quotaIpcMax ≤ k.ipcCount i then enospc else 0

/-- `quota_ipc_charge` (quota.c:66). -/
def quotaIpcCharge (cfg : Config) (k : Kernel) (i : Fin maxAgents) : Kernel :=
  if cfg.quota then { k with ipcCount := Function.update k.ipcCount i (k.ipcCount i + 1) } else k

/-- Push into the inbox of a slot: the error code, or the table. -/
def pushInto (k : Kernel) (target : Fin maxAgents) (msg : AgentMsg) : Except Int Kernel :=
  let out := msgboxPush (k.agents target).inbox msg
  if out.1 ≠ 0 then .error out.1
  else .ok (k.setAgent target { k.agents target with inbox := out.2 })

/-- `agent_send` (agent.c:176) up to `sched_notify_runnable`: the error code, or
the target and the table. -/
def agentSend (cfg : Config) (k : Kernel) (cur : Fin maxAgents) (dst type : Int)
    (payload : UserText) : Except Int (Fin maxAgents × Kernel) :=
  if !(k.agents cur).hasCap capSend then .error eperm
  else
    match payload, agentGet k dst with
    | .null, _ => .error einval
    | _, none => .error enoent
    | payload, some target =>
      if quotaIpcAllow cfg k cur ≠ 0 then .error (quotaIpcAllow cfg k cur)
      else
        match payload with
        | .null | .fault => .error efault
        | .text s =>
          let s := s.take (msgPayloadSize - 1)
          if s = [] then .error einval
          else do
            let k ← pushInto k target (.ofText cur type s)
            return (target, quotaIpcCharge cfg k cur)

/-- `agent_send_kernel_nocheck` (agent.c:231) up to `sched_notify_runnable`. -/
def agentSendKernelNocheck (k : Kernel) (cur : Fin maxAgents) (dst type : Int)
    (payload : List UInt8) : Except Int (Fin maxAgents × Kernel) :=
  if !(k.agents cur).hasCap capSend then .error eperm
  else
    match agentGet k dst with
    | none => .error enoent
    | some target =>
      let s := payload.take (msgPayloadSize - 1)
      if s = [] then .error einval
      else do
        let k ← pushInto k target (.ofText cur type s)
        return (target, k)

/-- `agent_send_kernel` (agent.c:219). -/
def agentSendKernel (cfg : Config) (k : Kernel) (cur : Fin maxAgents) (dst type : Int)
    (payload : List UInt8) : Except Int (Fin maxAgents × Kernel) :=
  if quotaIpcAllow cfg k cur ≠ 0 then .error (quotaIpcAllow cfg k cur)
  else do
    let (target, k) ← agentSendKernelNocheck k cur dst type payload
    return (target, quotaIpcCharge cfg k cur)

/-- The first half of `agent_recv` (agent.c:266): the message that was popped. -/
def agentRecv (k : Kernel) (cur : Fin maxAgents) (null : Bool) : Except Int (AgentMsg × Kernel) :=
  let a := k.agents cur
  if !a.hasCap capRecv then .error eperm
  else if null then .error einval
  else if msgboxEmpty a.inbox then .error eagain
  else
    match msgboxPop a.inbox with
    | (.error _, _) => .error eagain
    | (.ok msg, box) => .ok (msg, k.setAgent cur { a with inbox := box })

/-- The end of `agent_recv` when the message could not be copied out: it is pushed
again, and the result of that is ignored. -/
def agentRecvUndo (k : Kernel) (cur : Fin maxAgents) (msg : AgentMsg) : Kernel :=
  k.setAgent cur { k.agents cur with inbox := (msgboxPush (k.agents cur).inbox msg).2 }

/-- `agent_compact_inbox` (agent.c:290). -/
def agentCompactInbox (k : Kernel) (cur : Fin maxAgents) (keep : Int) : Int × Kernel :=
  let a := k.agents cur
  if !a.hasCap capRecv then (eperm, k)
  else
    let out := msgboxCompact a.inbox keep
    (out.1, k.setAgent cur { a with inbox := out.2 })

/-! ## Ends -/

/-- The slot after `agent_destroy`. -/
def Agent.destroyed (a : Agent) : Agent := { a with state := .zombie }

/-- The slot after `agent_exit`. -/
def Agent.exited (a : Agent) : Agent := { a with state := .zombie, runningCpu := none }

/-- `agent_destroy` (agent.c:302). Any agent may call it for any slot. -/
def agentDestroy (k : Kernel) (id : Int) : Int × Kernel :=
  match agentGet k id with
  | none => (enoent, k)
  | some i => (0, k.setAgent i (k.agents i).destroyed)

/-- `agent_exit` (agent.c:311). -/
def agentExit (k : Kernel) (cur : Fin maxAgents) : Kernel :=
  k.setAgent cur (k.agents cur).exited

end OpenAgentOS
