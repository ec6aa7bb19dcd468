import OpenAgentOS.Agent.Machine

/-!
# What a step of the machine can do

Each step is taken apart once here, and every invariant of the machine is then
proved by looking at these cases.

- `Change`: what a system call does to the agent table. It touches one slot.
- `Moves`: what an event does to the machine (`step_moves`).
- Field lemmas for the parts of a step: which of them keep the state, the
  trapframe, the home hart, and so on.
-/

namespace OpenAgentOS

open Function

/-! ## Fields -/

namespace Machine

variable (m : Machine) (h : Fin maxHarts) (i j : Fin maxAgents) (tf : TrapFrame)

@[simp] theorem setAgent_agents (a : Agent) :
    (m.setAgent i a).agents = update m.agents i a := rfl

@[simp] theorem setAgent_current (a : Agent) : (m.setAgent i a).current = m.current := rfl

@[simp] theorem setAgent_rq (a : Agent) : (m.setAgent i a).rq = m.rq := rfl

@[simp] theorem setAgent_ctl (a : Agent) : (m.setAgent i a).ctl = m.ctl := rfl

@[simp] theorem goto_toKernel (c : Ctl) : (m.goto h c).toKernel = m.toKernel := rfl

@[simp] theorem goto_current (c : Ctl) : (m.goto h c).current = m.current := rfl

@[simp] theorem goto_rq (c : Ctl) : (m.goto h c).rq = m.rq := rfl

@[simp] theorem goto_ctl (c : Ctl) : (m.goto h c).ctl = update m.ctl h c := rfl

@[simp] theorem after_toKernel (k : Kernel) (c : Ctl) : (m.after h k c).toKernel = k := rfl

@[simp] theorem after_current (k : Kernel) (c : Ctl) : (m.after h k c).current = m.current := rfl

@[simp] theorem after_rq (k : Kernel) (c : Ctl) : (m.after h k c).rq = m.rq := rfl

@[simp] theorem after_ctl (k : Kernel) (c : Ctl) :
    (m.after h k c).ctl = update m.ctl h c := rfl

@[simp] theorem rqAdd_toKernel : (m.rqAdd i).toKernel = m.toKernel := by
  unfold rqAdd
  dsimp only
  split_ifs <;> rfl

@[simp] theorem rqAdd_current : (m.rqAdd i).current = m.current := by
  unfold rqAdd
  dsimp only
  split_ifs <;> rfl

@[simp] theorem rqAdd_ctl : (m.rqAdd i).ctl = m.ctl := by
  unfold rqAdd
  dsimp only
  split_ifs <;> rfl

/-- Only the queue of the home hart grows, and only by the agent itself. -/
theorem mem_rqAdd {cpu : Fin maxHarts} (hj : j ∈ (m.rqAdd i).rq cpu) :
    j ∈ m.rq cpu ∨ (j = i ∧ cpu = (m.agents i).homeCpu) := by
  unfold rqAdd at hj
  dsimp only at hj
  split_ifs at hj with hin hfull
  · exact .inl hj
  · exact .inl hj
  · by_cases hcpu : cpu = (m.agents i).homeCpu
    · subst hcpu
      dsimp only at hj
      rw [update_self, List.mem_append, List.mem_singleton] at hj
      exact hj.imp_right fun h => ⟨h, rfl⟩
    · dsimp only at hj
      rw [update_of_ne hcpu] at hj
      exact .inl hj

@[simp] theorem makeRunnable_agents :
    (m.makeRunnable i).agents
      = update m.agents i { m.agents i with state := .runnable, runningCpu := none } := by
  rw [makeRunnable, rqAdd_toKernel, setAgent_agents]

@[simp] theorem makeRunnable_current : (m.makeRunnable i).current = m.current := by
  rw [makeRunnable, rqAdd_current, setAgent_current]

@[simp] theorem makeRunnable_ctl : (m.makeRunnable i).ctl = m.ctl := by
  rw [makeRunnable, rqAdd_ctl, setAgent_ctl]

theorem mem_makeRunnable {cpu : Fin maxHarts} (hj : j ∈ (m.makeRunnable i).rq cpu) :
    j ∈ m.rq cpu ∨ (j = i ∧ cpu = (m.agents i).homeCpu) := by
  have hmem := mem_rqAdd _ i j hj
  rw [setAgent_rq, setAgent_agents, update_self] at hmem
  exact hmem

/-- Storing registers changes the trapframe if there is one. -/
theorem trapframeStore_eq :
    m.trapframeStore i tf
      = m.setAgent i { m.agents i with tf := (m.agents i).tf.map fun _ => tf } := by
  unfold trapframeStore
  cases htf : (m.agents i).tf with
  | some old => rfl
  | none =>
    have hsame : { m.agents i with tf := none } = m.agents i := by
      rw [← htf]
    simp only [Option.isSome_none, Bool.false_eq_true, if_false, Option.map_none, hsame, setAgent,
      Kernel.setAgent, update_eq_self]

@[simp] theorem trapframeStore_current : (m.trapframeStore i tf).current = m.current := by
  rw [trapframeStore_eq, setAgent_current]

@[simp] theorem trapframeStore_rq : (m.trapframeStore i tf).rq = m.rq := by
  rw [trapframeStore_eq, setAgent_rq]

@[simp] theorem trapframeStore_ctl : (m.trapframeStore i tf).ctl = m.ctl := by
  rw [trapframeStore_eq, setAgent_ctl]

@[simp] theorem trapframeStore_ipcCount : (m.trapframeStore i tf).ipcCount = m.ipcCount := by
  rw [trapframeStore_eq]
  rfl

theorem trapframeStore_of_ne (hne : j ≠ i) : (m.trapframeStore i tf).agents j = m.agents j := by
  rw [trapframeStore_eq, setAgent_agents, update_of_ne hne]

theorem trapframeStore_self :
    (m.trapframeStore i tf).agents i
      = { m.agents i with tf := (m.agents i).tf.map fun _ => tf } := by
  rw [trapframeStore_eq, setAgent_agents, update_self]

@[simp] theorem trapframeStore_state :
    ((m.trapframeStore i tf).agents j).state = (m.agents j).state := by
  by_cases hj : j = i
  · rw [hj, trapframeStore_self]
  · rw [trapframeStore_of_ne m i j tf hj]

@[simp] theorem trapframeStore_homeCpu :
    ((m.trapframeStore i tf).agents j).homeCpu = (m.agents j).homeCpu := by
  by_cases hj : j = i
  · rw [hj, trapframeStore_self]
  · rw [trapframeStore_of_ne m i j tf hj]

@[simp] theorem trapframeStore_inbox :
    ((m.trapframeStore i tf).agents j).inbox = (m.agents j).inbox := by
  by_cases hj : j = i
  · rw [hj, trapframeStore_self]
  · rw [trapframeStore_of_ne m i j tf hj]

/-! ## The head of a round -/

/-- The current agent of a hart that enters `schedule_trap`. -/
def parked (a : Agent) (tf : TrapFrame) : Agent :=
  { a with
    tf := a.tf.map fun _ => tf
    state := if a.state = .running then .runnable else a.state
    runningCpu := if a.state = .running then none else a.runningCpu }

@[simp] theorem park_current : (m.park h tf).current = m.current := by
  unfold park
  cases m.current h with
  | none => rfl
  | some i =>
    dsimp only
    split_ifs <;> simp

@[simp] theorem park_ctl : (m.park h tf).ctl = m.ctl := by
  unfold park
  cases m.current h with
  | none => rfl
  | some i =>
    dsimp only
    split_ifs <;> simp

/-- Parking concerns the current agent only. -/
theorem park_agents :
    (m.park h tf).agents j = if m.current h = some j then parked (m.agents j) tf else m.agents j := by
  unfold park
  cases hcur : m.current h with
  | none => rfl
  | some i =>
    dsimp only
    by_cases hij : i = j
    · subst hij
      rw [if_pos rfl, parked, trapframeStore_state]
      split_ifs
      · rw [makeRunnable_agents, update_self, trapframeStore_self]
      · rw [trapframeStore_self]
    · have hji : j ≠ i := fun heq => hij heq.symm
      rw [if_neg (fun heq => hij (Option.some.inj heq))]
      split_ifs
      · rw [makeRunnable_agents, update_of_ne hji, trapframeStore_of_ne m i j tf hji]
      · rw [trapframeStore_of_ne m i j tf hji]

theorem park_of_ne (hj : m.current h ≠ some j) : (m.park h tf).agents j = m.agents j := by
  rw [park_agents, if_neg hj]

@[simp] theorem park_state_eq_zombie :
    ((m.park h tf).agents j).state = .zombie ↔ (m.agents j).state = .zombie := by
  rw [park_agents]
  split_ifs
  · unfold parked
    split_ifs with hrun
    · simp [hrun]
    · rfl
  · rfl

@[simp] theorem park_homeCpu : ((m.park h tf).agents j).homeCpu = (m.agents j).homeCpu := by
  rw [park_agents]
  split_ifs <;> rfl

@[simp] theorem park_inbox : ((m.park h tf).agents j).inbox = (m.agents j).inbox := by
  rw [park_agents]
  split_ifs <;> rfl

/-- Parking queues the current agent at most, on its home hart. -/
theorem mem_park {cpu : Fin maxHarts} (hj : j ∈ (m.park h tf).rq cpu) :
    j ∈ m.rq cpu ∨ cpu = (m.agents j).homeCpu := by
  unfold park at hj
  cases hcur : m.current h with
  | none =>
    rw [hcur] at hj
    exact .inl hj
  | some i =>
    rw [hcur] at hj
    dsimp only at hj
    split_ifs at hj
    · rcases mem_makeRunnable _ i j hj with hmem | ⟨rfl, hcpu⟩
      · rw [trapframeStore_rq] at hmem
        exact .inl hmem
      · rw [trapframeStore_homeCpu] at hcpu
        exact .inr hcpu
    · rw [trapframeStore_rq] at hj
      exact .inl hj

/-! ## Rounds -/

@[simp] theorem dispatch_agents :
    (m.dispatch h i).agents
      = update m.agents i { m.agents i with state := .running, runningCpu := some h } :=
  rfl

@[simp] theorem dispatch_current :
    (m.dispatch h i).current = update m.current h (some i) := rfl

@[simp] theorem dispatch_ctl :
    (m.dispatch h i).ctl
      = update m.ctl h (if (m.agents i).tf.isSome then .user else .stopped) := by
  simp [dispatch, rqRemove]

theorem mem_dispatch {cpu : Fin maxHarts} (hj : j ∈ (m.dispatch h i).rq cpu) : j ∈ m.rq cpu := by
  simp only [dispatch, rqRemove, goto_rq, setAgent_rq] at hj
  by_cases hcpu : cpu = (m.agents i).homeCpu
  · subst hcpu
    simp only [setAgent_agents, update_self] at hj
    exact List.mem_of_mem_erase hj
  · rw [update_of_ne (by simpa using hcpu)] at hj
    exact hj

/-- What `pick_next` did to the state of the agent does not matter. -/
theorem dispatch_setAgent :
    (m.setAgent i { m.agents i with state := .runnable, runningCpu := none }).dispatch h i
      = m.dispatch h i := by
  simp [dispatch, rqRemove, setAgent, Kernel.setAgent, goto]

/-- An agent that a hart may dispatch. -/
structure Pickable : Prop where
  live : m.agentHasInbox i = true
  home : (m.agents i).homeCpu = h ∨ i ∈ m.rq h

/-- **A round** either dispatches an agent, or ends without one. -/
theorem schedRound_cases (cfg : Config) (idle : Ctl) :
    (∃ i r, m.Pickable h i ∧ m.schedRound h cfg idle
      = ({ m with rrNext := r }.dispatch h i, (m.agents i).tf.map fun tf => (i, tf))) ∨
    ∃ next, (next = .stopped ∨ next = idle) ∧
      m.schedRound h cfg idle = (m.goto h next, none) := by
  unfold schedRound pickNext
  cases hbox : m.pickFromInboxes h with
  | some i =>
    have hi := List.find?_some hbox
    simp only [Bool.and_eq_true, beq_iff_eq] at hi
    refine .inl ⟨i, m.rrNext, ⟨hi.1.1, .inl hi.1.2⟩, ?_⟩
    dsimp only
    rw [dispatch_setAgent, setAgent_agents, update_self]
  | none =>
    dsimp only
    cases hrq : m.pickFromRunqueues h with
    | some i =>
      have hi := List.find?_some hrq
      simp only [Bool.and_eq_true, beq_iff_eq] at hi
      refine .inl ⟨i, m.rrNext, ⟨?_, .inr (List.mem_of_find?_eq_some hrq)⟩, rfl⟩
      rw [agentHasInbox, hi.1]
      rfl
    | none =>
      dsimp only
      cases hrr : m.pickRoundRobin h with
      | some i =>
        have hi := List.find?_some hrr
        simp only [Bool.and_eq_true, beq_iff_eq, agentSelectable] at hi
        exact .inl ⟨i, _, ⟨hi.1.1.1, .inl hi.1.2⟩, rfl⟩
      | none =>
        refine .inr ⟨_, ?_, rfl⟩
        split_ifs
        · exact .inl rfl
        · exact .inr rfl

end Machine

/-! ## System calls -/

/-- The attempt gets as far as choosing a slot. -/
def Spawn.choosesSlot : Spawn → Bool
  | refused _ => false
  | noFrame _ | failed _ _ | done _ => true

/-- Nothing fails. -/
def Spawn.succeeds : Spawn → Bool
  | done _ => true
  | refused _ | noFrame _ | failed _ _ => false

/-- The slot an attempt to create an agent works on. -/
def spawnSlot (k : Kernel) (cur : Fin maxAgents) (outcome : Spawn) : Option (Fin maxAgents) :=
  if (k.agents cur).hasCap capSpawn && outcome.choosesSlot then agentAllocId k else none

/-- The slot of a new agent. -/
def spawnedSlot (k : Kernel) (cur : Fin maxAgents) (outcome : Spawn) : Option (Fin maxAgents) :=
  if outcome.succeeds then spawnSlot k cur outcome else none

namespace Call

/-- The slot that `agent_create` or `agent_load_from_path` works on, whether it
succeeds or not. -/
def attemptSlot (k : Kernel) (cur : Fin maxAgents) : Call → Option (Fin maxAgents)
  | create _ _ outcome | load _ _ outcome => spawnSlot k cur outcome
  | _ => none

/-- The slot of an agent that `agent_create` made. -/
def createSlot (k : Kernel) (cur : Fin maxAgents) : Call → Option (Fin maxAgents)
  | create _ _ outcome => spawnedSlot k cur outcome
  | _ => none

/-- The slot of an agent that `agent_load_from_path` made. -/
def loadSlot (k : Kernel) (cur : Fin maxAgents) : Call → Option (Fin maxAgents)
  | load _ _ outcome => spawnedSlot k cur outcome
  | _ => none

/-- The agent to which the call sends a message, or starts to send some. -/
def addressee (k : Kernel) : Call → Option (Fin maxAgents)
  | send dst _ _ => agentGet k dst
  | quotaNotify _ => agentGet k 1
  | quotaBurn _ => agentGet k displayAgentId
  | _ => none

end Call

/-- What a system call of agent `cur` makes of slot `i`, and what it means. -/
inductive Change (cfg : Config) (k : Kernel) (cur : Fin maxAgents) (c : Call) (i : Fin maxAgents) :
    Agent → Note → Prop
  | same : Change cfg k cur c i (k.agents i) .quiet
  | unframe (hslot : c.attemptSlot k cur = some i) :
    Change cfg k cur c i { k.agents i with tf := none } .quiet
  | reframe (gp sepc : Nat) (hslot : c.attemptSlot k cur = some i) :
    Change cfg k cur c i ((k.agents i).reframe gp i sepc) .quiet
  | recreate (gp entry : Nat) (caps : UInt32) (hslot : c.createSlot k cur = some i) :
    Change cfg k cur c i ((k.agents i).recreate cfg gp caps i entry) (.recreated i)
  | reload (gp entry : Nat) (caps : UInt32) (hslot : c.loadSlot k cur = some i) :
    Change cfg k cur c i ((k.agents i).reload gp caps i entry) (.recreated i)
  | destroy : Change cfg k cur c i (k.agents i).destroyed (.ended i)
  | push (msg : AgentMsg) (box : Msgbox) (hto : c.addressee k = some i)
    (hpush : msgboxPush (k.agents i).inbox msg = (0, box)) :
    Change cfg k cur c i { k.agents i with inbox := box } (.accepted i msg)
  | pop (msg : AgentMsg) (box : Msgbox) (fault : Bool) (hi : i = cur)
    (hpop : msgboxPop (k.agents i).inbox = (.ok msg, box)) :
    Change cfg k cur c i { k.agents i with inbox := box } (.popped i msg fault)
  | compact (keep : Int) (hi : i = cur) :
    Change cfg k cur c i
      { k.agents i with inbox := (msgboxCompact (k.agents i).inbox keep).2 } (.compacted i keep)

namespace Ctl

/-- The hart is between the dispatch of its agent and `schedule_trap`. -/
def serving : Ctl → Bool
  | user | undo _ _ | burn _ _ | ret _ => true
  | notify _ next => next.serving
  | sched _ | loop | stopped => false

/-- The agents that the hart is about to make runnable. -/
def waking : Ctl → List (Fin maxAgents)
  | notify target next => target :: next.waking
  | _ => []

/-- The message that the hart is about to push back. -/
def undoing : Ctl → Option AgentMsg
  | undo msg _ => some msg
  | notify _ next => next.undoing
  | _ => none

end Ctl

/-- A table that differs in one slot, and a hart that goes on serving its agent,
wakes no zombie, and gives back only what it has popped. -/
structure CallEffect (cfg : Config) (k : Kernel) (cur : Fin maxAgents) (c : Call) (note : Note)
    (out : Kernel × Ctl) : Prop where
  change : ∃ i a, Change cfg k cur c i a note ∧ out.1.agents = update k.agents i a
  serving : out.2.serving = true
  waking : ∀ t ∈ out.2.waking, (out.1.agents t).state ≠ .zombie
  undoing : ∀ msg, out.2.undoing = some msg ↔ note = .popped cur msg true

section Calls

variable (cfg : Config) (k : Kernel) (cur : Fin maxAgents) (tf : TrapFrame)

theorem waking_schedNotifyRunnable {k : Kernel} {target : Fin maxAgents} {next : Ctl}
    (hnext : next.waking = []) :
    ∀ t ∈ (schedNotifyRunnable k target next).waking, (k.agents t).state ≠ .zombie := by
  intro t ht
  unfold schedNotifyRunnable at ht
  split_ifs at ht with hz
  · rw [hnext] at ht
    cases ht
  · rw [Ctl.waking, hnext, List.mem_singleton] at ht
    rw [ht]
    exact hz

theorem serving_schedNotifyRunnable (k : Kernel) (target : Fin maxAgents) {next : Ctl}
    (hnext : next.serving = true) : (schedNotifyRunnable k target next).serving = true := by
  unfold schedNotifyRunnable
  split_ifs
  · exact hnext
  · rw [Ctl.serving, hnext]

theorem undoing_schedNotifyRunnable (k : Kernel) (target : Fin maxAgents) {next : Ctl}
    (hnext : next.undoing = none) : (schedNotifyRunnable k target next).undoing = none := by
  unfold schedNotifyRunnable
  split_ifs
  · exact hnext
  · exact hnext

/-- The call leaves the table alone. -/
theorem CallEffect.same {c : Call} {next : Ctl} (hserving : next.serving = true)
    (hwaking : next.waking = []) (hundoing : next.undoing = none) :
    CallEffect cfg k cur c .quiet (k, next) :=
  ⟨⟨cur, _, .same, (update_eq_self _ _).symm⟩, hserving, by simp [hwaking],
    by simp [hundoing]⟩

/-- The call changes a slot and returns. -/
theorem CallEffect.ret {c : Call} {i : Fin maxAgents} {a : Agent} {note : Note}
    (h : Change cfg k cur c i a note) (hnote : ∀ msg, note ≠ .popped cur msg true)
    (tf : TrapFrame) : CallEffect cfg k cur c note (k.setAgent i a, .ret tf) :=
  ⟨⟨i, a, h, rfl⟩, rfl, by simp [Ctl.waking], by simp [Ctl.undoing, hnote]⟩

/-- Either way to create an agent. -/
theorem callEffect_spawn {c : Call} {outcome : Spawn} {noFrame : Agent → Agent}
    {failed created : Fin maxAgents → Nat → Agent → Agent}
    (hno : ∀ i, spawnSlot k cur outcome = some i → Change cfg k cur c i (noFrame (k.agents i)) .quiet)
    (hfailed : ∀ i sepc, spawnSlot k cur outcome = some i →
      Change cfg k cur c i (failed i sepc (k.agents i)) .quiet)
    (hcreated : ∀ i entry, spawnedSlot k cur outcome = some i →
      Change cfg k cur c i (created i entry (k.agents i)) (.recreated i)) :
    CallEffect cfg k cur c (spawnNote (spawnWith k cur outcome noFrame failed created))
      (spawnEnd tf (spawnWith k cur outcome noFrame failed created)) := by
  unfold spawnWith
  by_cases hcap : (k.agents cur).hasCap capSpawn = true
  · have hslot (hreach : outcome.choosesSlot = true) : spawnSlot k cur outcome = agentAllocId k := by
      rw [spawnSlot, hcap, hreach]
      rfl
    rw [if_neg (by rw [hcap]; exact Bool.false_ne_true)]
    cases halloc : agentAllocId k with
    | none => cases outcome <;> exact .same cfg k cur rfl rfl rfl
    | some i =>
      cases outcome with
      | refused rc => exact .same cfg k cur rfl rfl rfl
      | noFrame rc => exact .ret cfg k cur (hno i ((hslot rfl).trans halloc)) nofun _
      | failed rc sepc => exact .ret cfg k cur (hfailed i sepc ((hslot rfl).trans halloc)) nofun _
      | done entry =>
        have hnew : spawnedSlot k cur (.done entry) = some i := (hslot rfl).trans halloc
        refine ⟨⟨i, _, hcreated i entry hnew, rfl⟩, serving_schedNotifyRunnable _ _ rfl,
          waking_schedNotifyRunnable rfl, fun msg => iff_of_false (fun h => ?_) nofun⟩
        cases (undoing_schedNotifyRunnable _ i (rfl : (Ctl.ret _).undoing = none)).symm.trans h
  · rw [if_pos (by rw [Bool.eq_false_iff.mpr hcap]; rfl)]
    exact .same cfg k cur rfl rfl rfl

/-- A message that was pushed. -/
theorem pushInto_ok {k k' : Kernel} {target : Fin maxAgents} {msg : AgentMsg}
    (h : pushInto k target msg = .ok k') :
    ∃ box, msgboxPush (k.agents target).inbox msg = (0, box) ∧
      k' = k.setAgent target { k.agents target with inbox := box } := by
  unfold pushInto at h
  dsimp only at h
  split_ifs at h with hrc
  rw [not_not] at hrc
  rw [← Except.ok.inj h]
  exact ⟨_, Prod.ext hrc rfl, rfl⟩

/-- `agent_get` does not find unused slots. -/
theorem agentGet_used {k : Kernel} {id : Int} {i : Fin maxAgents} (h : agentGet k id = some i) :
    (k.agents i).state ≠ .unused := by
  unfold agentGet at h
  dsimp only at h
  split_ifs at h with hrange hunused
  rw [← Option.some.inj h]
  exact hunused

@[simp] theorem quotaIpcCharge_agents (k : Kernel) (i : Fin maxAgents) :
    (quotaIpcCharge cfg k i).agents = k.agents := by
  unfold quotaIpcCharge
  split_ifs <;> rfl

/-- **Sending**: what it takes to be accepted. -/
theorem agentSend_ok {k' : Kernel} {dst type : Int} {payload : UserText} {target : Fin maxAgents}
    (h : agentSend cfg k cur dst type payload = .ok (target, k')) :
    ∃ s, payload = .text s ∧ agentGet k dst = some target ∧ quotaIpcAllow cfg k cur = 0 ∧
      s.take (msgPayloadSize - 1) ≠ [] ∧
      ∃ k₁, pushInto k target (.ofText cur type (s.take (msgPayloadSize - 1))) = .ok k₁ ∧
        k' = quotaIpcCharge cfg k₁ cur := by
  unfold agentSend at h
  by_cases hcap : (!(k.agents cur).hasCap capSend) = true
  · rw [if_pos hcap] at h
    cases h
  rw [if_neg hcap] at h
  cases hget : agentGet k dst with
  | none => cases payload <;> (rw [hget] at h; cases h)
  | some i =>
    cases payload with
    | null => cases h
    | fault =>
      rw [hget] at h
      dsimp only at h
      split_ifs at h
    | text s =>
      rw [hget] at h
      dsimp only at h
      split_ifs at h with hquota hempty
      cases hpush : pushInto k i (.ofText cur type (s.take (msgPayloadSize - 1))) with
      | error rc =>
        rw [hpush] at h
        cases h
      | ok k₁ =>
        rw [hpush] at h
        cases h
        exact ⟨s, rfl, rfl, not_not.mp hquota, hempty, k₁, hpush, rfl⟩

theorem agentSendKernelNocheck_ok {k' : Kernel} {dst type : Int} {payload : List UInt8}
    {target : Fin maxAgents} (h : agentSendKernelNocheck k cur dst type payload = .ok (target, k')) :
    agentGet k dst = some target ∧
      pushInto k target (.ofText cur type (payload.take (msgPayloadSize - 1))) = .ok k' := by
  unfold agentSendKernelNocheck at h
  split_ifs at h
  cases hget : agentGet k dst with
  | none =>
    rw [hget] at h
    cases h
  | some i =>
    rw [hget] at h
    dsimp only at h
    split_ifs at h
    cases hpush : pushInto k i (.ofText cur type (payload.take (msgPayloadSize - 1))) with
    | error rc =>
      rw [hpush] at h
      cases h
    | ok k₁ =>
      rw [hpush] at h
      cases h
      exact ⟨rfl, hpush⟩

theorem agentSendKernel_ok {k' : Kernel} {dst type : Int} {payload : List UInt8}
    {target : Fin maxAgents} (h : agentSendKernel cfg k cur dst type payload = .ok (target, k')) :
    agentGet k dst = some target ∧
      ∃ k₁, pushInto k target (.ofText cur type (payload.take (msgPayloadSize - 1))) = .ok k₁ ∧
        k' = quotaIpcCharge cfg k₁ cur := by
  unfold agentSendKernel at h
  split_ifs at h
  cases hsend : agentSendKernelNocheck k cur dst type payload with
  | error rc =>
    rw [hsend] at h
    cases h
  | ok out =>
    rw [hsend] at h
    cases h
    obtain ⟨hget, hpush⟩ := agentSendKernelNocheck_ok k cur hsend
    exact ⟨hget, _, hpush, rfl⟩

/-- The end of any send. -/
theorem callEffect_sendEnd {c : Call} {next : Ctl} (hserving : next.serving = true)
    (hwaking : next.waking = []) (hundoing : next.undoing = none) {msg : AgentMsg}
    {out : Except Int (Fin maxAgents × Kernel)}
    (hout : ∀ target k', out = .ok (target, k') → c.addressee k = some target ∧
      ∃ k₁, pushInto k target msg = .ok k₁ ∧ k'.agents = k₁.agents) :
    CallEffect cfg k cur c (sendNote msg out) (sendEnd k tf next out) := by
  rcases out with rc | ⟨target, k'⟩
  · exact .same cfg k cur rfl rfl rfl
  · obtain ⟨hto, k₁, hpush, hagents⟩ := hout target k' rfl
    obtain ⟨box, hbox, rfl⟩ := pushInto_ok hpush
    refine ⟨⟨target, _, .push msg box hto hbox, hagents⟩,
      serving_schedNotifyRunnable _ _ hserving, waking_schedNotifyRunnable hwaking,
      fun msg => iff_of_false (fun h => ?_) nofun⟩
    cases (undoing_schedNotifyRunnable k' target hundoing).symm.trans h

/-- **A system call** changes one slot. -/
theorem callEffect_run (c : Call) :
    CallEffect cfg k cur c (c.note cfg k cur) (c.run cfg k cur tf) := by
  cases c with
  | create gp caps outcome =>
    exact callEffect_spawn cfg k cur tf (fun i h => .unframe h) (fun i sepc h => .reframe gp sepc h)
      (fun i entry h => .recreate gp entry caps h)
  | load gp caps outcome =>
    exact callEffect_spawn cfg k cur tf (fun i _ => .same) (fun i sepc h => .reframe gp sepc h)
      (fun i entry h => .reload gp entry caps h)
  | destroy id =>
    rw [Call.run, Call.note, agentDestroy]
    cases agentGet k id with
    | none => exact .same cfg k cur rfl rfl rfl
    | some i => exact .ret cfg k cur .destroy nofun _
  | send dst type payload =>
    refine callEffect_sendEnd cfg k cur tf rfl rfl rfl fun target k' h => ?_
    obtain ⟨s, rfl, hget, -, -, k₁, hpush, rfl⟩ := agentSend_ok cfg k cur h
    exact ⟨hget, k₁, hpush, quotaIpcCharge_agents cfg k₁ cur⟩
  | recv null fault =>
    rw [Call.run, Call.note, agentRecv]
    split_ifs
    · exact .same cfg k cur rfl rfl rfl
    · exact .same cfg k cur rfl rfl rfl
    · exact .same cfg k cur rfl rfl rfl
    · rcases hpop : msgboxPop (k.agents cur).inbox with ⟨rc | msg, box⟩
      · exact .same cfg k cur rfl rfl rfl
      · refine ⟨⟨cur, _, .pop msg box fault rfl hpop, rfl⟩, ?_, ?_, fun msg' => ?_⟩
        · cases fault <;> rfl
        · cases fault <;> simp [recvEnd, Ctl.waking]
        · cases fault <;> simp [recvEnd, Ctl.undoing]
  | compact keep =>
    rw [Call.run, Call.note, agentCompactInbox]
    by_cases hcap : (k.agents cur).hasCap capRecv = true
    · rw [if_pos hcap, if_neg (by rw [hcap]; exact Bool.false_ne_true)]
      exact .ret cfg k cur (.compact keep rfl) nofun _
    · rw [if_neg hcap, if_pos (by rw [Bool.eq_false_iff.mpr hcap]; rfl)]
      exact .same cfg k cur rfl rfl rfl
  | quotaBurn count =>
    rw [Call.run, Call.note]
    split_ifs
    · exact .same cfg k cur rfl rfl rfl
    · exact .same cfg k cur rfl rfl rfl
  | quotaNotify text =>
    refine callEffect_sendEnd cfg k cur tf rfl rfl rfl fun target k' h => ?_
    obtain ⟨hget, hpush⟩ := agentSendKernelNocheck_ok k cur h
    exact ⟨hget, k', hpush, rfl⟩
  | other ret => exact .same cfg k cur rfl rfl rfl

/-- A round of `quota_burn_ipc` counts as a call that creates nothing. -/
theorem callEffect_burnRound (count : Nat) :
    CallEffect cfg k cur (.quotaBurn count) (burnNote cfg k cur count)
      (burnRound cfg k cur tf count) := by
  cases count with
  | zero => exact .same cfg k cur rfl rfl rfl
  | succ count =>
    refine callEffect_sendEnd cfg k cur tf rfl rfl rfl fun target k' h => ?_
    obtain ⟨hget, k₁, hpush, rfl⟩ := agentSendKernel_ok cfg k cur h
    exact ⟨hget, k₁, hpush, quotaIpcCharge_agents cfg k₁ cur⟩

end Calls

/-! ## Steps -/

namespace Machine

/-- The system call that an event makes, and the agent that makes it. -/
def callOf (m : Machine) : Event → Option (Fin maxAgents × Call)
  | .trap h _ (.call c) =>
    match m.ctl h, m.current h with
    | .user, some cur => some (cur, c)
    | _, _ => none
  | _ => none

/-- The slot on which the event tries to create an agent. -/
def attemptSlot (m : Machine) (e : Event) : Option (Fin maxAgents) :=
  (m.callOf e).bind fun (cur, c) => c.attemptSlot m.toKernel cur

/-- The slot in which `agent_create` creates one. -/
def createSlot (m : Machine) (e : Event) : Option (Fin maxAgents) :=
  (m.callOf e).bind fun (cur, c) => c.createSlot m.toKernel cur

/-- The slot in which `agent_load_from_path` creates one. -/
def loadSlot (m : Machine) (e : Event) : Option (Fin maxAgents) :=
  (m.callOf e).bind fun (cur, c) => c.loadSlot m.toKernel cur

/-- The agent to which the event sends a message. -/
def addressee (m : Machine) : Event → Option (Fin maxAgents)
  | .go h =>
    match m.ctl h with
    | .burn _ _ => agentGet m.toKernel displayAgentId
    | _ => none
  | .trap h tf t => (m.callOf (.trap h tf t)).bind fun (_, c) => c.addressee m.toKernel

/-- The event creates a new agent in slot `i`. -/
def Recreates (m : Machine) (e : Event) (i : Fin maxAgents) : Prop :=
  m.createSlot e = some i ∨ m.loadSlot e = some i

instance (m : Machine) (e : Event) (i : Fin maxAgents) : Decidable (m.Recreates e i) :=
  inferInstanceAs (Decidable (_ ∨ _))

/-- The agent that the event makes runnable in `sched_notify_runnable`. -/
def wakes (m : Machine) : Event → Option (Fin maxAgents)
  | .go h =>
    match m.ctl h with
    | .notify i _ => some i
    | _ => none
  | .trap _ _ _ => none

/-- The event is `agent_exit` of agent `i`, by its own call or by a bad fault. -/
def Exits (m : Machine) (e : Event) (i : Fin maxAgents) : Prop :=
  ∃ h tf t, e = .trap h tf t ∧ (t = .exit ∨ t = .badFault) ∧ m.ctl h = .user ∧
    m.current h = some i

theorem callOf_call {m : Machine} {h : Fin maxHarts} {cur : Fin maxAgents} (tf : TrapFrame)
    (c : Call) (hctl : m.ctl h = .user) (hcur : m.current h = some cur) :
    m.callOf (.trap h tf (.call c)) = some (cur, c) := by
  rw [callOf, hctl, hcur]

theorem wakes_notify {m : Machine} {h : Fin maxHarts} {i : Fin maxAgents} {next : Ctl}
    (hctl : m.ctl h = .notify i next) : m.wakes (.go h) = some i := by
  rw [wakes, hctl]

end Machine

/-- The machine from which hart `h` looks for the next agent. -/
def Machine.RoundStart (m : Machine) (h : Fin maxHarts) (m₀ : Machine) : Prop :=
  (m.ctl h = .loop ∧ m₀ = m) ∨ ∃ tf, m.ctl h = .sched tf ∧ m₀ = m.park h tf

namespace Machine.RoundStart

variable {m m₀ : Machine} {h : Fin maxHarts} (hs : m.RoundStart h m₀)
include hs

theorem undoing : (m.ctl h).undoing = none := by
  rcases hs with ⟨hctl, -⟩ | ⟨tf, hctl, -⟩ <;> rw [hctl] <;> rfl

theorem current_eq : m₀.current = m.current := by
  rcases hs with ⟨-, rfl⟩ | ⟨tf, -, rfl⟩
  · rfl
  · exact m.park_current h tf

theorem ctl_eq : m₀.ctl = m.ctl := by
  rcases hs with ⟨-, rfl⟩ | ⟨tf, -, rfl⟩
  · rfl
  · exact m.park_ctl h tf

theorem of_ne {j : Fin maxAgents} (hj : m.current h ≠ some j) : m₀.agents j = m.agents j := by
  rcases hs with ⟨-, rfl⟩ | ⟨tf, -, rfl⟩
  · rfl
  · exact m.park_of_ne h j tf hj

theorem state_eq_zombie (j : Fin maxAgents) :
    (m₀.agents j).state = .zombie ↔ (m.agents j).state = .zombie := by
  rcases hs with ⟨-, rfl⟩ | ⟨tf, -, rfl⟩
  · rfl
  · exact m.park_state_eq_zombie h j tf

theorem homeCpu (j : Fin maxAgents) : (m₀.agents j).homeCpu = (m.agents j).homeCpu := by
  rcases hs with ⟨-, rfl⟩ | ⟨tf, -, rfl⟩
  · rfl
  · exact m.park_homeCpu h j tf

theorem inbox (j : Fin maxAgents) : (m₀.agents j).inbox = (m.agents j).inbox := by
  rcases hs with ⟨-, rfl⟩ | ⟨tf, -, rfl⟩
  · rfl
  · exact m.park_inbox h j tf

theorem mem_rq {j : Fin maxAgents} {cpu : Fin maxHarts} (hj : j ∈ m₀.rq cpu) :
    j ∈ m.rq cpu ∨ cpu = (m.agents j).homeCpu := by
  rcases hs with ⟨-, rfl⟩ | ⟨tf, -, rfl⟩
  · exact .inl hj
  · exact m.mem_park h j tf hj

end Machine.RoundStart

/-- **What an event does**, and what it dispatches.

- `stay`: it cannot happen, or changes nothing.
- `call`, `burn`, `undo`: a system call works on the table.
- `store`: registers are stored, and the hart goes on elsewhere.
- `exit`: the current agent ends.
- `wake`: the update of `sched_notify_runnable`.
- `idle`, `dispatch`: a round of `schedule_trap` or `sched_cpu_run_loop`. -/
inductive Moves (cfg : Config) (m : Machine) :
    Event → Machine → Option (Fin maxAgents × TrapFrame) → Note → Prop
  | stay (e : Event) : Moves cfg m e m none .quiet
  | stop {h : Fin maxHarts} (hundoing : (m.ctl h).undoing = none) :
      Moves cfg m (.go h) (m.goto h .stopped) none .quiet
  | call {h : Fin maxHarts} {cur : Fin maxAgents} (tf : TrapFrame) (c : Call)
      (hctl : m.ctl h = .user) (hcur : m.current h = some cur) :
      Moves cfg m (.trap h tf (.call c))
        (m.after h (c.run cfg m.toKernel cur tf).1 (c.run cfg m.toKernel cur tf).2) none
        (c.note cfg m.toKernel cur)
  | burn {h : Fin maxHarts} {cur : Fin maxAgents} {count : Nat} {tf : TrapFrame}
      (hctl : m.ctl h = .burn count tf) (hcur : m.current h = some cur) :
      Moves cfg m (.go h) (m.after h (burnRound cfg m.toKernel cur tf count).1
        (burnRound cfg m.toKernel cur tf count).2) none (burnNote cfg m.toKernel cur count)
  | undo {h : Fin maxHarts} {cur : Fin maxAgents} {msg : AgentMsg} {tf : TrapFrame}
      (hctl : m.ctl h = .undo msg tf) (hcur : m.current h = some cur) :
      Moves cfg m (.go h)
        (m.after h (agentRecvUndo m.toKernel cur msg) (.ret (tf.returning efault))) none
        (undoNote m.toKernel cur msg)
  | store {e : Event} {cur : Fin maxAgents} (tf : TrapFrame) {next : Ctl}
      (hserving : (m.ctl e.hart).serving = true) (hcur : m.current e.hart = some cur)
      (hnext : next.waking = []) (hundoing : (m.ctl e.hart).undoing = none)
      (hundo : next.undoing = none) :
      Moves cfg m e ((m.trapframeStore cur tf).goto e.hart next) none .quiet
  | exit {h : Fin maxHarts} {cur : Fin maxAgents} (tf tf' : TrapFrame) {t : Trap}
      (ht : t = .exit ∨ t = .badFault) (hctl : m.ctl h = .user) (hcur : m.current h = some cur) :
      Moves cfg m (.trap h tf t) (({ m with toKernel := agentExit m.toKernel cur }.trapframeStore
        cur tf').goto h (.sched tf')) none (.ended cur)
  | wake {h : Fin maxHarts} {target : Fin maxAgents} {next : Ctl}
      (hctl : m.ctl h = .notify target next) :
      Moves cfg m (.go h) ((m.makeRunnable target).goto h next) none .quiet
  | idle {h : Fin maxHarts} {m₀ : Machine} {next : Ctl} (hs : m.RoundStart h m₀)
      (hserving : next.serving = false) (hwaking : next.waking = []) (hundo : next.undoing = none) :
      Moves cfg m (.go h) (m₀.goto h next) none .quiet
  | dispatch {h : Fin maxHarts} {m₀ : Machine} {i : Fin maxAgents} (r : Nat)
      (hs : m.RoundStart h m₀) (hi : m₀.Pickable h i) :
      Moves cfg m (.go h) ({ m₀ with rrNext := r }.dispatch h i)
        ((m₀.agents i).tf.map fun tf => (i, tf)) (dispatchNote ((m₀.agents i).tf.map fun tf => (i, tf)))

/-- A round of either loop. -/
theorem moves_round (cfg : Config) {m m₀ : Machine} {h : Fin maxHarts} (hs : m.RoundStart h m₀)
    {idle : Ctl} (hserving : idle.serving = false) (hwaking : idle.waking = [])
    (hundo : idle.undoing = none) :
    Moves cfg m (.go h) (m₀.schedRound h cfg idle).1 (m₀.schedRound h cfg idle).2
      (dispatchNote (m₀.schedRound h cfg idle).2) := by
  rcases m₀.schedRound_cases h cfg idle with ⟨i, r, hi, heq⟩ | ⟨next, rfl | rfl, heq⟩
  · rw [heq]
    exact .dispatch r hs hi
  · rw [heq]
    exact .idle hs rfl rfl rfl
  · rw [heq]
    exact .idle hs hserving hwaking hundo

/-- **Every step** is one of these moves. -/
theorem step_moves (cfg : Config) (m : Machine) (e : Event) :
    Moves cfg m e (m.step cfg e) (m.dispatched cfg e) (m.note cfg e) := by
  cases e with
  | trap h tf t =>
    rw [Machine.step, Machine.dispatched, Machine.note]
    cases hctl : m.ctl h with
    | user =>
      cases hcur : m.current h with
      | none => exact .stay _
      | some cur =>
        have hserving : (m.ctl h).serving = true := by rw [hctl]; rfl
        have hundoing : (m.ctl h).undoing = none := by rw [hctl]; rfl
        cases t with
        | call c => exact .call tf c hctl hcur
        | yield => exact .store (e := .trap h tf .yield) _ hserving hcur rfl hundoing rfl
        | exit => exact .exit tf _ (.inl rfl) hctl hcur
        | timer => exact .store (e := .trap h tf .timer) tf hserving hcur rfl hundoing rfl
        | heapFault =>
          have hback : (m.trapframeStore cur tf).goto h .user = m.trapframeStore cur tf := by
            rw [Machine.goto, Machine.trapframeStore_ctl, ← hctl, update_eq_self,
              ← Machine.trapframeStore_ctl m cur tf]
          have hmove : Moves cfg m (.trap h tf .heapFault)
              ((m.trapframeStore cur tf).goto h .user) none .quiet :=
            .store (e := .trap h tf .heapFault) tf hserving hcur rfl hundoing rfl
          rw [hback] at hmove
          exact hmove
        | badFault => exact .exit tf tf (.inr rfl) hctl hcur
        | ipi => exact .stay _
    | _ => exact .stay _
  | go h =>
    rw [Machine.step, Machine.note, Machine.dispatched]
    cases hctl : m.ctl h with
    | user | stopped => exact .stay _
    | notify target next => exact .wake hctl
    | undo msg tf =>
      rw [Machine.goOn]
      cases hcur : m.current h with
      | none => exact .stay _
      | some cur => exact .undo hctl hcur
    | burn count tf =>
      rw [Machine.goOn]
      cases hcur : m.current h with
      | none => exact .stay _
      | some cur => exact .burn hctl hcur
    | ret tf =>
      rw [Machine.goOn]
      cases hcur : m.current h with
      | none => exact .stop (by rw [hctl]; rfl)
      | some cur =>
        have hserving : (m.ctl h).serving = true := by rw [hctl]; rfl
        have hundoing : (m.ctl h).undoing = none := by rw [hctl]; rfl
        refine .store (e := .go h) tf hserving hcur ?_ hundoing ?_
        · split_ifs <;> rfl
        · split_ifs <;> rfl
    | sched tf => exact moves_round cfg (.inr ⟨tf, hctl, rfl⟩) rfl rfl rfl
    | loop => exact moves_round cfg (.inl ⟨hctl, rfl⟩) rfl rfl rfl

end OpenAgentOS
