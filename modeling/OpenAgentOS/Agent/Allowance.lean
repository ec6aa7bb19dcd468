import OpenAgentOS.Svc.Answering
import OpenAgentOS.Tool.Dispatch

/-!
# What a new agent may still use (kernel/quota.c, agent.c, elfload.c)

quota.c counts the messages and the tool calls of every slot. `quota_init` clears the
counters when the machine starts, and nothing else does: neither `agent_create` nor
`agent_load_from_path` knows of them. So a new agent starts with what the agents before
it have left of the quotas of its slot.

- `System`: the machine and the tool gateway in one state. A call of `SYS_AGENT_TOOL` is
  a trap of the machine whose result is that of the gateway.
- `System.charged`: the slot that an event is charged to. `System.used` grows by exactly
  that (`System.used_step`).
- `full_allowance_iff`: in every run, an agent that has just been created has its full
  allowance exactly if nothing was charged to its slot since the machine was started.
-/

namespace OpenAgentOS

/-- The machine and the tool gateway. -/
structure System where
  machine : Machine
  tools : ToolState

/-- A slot of the table as the caller of a tool. -/
def Machine.caller (m : Machine) (cur : Fin maxAgents) : Caller := ⟨cur, (m.agents cur).caps⟩

/-- A tool that is not modelled does not touch the counters either: only `tool_dispatch`
charges a call. -/
def ToolCall.KeepsCount : ToolCall → Prop
  | .other _ _ (some entry) => ∀ s, (entry.2.2 s).2.toolCount = s.toolCount
  | _ => True

/-- An event of the machine, or a tool call by the agent on a hart. The commands of
`TOOL_QUOTA` that send messages are calls of the machine. -/
inductive SystemEvent where
  | machine (e : Event)
  | tool (h : Fin maxHarts) (tf : TrapFrame) (net : NetAnswers) (call : ToolCall)
      (keeps : call.KeepsCount)

namespace System

/-- What an event does. -/
def step (cfg : Config) (s : System) : SystemEvent → System
  | .machine e => { s with machine := s.machine.step cfg e }
  | .tool h tf net call _ =>
    match s.machine.ctl h, s.machine.current h with
    | .user, some cur =>
      let out := Request.outcome s.tools ⟨s.machine.caller cur, net, .tool call⟩
      ⟨s.machine.step cfg (.trap h tf (.call (.other out.rc))), out.state⟩
    | _, _ => s

/-- The machine when its first agent starts: `quota_init` has cleared the counters. -/
def start (cfg : Config) (image : Image) (boxes : Fin maxAgents → Msgbox) (tools : ToolState) :
    System :=
  ⟨boot cfg image boxes, { tools with toolCount := fun _ => 0 }⟩

/-- `quota_ipc_used` and `quota_tool_used` of a slot in one number. -/
def used (s : System) (i : Fin maxAgents) : Nat := s.machine.ipcCount i + s.tools.toolCount i

end System

/-! ## What is charged -/

/-- `tool_dispatch` runs the tool and charges the call. -/
def ToolState.charges (s : ToolState) (a : Caller) (net : NetAnswers) (call : ToolCall) : Bool :=
  gated call.head.1 call.head.2 && quotaToolAllow s.gateway a == 0 &&
    policyToolAllow s.gateway call.head.1 == 0 &&
    (call.entry net a).any fun e => a.hasCap e.cap && e.check == 0

/-- The slot that an event is charged to. -/
def System.charged (cfg : Config) (s : System) : SystemEvent → Option (Fin maxAgents)
  | .machine e => s.machine.charged cfg e
  | .tool h _ net call _ =>
    match s.machine.ctl h, s.machine.current h with
    | .user, some cur => if s.tools.charges (s.machine.caller cur) net call then some cur else none
    | _, _ => none

section Charges

variable {s : ToolState} {a : Caller} {net : NetAnswers} {call : ToolCall}

/-- What a tool runs leaves the counters alone. -/
theorem toolCount_run (keeps : call.KeepsCount) {e : ToolEntry} (he : call.entry net a = some e) :
    (e.run s).state.toolCount = s.toolCount := by
  have hroute : ∀ (rc : Int) (route : Except Int Dest),
      (Outcome.ofRoute s rc route).state.toolCount = s.toolCount := by
    intro rc route
    cases route <;> rfl
  cases call with
  | file call =>
    cases call with
    | read path len heap store =>
      rw [← Option.some.inj he]
      rfl
    | write path len heap data =>
      rw [← Option.some.inj he]
      rfl
  | llm args answer =>
    rw [← Option.some.inj he]
    dsimp only
    rw [agentLlmQuery]
    split_ifs
    · rfl
    · rfl
    · rfl
    · rfl
  | http url buf buflen rc =>
    rw [← Option.some.inj he]
    unfold runHttp
    dsimp only
    split
    · rfl
    · cases url with
      | null => rfl
      | fault => rfl
      | text url =>
        dsimp only
        split
        · rfl
        · exact hroute rc _
  | policy cmd =>
    rw [← Option.some.inj he]
  | remote cmd rc =>
    rw [← Option.some.inj he]
    cases cmd with
    | connect => exact hroute rc _
    | _ => rfl
  | fleet cmd rc =>
    rw [← Option.some.inj he]
    rcases cmd with _ | json | (_ | _ | url) | (_ | _ | url) | _
    · rfl
    · rfl
    · rfl
    · rfl
    · rfl
    · exact hroute rc _
    · rfl
    · exact hroute rc _
    · rfl
  | other tool arg0 entry =>
    cases entry with
    | none => cases he
    | some entry =>
      rw [← Option.some.inj he]
      exact keeps s

/-- **A tool call** counts if it is charged. -/
theorem toolCount_outcome (keeps : call.KeepsCount) (i : Fin maxAgents) :
    (Request.outcome s ⟨a, net, .tool call⟩).state.toolCount i
      = s.toolCount i + if s.charges a net call = true ∧ a.id = i then 1 else 0 := by
  show (dispatchTool s a call.head.1 call.head.2 (call.entry net a)).state.toolCount i = _
  unfold dispatchTool
  by_cases hquota : gated call.head.1 call.head.2 = true ∧ quotaToolAllow s.gateway a ≠ 0
  · rw [if_pos hquota, ToolState.charges, beq_false_of_ne hquota.2]
    simp [ToolState.refuse, ToolState.log]
  by_cases hpolicy : gated call.head.1 call.head.2 = true ∧
      policyToolAllow s.gateway call.head.1 ≠ 0
  · rw [if_neg hquota, if_pos hpolicy, ToolState.charges, beq_false_of_ne hpolicy.2]
    simp [ToolState.refuse, ToolState.log]
  rw [if_neg hquota, if_neg hpolicy]
  cases hentry : call.entry net a with
  | none => simp [ToolState.charges, hentry, ToolState.refuse, ToolState.log]
  | some e =>
    dsimp only
    by_cases hcap : a.hasCap e.cap = false
    · simp [ToolState.charges, hentry, hcap, ToolState.refuse, ToolState.log]
    by_cases hcheck : e.check ≠ 0
    · simp [ToolState.charges, hentry, hcap, hcheck, ToolState.refuse, ToolState.log]
    have hrun := toolCount_run (s := s) keeps hentry
    have hlogged : (if logged call.head.1 call.head.2 (e.run s).rc then
        (e.run s).state.log a call.head.1 (e.run s).rc else (e.run s).state).toolCount
          = s.toolCount := by
      split
      · exact hrun
      · exact hrun
    rw [if_neg hcap, if_neg hcheck, Outcome.settle]
    dsimp only
    by_cases hgated : gated call.head.1 call.head.2 = true
    · have hcharges : s.charges a net call = true := by
        simp only [hgated, true_and, not_not, Bool.not_eq_false] at hquota hpolicy hcap hcheck
        simp [ToolState.charges, hgated, hquota, hpolicy, hentry, hcap, hcheck]
      rw [if_pos hgated, hcharges, ToolState.charge, hlogged]
      dsimp only
      rw [Function.update_apply]
      by_cases hi : i = a.id
      · rw [if_pos hi, if_pos ⟨rfl, hi.symm⟩, hi]
      · rw [if_neg hi, if_neg (fun h => hi h.2.symm), Nat.add_zero]
    · rw [if_neg hgated, hlogged]
      simp [ToolState.charges, hgated]

end Charges

/-! ## Runs -/

namespace System

variable {cfg : Config} (hquota : cfg.quota = true)

include hquota

/-- **One step** uses up what is charged. -/
theorem used_step (s : System) (e : SystemEvent) (i : Fin maxAgents) :
    (s.step cfg e).used i = s.used i + if s.charged cfg e = some i then 1 else 0 := by
  cases e with
  | machine e =>
    show (s.machine.step cfg e).ipcCount i + s.tools.toolCount i = _
    rw [Machine.step_ipcCount s.machine hquota]
    exact Nat.add_right_comm _ _ _
  | tool h tf net call keeps =>
    rw [step, charged]
    cases hctl : s.machine.ctl h with
    | user =>
      cases hcur : s.machine.current h with
      | none => rfl
      | some cur =>
        dsimp only
        -- for the machine a tool call is one that sends nothing
        have hmachine : ∀ rc, (s.machine.step cfg (.trap h tf (.call (.other rc)))).ipcCount i
            = s.machine.ipcCount i := by
          intro rc
          rw [Machine.step_ipcCount s.machine hquota, Machine.charged,
            Machine.callOf_call tf _ hctl hcur]
          rfl
        rw [used, used, hmachine, toolCount_outcome keeps, ← Nat.add_assoc]
        congr 1
        have hid : (s.machine.caller cur).id = cur := rfl
        by_cases hcharges : s.tools.charges (s.machine.caller cur) net call = true
        · simp [hcharges, hid]
        · simp [hcharges]
    | _ => rfl

/-- **In a run** nothing is used of a slot exactly if nothing was before and nothing is
charged to it. -/
theorem used_run_eq_zero_iff (s : System) (es : List SystemEvent) (i : Fin maxAgents) :
    (Runs.run (step cfg) s es).used i = 0 ↔
      s.used i = 0 ∧ Runs.Along (step cfg) (fun s e => s.charged cfg e ≠ some i) s es := by
  induction es generalizing s with
  | nil => exact (and_iff_left trivial).symm
  | cons e es ih =>
    show (Runs.run (step cfg) (s.step cfg e) es).used i = 0 ↔
      s.used i = 0 ∧ s.charged cfg e ≠ some i ∧ _
    rw [ih, used_step hquota, ← and_assoc]
    refine and_congr_left fun _ => ?_
    by_cases hcharged : s.charged cfg e = some i
    · rw [if_pos hcharged]
      exact iff_of_false (Nat.succ_ne_zero _) fun h => h.2 hcharged
    · rw [if_neg hcharged, Nat.add_zero]
      exact (and_iff_left hcharged).symm

end System

/-- Creating an agent is not charged to anyone. -/
theorem Machine.charged_of_recreates {cfg : Config} {m : Machine} {e : Event} {i : Fin maxAgents}
    (h : m.Recreates e i) : m.charged cfg e = none := by
  cases e with
  | go h' =>
    rcases h with h | h
    · cases h
    · cases h
  | trap h' tf t =>
    rw [Recreates, createSlot, loadSlot] at h
    rw [charged]
    rcases hcall : m.callOf (.trap h' tf t) with _ | ⟨cur, c⟩
    · rfl
    · rw [hcall] at h
      cases c with
      | send dst type payload =>
        rcases h with h | h
        · cases h
        · cases h
      | _ => rfl

/-- **The allowance of a new agent** is full exactly if nothing was charged to its slot
since the machine was started. -/
theorem full_allowance_iff (cfg : Config) (hquota : cfg.quota = true) (image : Image)
    (boxes : Fin maxAgents → Msgbox) (tools : ToolState) (es : List SystemEvent) (e : Event)
    (i : Fin maxAgents)
    (hnew : (Runs.run (System.step cfg) (.start cfg image boxes tools) es).machine.Recreates e i) :
    let s := Runs.run (System.step cfg) (.start cfg image boxes tools) (es ++ [.machine e])
    s.machine.ipcCount i = 0 ∧ s.tools.toolCount i = 0 ↔
      Runs.Along (System.step cfg) (fun s e => s.charged cfg e ≠ some i)
        (.start cfg image boxes tools) es := by
  have hstart : (System.start cfg image boxes tools).used i = 0 := by
    rw [System.used, System.start, ipcCount_boot]
    exact Nat.zero_add 0
  have hlast : (Runs.run (System.step cfg) (.start cfg image boxes tools) es).charged cfg
      (.machine e) ≠ some i := by
    rw [System.charged, Machine.charged_of_recreates hnew]
    exact nofun
  dsimp only
  rw [← Nat.add_eq_zero_iff]
  refine (System.used_run_eq_zero_iff hquota _ _ i).trans ?_
  rw [and_iff_right hstart, Runs.along_append, and_iff_left ⟨hlast, trivial⟩]

/-! ### A slot that is used twice -/

/-- A machine without services. -/
def plainStart : System := .start quotaConfig plainImage (fun _ => blankBox) bootTools

/-- The current agent creates one that may send and use files. -/
def createEvent : Event := .trap 0 someFrame (.call (.create 0 (capSend ||| capFs) (.done 0x80410000)))

/-- The current agent reads a file. -/
def readEvent : SystemEvent :=
  .tool 0 someFrame offline (.file (.read ⟨some (.lit "/sys/version"), .lit "", .lit ""⟩ 8 true true)) trivial

/-- An agent is created in slot 2, sends a message to the first agent, reads a file and
exits. -/
def firstOwner : List SystemEvent :=
  ([createEvent, .go 0, .go 0] ++ switchEvents .yield).map .machine ++
    [.machine (.trap 0 someFrame (.call (.send 1 msgResult (.text (CString.bytes "hi"))))),
      .machine (.go 0), .machine (.go 0), readEvent, .machine (.go 0)] ++
    (switchEvents .exit).map .machine

theorem full_allowance_iff_first :
    let s := Runs.run (System.step quotaConfig) plainStart [.machine createEvent]
    s.machine.ipcCount 2 = 0 ∧ s.tools.toolCount 2 = 0 :=
  (full_allowance_iff quotaConfig rfl plainImage (fun _ => blankBox) bootTools [] createEvent 2
    (by decide +kernel)).mpr trivial

/-- **The second agent in a slot pays for the first.** -/
theorem not_full_allowance :
    (Runs.run (System.step quotaConfig) plainStart firstOwner).machine.Recreates createEvent 2 ∧
      ¬ let s := Runs.run (System.step quotaConfig) plainStart (firstOwner ++ [.machine createEvent])
        s.machine.ipcCount 2 = 0 ∨ s.tools.toolCount 2 = 0 := by
  constructor
  · decide +kernel
  · decide +kernel

end OpenAgentOS
