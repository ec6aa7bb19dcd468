import OpenAgentOS.Agent.Delivery
import OpenAgentOS.Agent.FailedReceive

/-!
# What a receive returns (kernel/agent.c, user/libagent.h)

`agent_recv` returns the type of the message, which its sender has chosen, or an error. The two cannot
be told apart if a type is negative.

- `Machine.recvEnds`: the receive that a step ends, with the message that it has taken out for good.
- `recvMsgLoop`: the loop of `agent_recv_msg` over such results, and what it throws away.
- `Machine.AllMsgs`: a property of all messages in the machine. A run keeps it if every message that
  is sent has it (`allMsgs_step`).
- `recvUnambiguous_run`: in runs without negative types, in which messages that are pushed back find
  room, a negative result means that no message is gone.
-/

namespace OpenAgentOS

open Function

/-! ## Results -/

/-- The `agent_recv` that an event ends: the caller, what it returns, and the message that is no longer
in the inbox. -/
def Machine.recvEnds (m : Machine) : Event → Option (Fin maxAgents × Int × Option AgentMsg)
  | .trap h _ (.call (.recv null fault)) =>
    match m.ctl h, m.current h with
    | .user, some cur =>
      match agentRecv m.toKernel cur null with
      | .error rc => some (cur, rc, none)
      | .ok (msg, _) => if fault then none else some (cur, msg.type, some msg)
    | _, _ => none
  | .go h =>
    match m.ctl h, m.current h with
    | .undo msg _, some cur =>
      some (cur, efault, if (msgboxPush (m.agents cur).inbox msg).1 = 0 then none else some msg)
    | _, _ => none
  | _ => none

/-- The results of the receives of agent `cur`, one after the other. -/
def Machine.recvResults (cfg : Config) (cur : Fin maxAgents) (m : Machine) :
    List Event → List (Int × Option AgentMsg)
  | [] => []
  | e :: es =>
    let later := (m.step cfg e).recvResults cfg cur es
    match m.recvEnds e with
    | some (i, result) => if i = cur then result :: later else later
    | none => later

/-- `agent_recv_msg` (libagent.h:41) on the results of `agent_recv`: the one it returns, and the
messages of those that it has passed over. -/
def recvMsgLoop : List (Int × Option AgentMsg) → Option (Int × Option AgentMsg) × List AgentMsg
  | [] => (none, [])
  | (rc, msg) :: results =>
    if rc = eagain then
      let out := recvMsgLoop results
      (out.1, msg.toList ++ out.2)
    else (some (rc, msg), [])

/-- A receive returns a negative value only if no message is gone. -/
def Machine.RecvUnambiguous (m : Machine) (e : Event) : Prop :=
  ∀ cur rc msg, m.recvEnds e = some (cur, rc, some msg) → 0 ≤ rc

/-- The type that an `agent_send` is called with. -/
def Machine.sentType (m : Machine) (e : Event) : Option Int :=
  match m.callOf e with
  | some (_, .send _ type _) => some type
  | _ => none

/-- **Condition**: types that are sent are not negative, and a message is not pushed back into a full
queue. -/
@[mk_iff] structure Machine.PlainTypes (m : Machine) (e : Event) : Prop where
  types : ∀ type ∈ m.sentType e, 0 ≤ type
  room : ∀ back ∈ m.givesBack e, (m.agents back.1).inbox.hasRoom back.2.type = true

instance (m : Machine) (e : Event) : Decidable (m.PlainTypes e) :=
  decidable_of_iff _ (Machine.plainTypes_iff m e).symm

/-! ## All messages -/

/-- All messages of a box have the property. -/
def Msgbox.AllMsgs (P : AgentMsg → Prop) (box : Msgbox) : Prop :=
  ∃ q : Mailbox, Refines box q ∧ ∀ msg ∈ q.steer ++ q.normal, P msg

namespace Msgbox.AllMsgs

variable {P : AgentMsg → Prop} {box : Msgbox}

theorem init (mem : Msgbox) : (msgboxInit mem).AllMsgs P := ⟨_, refines_init mem, nofun⟩

theorem push (h : box.AllMsgs P) {msg : AgentMsg} (hmsg : P msg) : (msgboxPush box msg).2.AllMsgs P := by
  obtain ⟨q, hq, hall⟩ := h
  refine ⟨_, (refines_push hq msg).2, fun x hx => ?_⟩
  rw [Mailbox.push_steer, Mailbox.push_normal, List.mem_append] at hx
  have hold {x : AgentMsg} (hx : x ∈ q.steer ∨ x ∈ q.normal) : P x := hall x (List.mem_append.mpr hx)
  split_ifs at hx
  · rcases hx with hx | hx
    · rcases Mailbox.mem_offer hx with hx | rfl
      · exact hold (.inl hx)
      · exact hmsg
    · exact hold (.inr hx)
  · rcases hx with hx | hx
    · exact hold (.inl hx)
    · rcases Mailbox.mem_offer hx with hx | rfl
      · exact hold (.inr hx)
      · exact hmsg

/-- What is popped has the property, and so has the rest. -/
theorem pop (h : box.AllMsgs P) {msg : AgentMsg} {box' : Msgbox} (hpop : msgboxPop box = (.ok msg, box')) :
    P msg ∧ box'.AllMsgs P := by
  obtain ⟨q, hq, hall⟩ := h
  obtain ⟨hres, hrest⟩ := refines_pop hq
  obtain ⟨hfront, htail⟩ := Mailbox.pop_eq q
  rw [hpop] at hres hrest
  rw [← hres] at hfront
  constructor
  · cases hhead : (q.steer ++ q.normal).head? with
    | none =>
      rw [hhead] at hfront
      cases hfront
    | some x =>
      rw [hhead] at hfront
      cases hfront
      exact hall msg (List.mem_of_mem_head? hhead)
  · refine ⟨_, hrest, fun x hx => ?_⟩
    rw [htail] at hx
    exact hall x (List.mem_of_mem_tail hx)

theorem compact (h : box.AllMsgs P) (hsummary : ∀ dropped, P (compactSummary dropped)) (keep : Int) :
    (msgboxCompact box keep).2.AllMsgs P := by
  obtain ⟨q, hq, hall⟩ := h
  refine ⟨_, (refines_compact hq keep).2, fun x hx => ?_⟩
  rw [Mailbox.compact, Mailbox.keepLast] at hx
  split_ifs at hx
  · rcases List.mem_append.mp hx with hx | hx
    · exact hall x (List.mem_append_left _ hx)
    · rcases List.mem_cons.mp hx with rfl | hx
      · exact hsummary _
      · exact hall x (List.mem_append_right _ (List.mem_of_mem_drop hx))
  · exact hall x hx

end Msgbox.AllMsgs

/-- All messages in inboxes, and those that are about to be pushed back. -/
structure Machine.AllMsgs (P : AgentMsg → Prop) (m : Machine) : Prop where
  inbox : ∀ i, (m.agents i).inbox.AllMsgs P
  held : ∀ h msg, (m.ctl h).undoing = some msg → P msg

section

variable {P : AgentMsg → Prop} {cfg : Config} {m m' : Machine} {e : Event} {h : Fin maxHarts}
  {out : Option (Fin maxAgents × TrapFrame)} {note : Note}

/-- A step that leaves inboxes alone, on a hart that gives nothing back afterwards. -/
theorem Machine.AllMsgs.quiet (hm : m.AllMsgs P) (h : Fin maxHarts) (next : Ctl)
    (hinbox : ∀ i, (m'.agents i).inbox = (m.agents i).inbox)
    (hctl : m'.ctl = update m.ctl h next)
    (hnext : next.undoing = none ∨ next.undoing = (m.ctl h).undoing) : m'.AllMsgs P := by
  refine ⟨fun i => (hinbox i).symm ▸ hm.inbox i, fun h' msg hmsg => ?_⟩
  rw [hctl, update_apply] at hmsg
  split_ifs at hmsg
  · rcases hnext with hnone | hsame
    · rw [hnone] at hmsg
      cases hmsg
    · exact hm.held h msg (hsame ▸ hmsg)
  · exact hm.held h' msg hmsg

/-- A system call. -/
theorem CallEffect.allMsgs {cur : Fin maxAgents} {c : Call} {res : Kernel × Ctl}
    (heff : CallEffect cfg m.toKernel cur c note res) (hm : m.AllMsgs P)
    (hsummary : ∀ dropped, P (compactSummary dropped))
    (hsent : ∀ i msg, note = .accepted i msg → P msg) : (m.after h res.1 res.2).AllMsgs P := by
  obtain ⟨i, a, hchange, hagents⟩ := heff.change
  -- only one inbox changes, and the message that the hart holds then is the one popped
  have hone (ha : a.inbox.AllMsgs P) (hheld : ∀ msg, note = .popped cur msg true → P msg) :
      (m.after h res.1 res.2).AllMsgs P := by
    constructor
    · intro j
      rw [Machine.after_toKernel, hagents, update_apply]
      split_ifs with hj
      · exact ha
      · exact hm.inbox j
    · intro h' msg hmsg
      rw [Machine.after_ctl, update_apply] at hmsg
      split_ifs at hmsg
      · exact hheld msg ((heff.undoing msg).mp hmsg)
      · exact hm.held h' msg hmsg
  cases hchange with
  | same => exact hone (hm.inbox i) nofun
  | unframe hslot => exact hone (hm.inbox i) nofun
  | reframe gp sepc hslot => exact hone (hm.inbox i) nofun
  | recreate gp entry caps hslot => exact hone (.init _) nofun
  | reload gp entry caps hslot => exact hone (.init _) nofun
  | destroy => exact hone (hm.inbox i) nofun
  | push msg box hto hpush =>
    have hbox := (hm.inbox i).push (hsent i msg rfl)
    rw [show (m.agents i).inbox = (m.toKernel.agents i).inbox from rfl, hpush] at hbox
    exact hone hbox nofun
  | pop msg box fault hi hpop =>
    obtain ⟨hmsg, hbox⟩ := (hm.inbox i).pop hpop
    refine hone hbox fun msg' heq => ?_
    cases heq
    exact hmsg
  | compact keep hi => exact hone ((hm.inbox i).compact hsummary keep) nofun

/-- **Every step** keeps the property, if what it sends has it. -/
theorem Moves.allMsgs (hmove : Moves cfg m e m' out note) (hm : m.AllMsgs P)
    (hsummary : ∀ dropped, P (compactSummary dropped))
    (hsent : ∀ i msg, note = .accepted i msg → P msg) : m'.AllMsgs P := by
  cases hmove with
  | stay => exact hm
  | stop hundoing => exact hm.quiet _ .stopped (fun _ => rfl) rfl (.inl rfl)
  | call tf c hctl hcur => exact (callEffect_run cfg m.toKernel _ tf c).allMsgs hm hsummary hsent
  | burn hctl hcur =>
    exact (callEffect_burnRound cfg m.toKernel _ _ _).allMsgs hm hsummary hsent
  | undo hctl hcur =>
    rename_i h cur msg tf
    have hmsg : P msg := hm.held h msg (by rw [hctl]; rfl)
    constructor
    · intro j
      rw [Machine.after_toKernel, agentRecvUndo, Kernel.setAgent_agents, update_apply]
      split_ifs with hj
      · exact (hm.inbox cur).push hmsg
      · exact hm.inbox j
    · intro h' msg' hmsg'
      rw [Machine.after_ctl, update_apply] at hmsg'
      split_ifs at hmsg'
      · cases hmsg'
      · exact hm.held h' msg' hmsg'
  | store tf hserving hcur hnext hundoing hundo => exact hm.quiet e.hart _ (by simp) (by simp) (.inl hundo)
  | exit tf tf' ht hctl hcur =>
    rename_i h cur t
    refine hm.quiet h (.sched tf') (fun i => ?_) (by simp) (.inl rfl)
    rw [Machine.goto_toKernel, Machine.trapframeStore_inbox, agentExit, Kernel.setAgent_agents,
      update_apply]
    split_ifs with hi
    · rw [hi]
      rfl
    · rfl
  | wake hctl =>
    rename_i h target next
    refine hm.quiet h next (fun i => ?_) (by simp) (.inr (by rw [hctl]; rfl))
    rw [Machine.goto_toKernel, Machine.makeRunnable_agents, update_apply]
    split_ifs with hi
    · rw [hi]
    · rfl
  | idle hs hserving hwaking hundo =>
    exact hm.quiet _ _ hs.inbox (by rw [Machine.goto_ctl, hs.ctl_eq]) (.inl hundo)
  | dispatch r hs hi =>
    rename_i h m₀ i
    refine hm.quiet h (if ((m₀.agents i).tf).isSome then .user else .stopped) (fun j => ?_) ?_ (.inl ?_)
    · rw [Machine.dispatch_agents, update_apply]
      split_ifs with hj
      · rw [hj]
        exact hs.inbox i
      · exact hs.inbox j
    · rw [Machine.dispatch_ctl, ← hs.ctl_eq]
    · split_ifs <;> rfl

theorem sendNote_accepted {msg msg' : AgentMsg} {i : Fin maxAgents}
    {res : Except Int (Fin maxAgents × Kernel)} (h : sendNote msg res = .accepted i msg') : msg' = msg := by
  cases res with
  | error rc => cases h
  | ok out => cases h; rfl

theorem spawnNote_ne_accepted {msg : AgentMsg} {i : Fin maxAgents}
    (res : Except Int (Fin maxAgents) × Kernel) : spawnNote res ≠ .accepted i msg := by
  rcases res with ⟨_ | _, _⟩ <;> exact nofun

/-- The type of a message that a system call sends. -/
theorem Call.type_of_accepted {k : Kernel} {cur i : Fin maxAgents} {c : Call} {msg : AgentMsg}
    (h : c.note cfg k cur = .accepted i msg) :
    msg.type = msgResult ∨ ∃ dst payload, c = .send dst msg.type payload := by
  cases c with
  | create gp caps outcome => exact absurd h (spawnNote_ne_accepted _)
  | load gp caps outcome => exact absurd h (spawnNote_ne_accepted _)
  | destroy id =>
    rw [Call.note] at h
    cases hget : agentGet k id <;> rw [hget] at h <;> cases h
  | send dst type payload =>
    rw [sendNote_accepted h]
    exact .inr ⟨dst, payload, rfl⟩
  | recv null fault =>
    rw [Call.note] at h
    split at h <;> cases h
  | compact keep =>
    rw [Call.note] at h
    split_ifs at h
  | quotaBurn count => cases h
  | quotaNotify text =>
    rw [sendNote_accepted h]
    exact .inl rfl
  | other ret => cases h

/-- Under the condition, no negative type is sent. -/
theorem Machine.PlainTypes.accepted (he : m.PlainTypes e) {i : Fin maxAgents} {msg : AgentMsg}
    (hnote : m.note cfg e = .accepted i msg) : 0 ≤ msg.type := by
  have hresult : (0 : Int) ≤ msgResult := by decide
  cases e with
  | trap h tf t =>
    rw [Machine.note] at hnote
    split at hnote
    · rename_i cur hctl hcur
      cases t with
      | call c =>
        rcases Call.type_of_accepted hnote with htype | ⟨dst, payload, rfl⟩
        · rw [htype]
          exact hresult
        · refine he.types msg.type ?_
          rw [Machine.sentType, Machine.callOf_call tf _ hctl hcur]
          rfl
      | _ => cases hnote
    · cases hnote
  | go h =>
    rw [Machine.note] at hnote
    split at hnote
    · cases hcur : m.current h with
      | none =>
        rw [hcur] at hnote
        cases hnote
      | some cur =>
        rw [hcur, Option.map_some, Option.getD_some, undoNote] at hnote
        split_ifs at hnote
    · rename_i count tf hctl
      cases hcur : m.current h with
      | none =>
        rw [hcur] at hnote
        cases hnote
      | some cur =>
        rw [hcur, Option.map_some, Option.getD_some] at hnote
        cases count with
        | zero => cases hnote
        | succ count =>
          rw [sendNote_accepted hnote]
          exact hresult
    · rw [dispatchNote] at hnote
      cases hout : m.dispatched cfg (.go h) <;> rw [hout] at hnote <;> cases hnote

theorem agentRecv_ok {k k' : Kernel} {cur : Fin maxAgents} {null : Bool} {msg : AgentMsg}
    (h : agentRecv k cur null = .ok (msg, k')) :
    ∃ box, msgboxPop (k.agents cur).inbox = (.ok msg, box) := by
  by_cases hok : (k.agents cur).hasCap capRecv = true ∧ null = false
  · obtain ⟨hcap, rfl⟩ := hok
    rw [agentRecv_eq hcap] at h
    rcases hpop : msgboxPop (k.agents cur).inbox with ⟨rc | msg', box⟩ <;> rw [hpop] at h <;> cases h
    exact ⟨box, rfl⟩
  · obtain ⟨rc, -, hrecv⟩ := agentRecv_refused hok
    rw [hrecv] at h
    cases h

/-- **One step**: where no message has a negative type, results are unambiguous. -/
theorem recvUnambiguous_of_plain (hm : m.AllMsgs fun msg => 0 ≤ msg.type) (he : m.PlainTypes e) :
    m.RecvUnambiguous e := by
  intro cur rc msg hends
  unfold Machine.recvEnds at hends
  split at hends
  · -- the call pops a message, whose type it returns
    split at hends
    · split at hends
      · cases hends
      · rename_i cur' _ _ msg' k' hrecv
        split_ifs at hends
        cases hends
        obtain ⟨box, hpop⟩ := agentRecv_ok hrecv
        exact ((hm.inbox _).pop hpop).1
    · cases hends
  · -- a message is pushed back, and there is room
    split at hends
    · rename_i hctl hcur
      have hroom := he.room (_, _) (by rw [Machine.givesBack, hctl, hcur]; rfl)
      rw [msgboxPush_rc, if_pos hroom, if_pos rfl] at hends
      cases hends
    · cases hends
  · cases hends

/-- **Every step** keeps types from being negative. -/
theorem allMsgs_step (hm : m.AllMsgs fun msg => 0 ≤ msg.type) (he : m.PlainTypes e) :
    (m.step cfg e).AllMsgs fun msg => 0 ≤ msg.type :=
  (step_moves cfg m e).allMsgs hm (fun _ => show (0 : Int) ≤ msgSummary by decide)
    fun _ _ hnote => he.accepted hnote

theorem allMsgs_boot (cfg : Config) (image : Image) (boxes : Fin maxAgents → Msgbox) :
    (boot cfg image boxes).AllMsgs P := by
  constructor
  · intro i
    obtain ⟨box, hbox⟩ := inbox_boot cfg image boxes i
    rw [hbox]
    exact .init box
  · intro h msg hmsg
    rw [undoing_boot] at hmsg
    cases hmsg

/-! ## Runs -/

/-- What the results of a run have in common with those of its steps. -/
theorem recvResults_of_along {Q : Int × Option AgentMsg → Prop} {cur : Fin maxAgents} {es : List Event}
    (h : Runs.Along (Machine.step cfg) (fun m e => ∀ i r, m.recvEnds e = some (i, r) → Q r) m es) :
    ∀ r ∈ m.recvResults cfg cur es, Q r := by
  induction es generalizing m with
  | nil => exact nofun
  | cons e es ih =>
    have hlater := ih h.2
    rw [Machine.recvResults]
    split
    · rename_i i result hends
      split_ifs
      · exact List.forall_mem_cons.mpr ⟨h.1 i result hends, hlater⟩
      · exact hlater
    · exact hlater

/-- The loop throws away nothing, if `EAGAIN` means that there was no message. -/
theorem recvMsgLoop_snd {results : List (Int × Option AgentMsg)}
    (h : ∀ r ∈ results, r.1 = eagain → r.2 = none) : (recvMsgLoop results).2 = [] := by
  induction results with
  | nil => rfl
  | cons r results ih =>
    obtain ⟨hr, hrest⟩ := List.forall_mem_cons.mp h
    rw [recvMsgLoop]
    split_ifs with hagain
    · rw [hr hagain]
      exact ih hrest
    · rfl

/-- Unambiguous results, and the loop on them. -/
theorem recvMsgLoop_of_along {es : List Event}
    (h : Runs.Along (Machine.step cfg) Machine.RecvUnambiguous m es) (cur : Fin maxAgents) (n : Nat) :
    (recvMsgLoop ((m.recvResults cfg cur es).drop n)).2 = [] := by
  have hall : ∀ r ∈ m.recvResults cfg cur es, r.1 = eagain → r.2 = none := by
    refine recvResults_of_along (h.imp fun m e hm i r hends hagain => ?_)
    obtain ⟨rc, _ | msg⟩ := r
    · rfl
    · have hnonneg := hm i rc msg hends
      rw [show rc = eagain from hagain] at hnonneg
      exact absurd hnonneg (by decide)
  exact recvMsgLoop_snd fun r hr => hall r (List.mem_of_mem_drop hr)

/-- **Results of receives.** In every run whose steps meet the condition, `agent_recv` returns a
negative value only if no message is gone, and `agent_recv_msg`, from whichever receive on, throws no
message away. -/
theorem recvUnambiguous_run (cfg : Config) (image : Image) (boxes : Fin maxAgents → Msgbox)
    (es : List Event)
    (hes : Runs.Along (Machine.step cfg) Machine.PlainTypes (boot cfg image boxes) es) :
    Runs.Along (Machine.step cfg) Machine.RecvUnambiguous (boot cfg image boxes) es ∧
      ∀ cur n, (recvMsgLoop (((boot cfg image boxes).recvResults cfg cur es).drop n)).2 = [] := by
  have halong : Runs.Along (Machine.step cfg) Machine.RecvUnambiguous (boot cfg image boxes) es :=
    hes.imp_invariant (P := Machine.AllMsgs fun msg => 0 ≤ msg.type)
      (fun _ _ hm he => recvUnambiguous_of_plain hm he) (fun _ _ hm he => allMsgs_step hm he)
      (allMsgs_boot cfg image boxes)
  exact ⟨halong, fun cur n => recvMsgLoop_of_along halong cur n⟩

end

theorem recvUnambiguous_run_receive :
    let m := boot twoHarts plainImage fun _ => blankBox
    (Runs.Along (Machine.step twoHarts) Machine.RecvUnambiguous m receiveEvents ∧
        ∀ cur n, (recvMsgLoop ((m.recvResults twoHarts cur receiveEvents).drop n)).2 = []) ∧
      (m.recvResults twoHarts 3 receiveEvents).map Prod.fst = [msgResult] :=
  ⟨recvUnambiguous_run _ _ _ _ (by decide +kernel), by decide +kernel⟩

/-- Agent 1 sends agent 3 a message whose type is `EAGAIN`, and agent 3 receives it. -/
def ambiguousEvents : List Event :=
  createEvents 0x80400200 ++ createEvents 0x80400300 ++
    [.go 1, .trap 0 someFrame (.call (.send 3 eagain (.text [120]))), .go 0,
      .trap 1 someFrame (.call (.recv false false))]

/-- **A message that is thrown away**: the send returned 0, the receive returns `EAGAIN` with the
message, and `agent_recv_msg` passes over it. -/
theorem not_recvUnambiguous_run :
    let m := boot twoHarts plainImage fun _ => blankBox
    (m.recvResults twoHarts 3 ambiguousEvents).map Prod.fst = [eagain] ∧
      (recvMsgLoop (m.recvResults twoHarts 3 ambiguousEvents)).2.length = 1 ∧
      ¬ Runs.Along (Machine.step twoHarts) Machine.RecvUnambiguous m ambiguousEvents := by
  intro m
  have hlost : (recvMsgLoop (m.recvResults twoHarts 3 ambiguousEvents)).2.length = 1 := by
    decide +kernel
  refine ⟨by decide +kernel, hlost, fun halong => ?_⟩
  have hnone := recvMsgLoop_of_along halong 3 0
  rw [List.drop_zero] at hnone
  rw [hnone] at hlost
  exact absurd hlost (by decide)

end OpenAgentOS
