import OpenAgentOS.Agent.Lifecycle
import OpenAgentOS.Svc.Services

/-!
# Services and the message quota (kernel/quota.c)

A reply is an ordinary `agent_send`, and counts against the quota of the service.
The counter of a slot only grows: it is the number of messages that were accepted
from the slot since boot (`ipcCount_run`), whoever was in it. After `QUOTA_IPC_MAX`
messages a service is mute.

- `reply_accepted_iff`: in every run, a reply to a live client with room for it is
  accepted exactly if the service has sent fewer than 16 messages so far and its
  text is not empty.
- `not_answering_mute`: a run in which the 17th reply is refused.
-/

namespace OpenAgentOS

/-! ## The counter -/

/-- The agent to whose quota the event charges a message. -/
def Machine.charged (cfg : Config) (m : Machine) : Event → Option (Fin maxAgents)
  | .trap h tf t =>
    match m.callOf (.trap h tf t) with
    | some (cur, .send dst type payload) =>
      if (agentSend cfg m.toKernel cur dst type payload).isOk then some cur else none
    | _ => none
  | .go h =>
    match m.ctl h, m.current h with
    | .burn (_ + 1) _, some cur =>
      if (agentSendKernel cfg m.toKernel cur displayAgentId msgResult quotaBurnText).isOk then some cur
      else none
    | _, _ => none

/-- How many messages of slot `i` a run accepts. -/
def Machine.chargedCount (cfg : Config) (i : Fin maxAgents) : Machine → List Event → Nat
  | _, [] => 0
  | m, e :: es =>
    (if m.charged cfg e = some i then 1 else 0) + Machine.chargedCount cfg i (m.step cfg e) es

section Counter

variable (cfg : Config) (k : Kernel) (cur : Fin maxAgents) (tf : TrapFrame)

theorem quotaIpcCharge_ipcCount (hquota : cfg.quota = true) (i : Fin maxAgents) :
    (quotaIpcCharge cfg k cur).ipcCount i = k.ipcCount i + if cur = i then 1 else 0 := by
  rw [quotaIpcCharge, if_pos hquota]
  dsimp only
  rw [Function.update_apply]
  by_cases hi : i = cur
  · rw [if_pos hi, if_pos hi.symm, hi]
  · rw [if_neg hi, if_neg (fun h => hi h.symm), Nat.add_zero]

theorem spawnWith_ipcCount (outcome : Spawn) (noFrame : Agent → Agent)
    (failed created : Fin maxAgents → Nat → Agent → Agent) :
    (spawnWith k cur outcome noFrame failed created).2.ipcCount = k.ipcCount := by
  unfold spawnWith
  split_ifs
  · rfl
  · cases outcome <;> cases agentAllocId k <;> rfl

theorem spawnEnd_ipcCount (out : Except Int (Fin maxAgents) × Kernel) :
    (spawnEnd tf out).1.ipcCount = out.2.ipcCount := by
  obtain ⟨rc | i, k⟩ := out <;> rfl

/-- Only a send that is accepted is charged. -/
theorem sendEnd_ipcCount (hquota : cfg.quota = true) {next : Ctl}
    {out : Except Int (Fin maxAgents × Kernel)}
    (hout : ∀ target k', out = .ok (target, k') →
      ∃ msg k₁, pushInto k target msg = .ok k₁ ∧ k' = quotaIpcCharge cfg k₁ cur)
    (i : Fin maxAgents) :
    (sendEnd k tf next out).1.ipcCount i = k.ipcCount i + if out.isOk ∧ cur = i then 1 else 0 := by
  rcases out with rc | ⟨target, k'⟩
  · rfl
  · obtain ⟨msg, k₁, hpush, rfl⟩ := hout target k' rfl
    obtain ⟨box, -, rfl⟩ := pushInto_ok hpush
    have hok : (Except.ok (target, quotaIpcCharge cfg (k.setAgent target
        { k.agents target with inbox := box }) cur) : Except Int _).isOk = true := rfl
    rw [sendEnd, quotaIpcCharge_ipcCount cfg _ cur hquota, hok]
    simp

/-- What a system call charges. -/
theorem run_ipcCount (hquota : cfg.quota = true) (c : Call) (i : Fin maxAgents) :
    (c.run cfg k cur tf).1.ipcCount i = k.ipcCount i +
      match c with
      | .send dst type payload =>
        if (agentSend cfg k cur dst type payload).isOk ∧ cur = i then 1 else 0
      | _ => 0 := by
  cases c with
  | create gp caps outcome =>
    rw [Call.run, spawnEnd_ipcCount, agentCreate, spawnWith_ipcCount]
    rfl
  | load gp caps outcome =>
    rw [Call.run, spawnEnd_ipcCount, agentLoadFromPath, spawnWith_ipcCount]
    rfl
  | destroy id =>
    rw [Call.run, agentDestroy]
    cases agentGet k id <;> rfl
  | send dst type payload =>
    refine sendEnd_ipcCount cfg k cur tf hquota (fun target k' h => ?_) i
    obtain ⟨s, rfl, -, -, -, k₁, hpush, hk⟩ := agentSend_ok cfg k cur h
    exact ⟨_, k₁, hpush, hk⟩
  | recv null fault =>
    rw [Call.run, agentRecv]
    split_ifs
    · rfl
    · rfl
    · rfl
    · rcases msgboxPop (k.agents cur).inbox with ⟨rc | msg, box⟩ <;> rfl
  | compact keep =>
    rw [Call.run, agentCompactInbox]
    split_ifs <;> rfl
  | quotaBurn count => rfl
  | quotaNotify text =>
    rw [Call.run]
    rcases hout : agentSendKernelNocheck k cur 1 msgResult text with rc | ⟨target, k'⟩
    · rfl
    · obtain ⟨-, hpush⟩ := agentSendKernelNocheck_ok k cur hout
      obtain ⟨box, -, rfl⟩ := pushInto_ok hpush
      rfl
  | other ret => rfl

end Counter

namespace Machine

variable (m : Machine) (h : Fin maxHarts) (tf : TrapFrame)

@[simp] theorem rqAdd_ipcCount (i : Fin maxAgents) : (m.rqAdd i).ipcCount = m.ipcCount := by
  rw [rqAdd_toKernel]

@[simp] theorem makeRunnable_ipcCount (i : Fin maxAgents) :
    (m.makeRunnable i).ipcCount = m.ipcCount := by
  rw [makeRunnable, rqAdd_ipcCount]
  rfl

@[simp] theorem park_ipcCount : (m.park h tf).ipcCount = m.ipcCount := by
  unfold park
  cases m.current h with
  | none => rfl
  | some i =>
    dsimp only
    split_ifs <;> simp

@[simp] theorem schedRound_ipcCount (cfg : Config) (idle : Ctl) :
    (m.schedRound h cfg idle).1.ipcCount = m.ipcCount := by
  rcases m.schedRound_cases h cfg idle with ⟨i, r, -, heq⟩ | ⟨next, -, heq⟩
  · rw [heq]
    rfl
  · rw [heq]
    rfl

/-- **One step** counts the message that it charges. -/
theorem step_ipcCount {cfg : Config} (hquota : cfg.quota = true) (e : Event) (i : Fin maxAgents) :
    (m.step cfg e).ipcCount i = m.ipcCount i + if m.charged cfg e = some i then 1 else 0 := by
  cases e with
  | trap h tf t =>
    rw [step, charged]
    cases hctl : m.ctl h with
    | user =>
      cases hcur : m.current h with
      | none => cases t <;> simp [callOf, hctl, hcur]
      | some cur =>
        cases t with
        | call c =>
          show (m.after h (c.run cfg m.toKernel cur tf).1 (c.run cfg m.toKernel cur tf).2).ipcCount i = _
          rw [callOf_call tf c hctl hcur, after_toKernel, run_ipcCount cfg _ _ _ hquota]
          cases c <;> simp [ite_and]
        | exit => simp [trapHandler, callOf, agentExit]
        | badFault => simp [trapHandler, callOf, agentExit]
        | _ => simp [trapHandler, callOf]
    | _ => cases t <;> simp [callOf, hctl]
  | go h =>
    rw [step, charged]
    cases hctl : m.ctl h with
    | user | stopped => rfl
    | notify target next => simp [goOn]
    | undo msg tf =>
      cases hcur : m.current h <;> simp [goOn, hcur, agentRecvUndo]
    | burn count tf =>
      cases hcur : m.current h with
      | none => simp [goOn, hcur]
      | some cur =>
        cases count with
        | zero => simp [goOn, hcur, burnRound]
        | succ count =>
          rw [goOn, hcur]
          dsimp only
          rw [after_toKernel, burnRound]
          rw [sendEnd_ipcCount cfg m.toKernel cur tf hquota]
          · simp [ite_and]
          · intro target k' hout
            exact ⟨_, (agentSendKernel_ok cfg m.toKernel cur hout).2⟩
    | ret tf =>
      cases hcur : m.current h <;> simp [goOn, hcur]
    | sched tf => simp [goOn, scheduleTrap]
    | loop => simp [goOn, schedCpuRunLoop]

/-- **The counter of a slot** is the number of its messages that were accepted. -/
theorem ipcCount_run {cfg : Config} (hquota : cfg.quota = true) (es : List Event)
    (i : Fin maxAgents) :
    (m.run cfg es).ipcCount i = m.ipcCount i + chargedCount cfg i m es := by
  induction es generalizing m with
  | nil => rfl
  | cons e es ih =>
    show ((m.step cfg e).run cfg es).ipcCount i = _
    rw [ih, step_ipcCount m hquota, chargedCount, Nat.add_assoc]

end Machine

theorem ipcCount_boot (cfg : Config) (image : Image) (boxes : Fin maxAgents → Msgbox)
    (i : Fin maxAgents) : (boot cfg image boxes).ipcCount i = 0 := by
  have hservices (services : List Service) (m : Machine) :
      (services.foldl agentStartService m).ipcCount = m.ipcCount := by
    induction services generalizing m with
    | nil => rfl
    | cons s services ih =>
      rw [List.foldl_cons, ih, agentStartService, Machine.makeRunnable_ipcCount]
      rfl
  show (image.services.foldl agentStartService (agentInit boxes)).ipcCount i = 0
  rw [hservices]
  rfl

/-! ## Replies -/

/-- A send to an agent with room: only the quota and an empty text can refuse it. -/
theorem agentSend_accepted_iff {cfg : Config} {k : Kernel} {cur target : Fin maxAgents}
    {dst type : Int} {s : List UInt8} (hcap : (k.agents cur).hasCap capSend = true)
    (hget : agentGet k dst = some target) (hroom : (k.agents target).inbox.hasRoom type = true) :
    (∃ k', agentSend cfg k cur dst type (.text s) = .ok (target, k')) ↔
      quotaIpcAllow cfg k cur = 0 ∧ s ≠ [] := by
  constructor
  · rintro ⟨k', h⟩
    obtain ⟨s', hs, -, hquota, hne, -⟩ := agentSend_ok cfg k cur h
    obtain rfl := UserText.text.inj hs
    exact ⟨hquota, fun hnil => hne (by rw [hnil, List.take_nil])⟩
  · rintro ⟨hquota, hne⟩
    have htake : s.take (msgPayloadSize - 1) ≠ [] := by
      rw [ne_eq, List.take_eq_nil_iff]
      rintro (h | h)
      · cases h
      · exact hne h
    have hpush : (msgboxPush (k.agents target).inbox
        (.ofText cur type (s.take (msgPayloadSize - 1)))).1 = 0 := by
      rw [msgboxPush_rc]
      exact if_pos hroom
    refine ⟨quotaIpcCharge cfg (k.setAgent target { k.agents target with inbox := (msgboxPush
      (k.agents target).inbox (.ofText cur type (s.take (msgPayloadSize - 1)))).2 }) cur, ?_⟩
    unfold agentSend
    rw [if_neg (by rw [hcap]; exact Bool.false_ne_true), hget]
    dsimp only
    rw [if_neg (not_not.mpr hquota), if_neg htake, pushInto]
    dsimp only
    rw [if_neg (not_not.mpr hpush)]
    rfl

/-- After the run `es`, a service in slot `s` that has taken the request `msg` is to
send the reply `r` to the slot `client`, which is live and has room for it. -/
structure Replying (cfg : Config) (m : Machine) (es : List Event) (kind : ServiceKind)
    (tools : Tools) (s client : Fin maxAgents) (msg : AgentMsg) (r : Reply) : Prop where
  taken : ∃ pre e post, es = pre ++ e :: post ∧ (m.run cfg pre).note cfg e = .popped s msg false
  reply : kind.reply tools msg = some r
  sender : ((m.run cfg es).agents s).hasCap capSend = true
  found : agentGet (m.run cfg es).toKernel msg.senderId = some client
  live : ((m.run cfg es).agents client).state ≠ .zombie
  room : ((m.run cfg es).agents client).inbox.hasRoom r.type = true

/-- The `agent_send` of the reply returns 0, and the reply is in the inbox. -/
def ReplyAccepted (cfg : Config) (m : Machine) (es : List Event) (s client : Fin maxAgents)
    (msg : AgentMsg) (r : Reply) : Prop :=
  ∃ k', agentSend cfg (m.run cfg es).toKernel s msg.senderId r.type (.text r.text)
    = .ok (client, k')

/-- **A reply is accepted** exactly if the service has sent fewer than 16 messages
since boot, and does not have to send the content of an empty file without an id. -/
theorem reply_accepted_iff (cfg : Config) (hquota : cfg.quota = true) (image : Image)
    (boxes : Fin maxAgents → Msgbox) (es : List Event) (kind : ServiceKind) (tools : Tools)
    (s client : Fin maxAgents) (msg : AgentMsg) (r : Reply)
    (h : Replying cfg (boot cfg image boxes) es kind tools s client msg r) :
    ReplyAccepted cfg (boot cfg image boxes) es s client msg r ↔
      Machine.chargedCount cfg s (boot cfg image boxes) es < quotaIpcMax ∧
        kind.emptyRead tools msg = false := by
  have hcount : ((boot cfg image boxes).run cfg es).ipcCount s
      = Machine.chargedCount cfg s (boot cfg image boxes) es := by
    rw [Machine.ipcCount_run _ hquota, ipcCount_boot, Nat.zero_add]
  have hallow : quotaIpcAllow cfg ((boot cfg image boxes).run cfg es).toKernel s = 0 ↔
      Machine.chargedCount cfg s (boot cfg image boxes) es < quotaIpcMax := by
    rw [quotaIpcAllow, hcount]
    split_ifs with hfull
    · exact iff_of_false (by decide) (Nat.not_lt.mpr hfull.2)
    · exact iff_of_true rfl (Nat.not_le.mp fun hle => hfull ⟨hquota, hle⟩)
  rw [ReplyAccepted, agentSend_accepted_iff h.sender h.found h.room, hallow, ne_eq,
    reply_text_eq_nil_iff h.reply, Bool.not_eq_true]

/-! ### A client and the router -/

/-- One hart, and the quota. -/
def quotaConfig : Config where
  online := 1
  quota := true
  online_pos := by decide +kernel
  online_le := by decide

/-- The router in slot 6, and a first agent that may create others and send. -/
def routerImage : Image where
  services := [⟨6, 0x80500000, 0, capSend ||| capRecv⟩]
  entry := 0x80400000
  gp := 0
  caps := capSpawn ||| capSend ||| capRecv

/-- The machine when its first agent starts. -/
def routerBoot : Machine := boot quotaConfig routerImage fun _ => blankBox

/-- Tools that always fail; the router needs none for a `faux` request. -/
def noTools : Tools := ⟨fun _ => none, fun _ => none, fun _ _ _ => false, fun _ => none, fun _ _ => false⟩

/-- The current agent sends the router a request. -/
def requestEvents : List Event :=
  [.trap 0 someFrame (.call (.send 6 msgLlmReq (.text (CString.bytes "L1|faux|2+2")))), .go 0, .go 0]

/-- The router takes a request. -/
def takeEvents : List Event := [.trap 0 someFrame (.call (.recv false false)), .go 0]

/-- The router replies. -/
def replyEvents (client : Int) : List Event :=
  [.trap 0 someFrame (.call (.send client msgLlmRsp (.text (CString.bytes "L1|4")))), .go 0, .go 0]

/-- The current agent yields or exits, and the next one is dispatched. -/
def switchEvents (t : Trap) : List Event := [.trap 0 someFrame t, .go 0]

/-- The slot, sender and type of a message that `agent_recv` returned. -/
def Note.returned : Note → Option (Fin maxAgents × Int × Int)
  | .popped cur msg false => some (cur, msg.senderId, msg.type)
  | _ => none

theorem Note.returned_eq_some {note : Note} {s : Fin maxAgents} {senderId type : Int}
    (h : note.returned = some (s, senderId, type)) :
    ∃ msg, note = .popped s msg false ∧ msg.senderId = senderId ∧ msg.type = type := by
  unfold Note.returned at h
  split at h
  · rename_i cur msg
    simp only [Option.some.injEq, Prod.mk.injEq] at h
    obtain ⟨rfl, rfl, rfl⟩ := h
    exact ⟨msg, rfl, rfl, rfl⟩
  · cases h

/-- The router replies to every message of the right type. -/
theorem exists_routerReply (tools : Tools) {msg : AgentMsg} (h : msg.type = msgLlmReq) :
    ∃ r, ServiceKind.router.reply tools msg = some r ∧ r.type = msgLlmRsp := by
  show ∃ r, routerReply tools msg = some r ∧ _
  rw [routerReply, taggedReply, if_neg (by rw [h]; decide), if_neg (not_not.mpr h)]
  cases parseBackendReq 'L' msg.text with
  | none => exact ⟨_, rfl, rfl⟩
  | some req => exact ⟨_, rfl, rfl⟩

/-- A run that ends with the router taking a request: the client is live and has
room, so the router is to reply. -/
theorem exists_replying {es : List Event} {client : Fin maxAgents} {senderId : Int}
    (hnote : ((routerBoot.run quotaConfig es).note quotaConfig
      (.trap 0 someFrame (.call (.recv false false)))).returned = some (6, senderId, msgLlmReq))
    (hsender : ((routerBoot.run quotaConfig (es ++ takeEvents)).agents 6).hasCap capSend = true)
    (hclient : agentGet (routerBoot.run quotaConfig (es ++ takeEvents)).toKernel senderId
      = some client)
    (hlive : ((routerBoot.run quotaConfig (es ++ takeEvents)).agents client).state ≠ .zombie)
    (hroom : ((routerBoot.run quotaConfig (es ++ takeEvents)).agents client).inbox.hasRoom
      msgLlmRsp = true) :
    ∃ msg r, Replying quotaConfig routerBoot (es ++ takeEvents) .router noTools 6 client msg r := by
  obtain ⟨msg, hpop, hid, htype⟩ := Note.returned_eq_some hnote
  obtain ⟨r, hr, hrtype⟩ := exists_routerReply noTools htype
  refine ⟨msg, r, ⟨es, _, _, rfl, hpop⟩, hr, hsender, ?_, hlive, ?_⟩
  · rw [hid, hclient]
  · rw [hrtype, hroom]

/-- The first request. -/
def firstEvents : List Event := requestEvents ++ switchEvents .yield

theorem reply_accepted_first :
    ∃ msg r, Replying quotaConfig routerBoot (firstEvents ++ takeEvents) .router noTools 6 1 msg r ∧
      (ReplyAccepted quotaConfig routerBoot (firstEvents ++ takeEvents) 6 1 msg r ↔
        Machine.chargedCount quotaConfig 6 routerBoot (firstEvents ++ takeEvents) < quotaIpcMax ∧
          ServiceKind.router.emptyRead noTools msg = false) := by
  obtain ⟨msg, r, h⟩ := @exists_replying firstEvents 1 1
    (by decide +kernel) (by decide +kernel) (by decide +kernel) (by decide +kernel) (by decide +kernel)
  exact ⟨msg, r, h, reply_accepted_iff quotaConfig rfl routerImage _ _ _ _ _ _ _ _ h⟩

/-- Agent 1 sends 16 requests and the router replies to all of them; agent 1 exits,
and agent 2 sends a request. -/
def muteEvents : List Event :=
  createEvents 0x80400200 ++ (List.replicate 16 requestEvents).flatten ++ switchEvents .yield ++
    (List.replicate 16 (takeEvents ++ replyEvents 1)).flatten ++ switchEvents .yield ++
    switchEvents .exit ++ requestEvents ++ switchEvents .yield

/-- The request is well formed, agent 2 is live and its inbox is empty, and still the
router cannot reply. -/
theorem not_answering_mute :
    ¬ ∀ (es : List Event) (kind : ServiceKind) (tools : Tools) (s client : Fin maxAgents)
        (msg : AgentMsg) (r : Reply),
      Replying quotaConfig routerBoot es kind tools s client msg r →
        ReplyAccepted quotaConfig routerBoot es s client msg r := by
  intro hall
  obtain ⟨msg, r, h⟩ := @exists_replying muteEvents 2 2
    (by decide +kernel) (by decide +kernel) (by decide +kernel) (by decide +kernel) (by decide +kernel)
  obtain ⟨hquota, -⟩ := (agentSend_accepted_iff h.sender h.found h.room).mp (hall _ _ _ _ _ _ _ h)
  exact absurd hquota (by decide +kernel)

end OpenAgentOS
