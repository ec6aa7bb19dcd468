import OpenAgentOS.Lib.Runs
import OpenAgentOS.Svc.Codec

/-!
# Clients that share the statics of agent_svc.c

The user image is mapped once: `vm_create_agent_pt` copies the kernel's root table, and with it
the mapping of `.user.bss`. So the static variables of agent_svc.c, among them the message
buffer that a reply is read from, are one memory for all agents.

- `Rpc.Statics`, `Rpc.State`: the shared variables; what each agent is about to execute, the
  inboxes, and the storage service.
- `Rpc.clientStep`: one statement of `agent_svc_read`, `agent_svc_write` or `svc_recv_match`.
  Statements without a shared variable are part of the one before.
- `Rpc.Unmixed`: calls that return have the body of the service's reply to that very call.
- `Rpc.unmixed_run`: it holds if no agent makes a step while another one is inside a call.
  `Rpc.not_unmixed`: otherwise an agent can return the answer to another agent's call.
-/

namespace OpenAgentOS

open CInt CString Function

namespace Rpc

/-! ## The machine -/

/-- A call with its arguments. The buffer of a read has `space` bytes and one for the NUL. -/
inductive Kind where
  | read (path : CStr) (space : Nat)
  | write (path : CStr) (data : List UInt8)
  deriving DecidableEq

/-- A call, with a number of its own that the code does not have. -/
structure Call where
  id : Nat
  kind : Kind
  deriving DecidableEq

/-- What a call returns: -1 without a reply, -1 because of the reply, the bytes in the buffer of
a read, or the length of a write. -/
inductive Outcome where
  | refused
  | failed
  | data (buf : List UInt8)
  | written
  deriving DecidableEq

/-- A message, and the call that it belongs to. -/
structure Tracked where
  msg : AgentMsg
  client : Fin maxAgents
  call : Nat
  deriving DecidableEq

/-- The static variables of agent_svc.c. -/
structure Statics where
  readSeq : Int
  writeSeq : Int
  readPending : Int
  writePending : Int
  ipcMsg : Tracked
  deferred : Tracked
  haveDeferred : Bool

/-- The statement that an agent executes next, with its local variables. -/
inductive Pc where
  | idle
  /-- `reqid = ++svc_read_seq;` -/
  | count (c : Call)
  /-- `svc_read_pending_id = reqid;` -/
  | pend (c : Call) (reqid : Int)
  /-- The request is built and sent. -/
  | send (c : Call) (reqid : Int)
  /-- The argument `svc_read_pending_id` of `svc_recv_match` is read. -/
  | expect (c : Call)
  /-- `if (svc_have_deferred)` -/
  | head (c : Call) (expectId : Int)
  /-- `svc_ipc_msg = svc_deferred;` -/
  | undefer (c : Call) (expectId : Int)
  /-- `svc_have_deferred = 0;` -/
  | undeferred (c : Call) (expectId : Int)
  /-- `mtype = agent_recv_msg(&svc_ipc_msg);` -/
  | recv (c : Call) (expectId : Int)
  /-- `mtype = svc_ipc_msg.type;` -/
  | type (c : Call) (expectId : Int)
  /-- `if (mtype != expect_type)` -/
  | check (c : Call) (expectId mtype : Int)
  /-- `if (!match_id(svc_ipc_msg.payload, expect_id, body))` -/
  | matches (c : Call) (expectId : Int)
  /-- `svc_deferred = svc_ipc_msg;` -/
  | defer (c : Call) (expectId : Int)
  /-- `svc_have_deferred = 1; agent_yield();` -/
  | deferred (c : Call) (expectId : Int)
  /-- `if (body[0] == 'e' && body[1] == 'r' && body[2] == 'r')` -/
  | test (c : Call) (body : Nat)
  /-- `n = str_len(body);` -/
  | length (c : Call) (body : Nat)
  /-- `buf[i] = body[i];` -/
  | copy (c : Call) (body n : Nat) (buf : List UInt8)
  deriving DecidableEq

structure State where
  statics : Statics
  pc : Fin maxAgents → Pc
  inbox : Fin maxAgents → List Tracked
  /-- The inbox of the storage service, and the request it works on. -/
  requests : List Tracked
  current : Option Tracked
  /-- How many calls there were, the reply to each, and what they returned. -/
  calls : Nat
  replies : Nat → Option AgentMsg
  returns : List (Call × Outcome)

namespace Kind

def seq (s : Statics) : Kind → Int
  | read _ _ => s.readSeq
  | write _ _ => s.writeSeq

def setSeq (s : Statics) (reqid : Int) : Kind → Statics
  | read _ _ => { s with readSeq := reqid }
  | write _ _ => { s with writeSeq := reqid }

def pending (s : Statics) : Kind → Int
  | read _ _ => s.readPending
  | write _ _ => s.writePending

def setPending (s : Statics) (reqid : Int) : Kind → Statics
  | read _ _ => { s with readPending := reqid }
  | write _ _ => { s with writePending := reqid }

/-- The text of the request. -/
def request (reqid : Int) : Kind → Option (List UInt8)
  | read path _ => agentSvcReadReq reqid path
  | write path data => agentSvcWriteReq reqid path data

def msgType : Kind → Int
  | read _ _ => msgFsRead
  | write _ _ => msgFsWrite

/-- What a call returns that has got a body. -/
def outcome (body : List UInt8) (kind : Kind) : Outcome :=
  if hasAt body 0 (bytes "err") then .failed
  else
    match kind with
    | read _ space => .data (body.take space)
    | write _ _ => .written

end Kind

/-- Go on with another statement. -/
def State.goto (s : State) (a : Fin maxAgents) (pc : Pc) : State :=
  { s with pc := update s.pc a pc }

/-- Return from a call. -/
def State.finish (s : State) (a : Fin maxAgents) (c : Call) (o : Outcome) : State :=
  { s.goto a .idle with returns := (c, o) :: s.returns }

/-- Replace the shared variables. -/
def State.setStatics (s : State) (statics : Statics) : State := { s with statics := statics }

/-- The bytes of the shared message buffer. -/
def State.payload (s : State) : List UInt8 := s.statics.ipcMsg.msg.payload.toList

/-- One statement of agent `a`. A receive that finds the inbox empty is tried again. -/
def clientStep (s : State) (a : Fin maxAgents) : State :=
  match s.pc a with
  | .idle => s
  | .count c =>
    let reqid := toInt32 (c.kind.seq s.statics + 1)
    (s.setStatics (c.kind.setSeq s.statics reqid)).goto a (.pend c reqid)
  | .pend c reqid => (s.setStatics (c.kind.setPending s.statics reqid)).goto a (.send c reqid)
  | .send c reqid =>
    match c.kind.request reqid with
    | none => s.finish a c .refused
    | some text =>
      if msgCapacity ≤ s.requests.length then s.finish a c .refused
      else
        let request : Tracked := ⟨.ofText (a : Nat) c.kind.msgType text, a, c.id⟩
        { s with requests := s.requests ++ [request] }.goto a (.expect c)
  | .expect c => s.goto a (.head c (c.kind.pending s.statics))
  | .head c expectId =>
    if s.statics.haveDeferred then s.goto a (.undefer c expectId) else s.goto a (.recv c expectId)
  | .undefer c expectId =>
    (s.setStatics { s.statics with ipcMsg := s.statics.deferred }).goto a (.undeferred c expectId)
  | .undeferred c expectId =>
    (s.setStatics { s.statics with haveDeferred := false }).goto a (.type c expectId)
  | .recv c expectId =>
    match s.inbox a with
    | [] => s
    | m :: rest =>
      let s := { s with inbox := update s.inbox a rest,
                        statics := { s.statics with ipcMsg := m } }
      if m.msg.type < 0 then s.finish a c .refused else s.goto a (.type c expectId)
  | .type c expectId => s.goto a (.check c expectId s.statics.ipcMsg.msg.type)
  | .check c expectId mtype =>
    if mtype ≠ msgFsRsp then s.goto a (.defer c expectId) else s.goto a (.matches c expectId)
  | .matches c expectId =>
    let reply := svcParseRspId s.statics.ipcMsg.msg.payload expectId
    if reply.1 then s.goto a (.test c reply.2) else s.goto a (.defer c expectId)
  | .defer c expectId =>
    (s.setStatics { s.statics with deferred := s.statics.ipcMsg }).goto a (.deferred c expectId)
  | .deferred c expectId =>
    (s.setStatics { s.statics with haveDeferred := true }).goto a (.head c expectId)
  | .test c body =>
    if hasAt s.payload body (bytes "err") then s.finish a c .failed
    else
      match c.kind with
      | .read _ _ => s.goto a (.length c body)
      | .write _ _ => s.finish a c .written
  | .length c body =>
    match c.kind with
    | .read _ space => s.goto a (.copy c body (min (cut (s.payload.drop body)).length space) [])
    | .write _ _ => s
  | .copy c body n buf =>
    if buf.length < n then s.goto a (.copy c body n (buf ++ [charAt s.payload (body + buf.length)]))
    else s.finish a c (.data buf)

/-- `STORAGE_AGENT_ID`. -/
abbrev storageId : Int := 2

/-- The service sends its reply; a full inbox and an empty text are refused. -/
def answer (s : State) (tools : Tools) : State :=
  match s.current with
  | none => s
  | some m =>
    match storageReply tools m.msg with
    | none => { s with current := none }
    | some r =>
      let reply := AgentMsg.ofText storageId r.type r.text
      let s := { s with current := none, replies := update s.replies m.call (some reply) }
      if r.text = [] ∨ msgCapacity ≤ (s.inbox m.client).length then s
      else { s with inbox := update s.inbox m.client
                      (s.inbox m.client ++ [⟨reply, m.client, m.call⟩]) }

/-- Agents that start calls and make steps, and the service that takes requests and answers. -/
inductive Event where
  | call (a : Fin maxAgents) (kind : Kind)
  | step (a : Fin maxAgents)
  | take
  | answer (tools : Tools)

def step (s : State) : Event → State
  | .call a kind =>
    if s.pc a = .idle then { s with calls := s.calls + 1 }.goto a (.count ⟨s.calls, kind⟩) else s
  | .step a => clientStep s a
  | .take =>
    match s.current, s.requests with
    | none, m :: rest => { s with current := some m, requests := rest }
    | _, _ => s
  | .answer tools => answer s tools

/-- A message of zeroes. -/
def zeroMsg : Tracked := ⟨⟨0, 0, Vector.replicate _ 0⟩, 0, 0⟩

/-- The state at the start, with `.user.bss` cleared. -/
def start : State where
  statics := ⟨0, 0, 0, 0, zeroMsg, zeroMsg, false⟩
  pc := fun _ => .idle
  inbox := fun _ => []
  requests := []
  current := none
  calls := 0
  replies := fun _ => none
  returns := []

/-! ## What is claimed -/

/-- The body of a reply. -/
def replyBody (reply : AgentMsg) : List UInt8 :=
  cut (reply.payload.toList.drop (svcParseRspId reply.payload 0).2)

/-- A call that returns with a reply has the body of the service's reply to that call. -/
def Unmixed (s : State) : Prop :=
  ∀ r ∈ s.returns, r.2 = .refused ∨
    ∃ reply, s.replies r.1.id = some reply ∧ r.2 = r.1.kind.outcome (replyBody reply)

/-- No other agent is inside a call, and the counters have not reached their limit. -/
def Alone (s : State) : Event → Prop
  | .call a _ | .step a => (∀ b, b ≠ a → s.pc b = .idle) ∧
      s.statics.readSeq < 2 ^ 31 - 1 ∧ s.statics.writeSeq < 2 ^ 31 - 1
  | .take | .answer _ => True

instance (s : State) (e : Event) : Decidable (Alone s e) :=
  match e with
  | .call _ _ | .step _ => inferInstanceAs (Decidable ((∀ _, _ → _) ∧ _ ∧ _))
  | .take | .answer _ => .isTrue trivial

/-! ## Two agents -/

/-- A file system in which `/a` holds `A` and all other files hold `B`. -/
def abTools : Tools where
  llm := fun _ => none
  http := fun _ => none
  draw := fun _ _ _ => false
  read := fun path => some (if path = bytes "/a" then bytes "A" else bytes "B")
  write := fun _ _ => false

/-- Agent 4 reads `/a` and agent 5 reads `/b`. When agent 4 has found its reply in the buffer,
agent 5 receives its own into the same buffer. -/
def mixedRun : List Event :=
  [Event.call 4 (.read (.lit "/a") 15), .call 5 (.read (.lit "/b") 15)]
    ++ List.replicate 4 (Event.step 4) ++ List.replicate 4 (Event.step 5)
    ++ [Event.take, .answer abTools, .take, .answer abTools]
    ++ List.replicate 5 (Event.step 4) ++ List.replicate 2 (Event.step 5)
    ++ List.replicate 4 (Event.step 4)

/-- Agent 4 returns what agent 5 has asked for. -/
theorem not_unmixed :
    (Runs.run step start mixedRun).returns = [(⟨0, .read (.lit "/a") 15⟩, .data (bytes "B"))] ∧
    ((Runs.run step start mixedRun).replies 0).map replyBody = some (bytes "A") ∧
    ¬ Unmixed (Runs.run step start mixedRun) := by
  obtain ⟨hreturns, hreply⟩ : (Runs.run step start mixedRun).returns =
        [(⟨0, .read (.lit "/a") 15⟩, .data (bytes "B"))] ∧
      ((Runs.run step start mixedRun).replies 0).map replyBody = some (bytes "A") := by
    decide +kernel
  refine ⟨hreturns, hreply, fun h => ?_⟩
  rcases h _ (by rw [hreturns]; exact List.mem_singleton_self _) with hrefused | ⟨reply, hr, hdata⟩
  · exact absurd hrefused nofun
  · rw [hr] at hreply
    rw [Option.some.inj hreply] at hdata
    exact absurd hdata (by decide)

/-! ## Requests and replies of one call -/

/-- A request starts with its id. -/
theorem Kind.request_shape {n : Nat} (hn : n < 2 ^ 31) {kind : Kind} {text : List UInt8}
    (h : kind.request n = some text) :
    ∃ tag rest, (tag = 'R'.toUInt8 ∨ tag = 'W'.toUInt8) ∧
      text = tag :: (decimal n ++ bar :: rest) ∧ text.length ≤ msgPayloadSize - 1 := by
  have hsize : msgPayloadSize = 224 := rfl
  cases kind with
  | read path space =>
    have h : agentSvcReadReq n path = some text := h
    rw [agentSvcReadReq, svcAppendInt_eq hn (by decide)] at h
    dsimp only at h
    split_ifs at h
    obtain rfl := Option.some.inj h
    refine ⟨_, _, .inl rfl, by simp only [List.append_assoc, List.cons_append, List.nil_append]; rfl,
      ?_⟩
    simp only [List.length_append, List.length_singleton, List.length_take] at *
    omega
  | write path data =>
    have h : agentSvcWriteReq n path data = some text := h
    rw [agentSvcWriteReq, svcAppendInt_eq hn (by decide)] at h
    dsimp only at h
    split_ifs at h
    obtain rfl := Option.some.inj h
    refine ⟨_, _, .inr rfl, by simp only [List.append_assoc, List.cons_append, List.nil_append]; rfl,
      ?_⟩
    simp only [List.length_append, List.length_singleton, List.length_take] at *
    omega

/-- **The service answers a request with its id.** -/
theorem Kind.request_replied {n : Nat} (hn : n < 2 ^ 31) {kind : Kind} {text : List UInt8}
    (h : kind.request n = some text) (senderId : Int) (tools : Tools) :
    ∃ body, storageReply tools (.ofText senderId kind.msgType text) =
      some ⟨msgFsRsp, formatFsRsp n body⟩ := by
  obtain ⟨tag, rest, htag, rfl, hlen⟩ := Kind.request_shape hn h
  have hne : tag ≠ 0 := by
    rcases htag with rfl | rfl
    · decide
    · decide
  have hcut : cut (tag :: (decimal n ++ bar :: rest)) = tag :: (decimal n ++ bar :: cut rest) := by
    have happend := cut_append (zero_not_mem_head hne n (List.not_mem_nil (a := 0))) rest
    simpa using happend
  obtain ⟨msg, hmsg⟩ : ∃ msg, AgentMsg.ofText senderId kind.msgType
      (tag :: (decimal n ++ bar :: rest)) = msg := ⟨_, rfl⟩
  have hparse : parseReqId msg.text = ((n : Int), cut rest) := by
    rw [← hmsg, text_ofText _ _ hlen, hcut, parseReqId_decimal hn htag]
  have htype : msg.type = kind.msgType := by rw [← hmsg]; rfl
  rw [hmsg, storageReply, storageReq, htype, hparse]
  cases kind with
  | read path space => exact ⟨_, rfl⟩
  | write path data =>
    have hwrite : (write path data).msgType = msgFsWrite := rfl
    rw [hwrite, if_neg (by decide), if_neg (by decide), if_pos rfl]
    dsimp only
    split
    · exact ⟨_, rfl⟩
    · exact ⟨_, rfl⟩

/-- Where the body starts does not depend on the id that is expected. -/
theorem svcParseRspId_snd (payload : Vector UInt8 msgPayloadSize) (e e' : Int) :
    (svcParseRspId payload e).2 = (svcParseRspId payload e').2 := by
  rw [svcParseRspId, svcParseRspId]
  split_ifs
  · rfl
  · rw [parseIdField, parseIdField]
    split_ifs
    · dsimp only
      split_ifs
      · rfl
      · rfl
    · rfl

/-- A literal is looked for in front of the terminator only. -/
theorem hasAt_cut {pat : List UInt8} (hpat : (0 : UInt8) ∉ pat) (s : List UInt8) :
    hasAt (cut s) 0 pat = hasAt s 0 pat := by
  induction pat generalizing s with
  | nil => rfl
  | cons c cs ih =>
    obtain ⟨hc, hcs⟩ := not_or.mp (mt List.mem_cons.mpr hpat)
    cases s with
    | nil => rfl
    | cons x s =>
      rw [cut, List.takeWhile_cons]
      by_cases hx : x = 0
      · -- the string ends here, and so does the chain
        have hfirst : (charAt (x :: s) 0 == c) = false := by
          rw [charAt_cons_zero, hx]
          exact beq_eq_false_iff_ne.mpr hc
        rw [if_neg (by rw [hx]; decide), hasAt, hasAt, hfirst, Bool.false_and, charAt]
        show ((0 : UInt8) == c && _) = false
        rw [beq_eq_false_iff_ne.mpr hc, Bool.false_and]
      · rw [if_pos (bne_iff_ne.mpr hx), hasAt, hasAt, charAt_cons_zero, charAt_cons_zero]
        have hnext : ∀ t, hasAt (x :: t) (0 + 1) cs = hasAt t 0 cs := fun t =>
          (hasAt_drop (x :: t) cs 1 0).symm
        rw [hnext, hnext]
        exact congrArg (x == c && ·) (ih hcs s)

/-- The bytes in front of the terminator. -/
theorem charAt_cut {s : List UInt8} {i : Nat} (h : i < (cut s).length) :
    charAt s i = (cut s).getD i 0 := by
  obtain ⟨rest, hrest⟩ : ∃ rest, s = cut s ++ rest := ⟨_, (List.takeWhile_append_dropWhile).symm⟩
  conv_lhs => rw [hrest]
  rw [charAt, List.getD_append _ _ _ _ h]

/-! ## One call at a time -/

/-- The messages that are under way: in the inbox of the service, in its hands, in the inboxes of
the agents. -/
def Post (s : State) (requests : List Tracked) (current : Option Tracked)
    (inbox : Fin maxAgents → List Tracked) : Prop :=
  s.requests = requests ∧ s.current = current ∧ s.inbox = inbox

/-- No message is under way. -/
def Quiet (s : State) : Prop := Post s [] none fun _ => []

/-- The call is the last one that was started, and has not returned. -/
def Active (s : State) (c : Call) : Prop :=
  c.id + 1 = s.calls ∧ ∀ r ∈ s.returns, r.1.id < c.id

/-- The request of agent `a` for call `c`. The service answers it with id `n`. -/
structure IsRequest (m : Tracked) (a : Fin maxAgents) (c : Call) (n : Int) : Prop where
  client : m.client = a
  call : m.call = c.id
  replied : ∀ tools, ∃ body, storageReply tools m.msg = some ⟨msgFsRsp, formatFsRsp n body⟩

/-- The reply of the service to call `c`, with id `n`. -/
def IsReply (s : State) (msg : AgentMsg) (c : Call) (n : Int) : Prop :=
  s.replies c.id = some msg ∧ Answers svcParseRspId msgFsRsp n msg

/-- A positive `int`. -/
def IdRange (n : Int) : Prop := 0 < n ∧ n < 2 ^ 31

/-- The request of call `c` or the reply to it is the only message under way. -/
def InFlight (s : State) (a : Fin maxAgents) (c : Call) (n : Int) : Prop :=
  Active s c ∧ IdRange n ∧
    ((∃ m, IsRequest m a c n ∧ (Post s [m] none (fun _ => []) ∨ Post s [] (some m) fun _ => [])) ∨
      ∃ m, IsReply s m.msg c n ∧ Post s [] none (update (fun _ => []) a [m]))

/-- The shared buffer holds the reply to call `c`, and no message is under way. -/
def Received (s : State) (c : Call) (n : Int) : Prop :=
  Quiet s ∧ Active s c ∧ IsReply s s.statics.ipcMsg.msg c n

/-- It holds the reply, with the body at `body`. -/
def Matched (s : State) (c : Call) (body : Nat) : Prop :=
  Quiet s ∧ Active s c ∧ s.replies c.id = some s.statics.ipcMsg.msg ∧
    body = (svcParseRspId s.statics.ipcMsg.msg.payload 0).2

/-- The body is no error. -/
def Succeeded (s : State) (c : Call) (body : Nat) : Prop :=
  Matched s c body ∧ hasAt (replyBody s.statics.ipcMsg.msg) 0 (bytes "err") = false

/-- What holds at each statement of the agent that is inside a call. The deferred slot is never
used. -/
def Phase (s : State) (a : Fin maxAgents) : Pc → Prop
  | .idle => Quiet s ∧ ∀ r ∈ s.returns, r.1.id < s.calls
  | .count c => Quiet s ∧ Active s c
  | .pend c reqid => Quiet s ∧ Active s c ∧ IdRange reqid
  | .send c reqid => Quiet s ∧ Active s c ∧ IdRange reqid ∧ c.kind.pending s.statics = reqid
  | .expect c => InFlight s a c (c.kind.pending s.statics)
  | .head c expectId | .recv c expectId => InFlight s a c expectId
  | .type c expectId | .matches c expectId => Received s c expectId
  | .check c expectId mtype => Received s c expectId ∧ mtype = msgFsRsp
  | .test c body => Matched s c body
  | .length c body => Succeeded s c body
  | .copy c body n buf => Succeeded s c body ∧ ∃ path space, c.kind = .read path space ∧
      n = min (replyBody s.statics.ipcMsg.msg).length space ∧ buf.length ≤ n ∧
      buf = (replyBody s.statics.ipcMsg.msg).take buf.length
  | .undefer _ _ | .undeferred _ _ | .defer _ _ | .deferred _ _ => False

/-- What holds between the calls and inside them. -/
structure Base (s : State) : Prop where
  unmixed : Unmixed s
  haveDeferred : s.statics.haveDeferred = false
  readSeq : 0 ≤ s.statics.readSeq
  writeSeq : 0 ≤ s.statics.writeSeq

/-- At most one agent is inside a call. -/
structure Inv (s : State) : Prop where
  base : Base s
  phase : ∃ a, (∀ b, b ≠ a → s.pc b = .idle) ∧ Phase s a (s.pc a)

theorem inv_start : Inv start where
  base := ⟨nofun, rfl, Int.le_refl 0, Int.le_refl 0⟩
  phase := ⟨0, fun _ _ => rfl, ⟨rfl, rfl, rfl⟩, nofun⟩

/-- If all other agents are outside a call, the agent that is inside one is `a`. -/
theorem Inv.phase_of_idle {s : State} (h : Inv s) {a : Fin maxAgents}
    (hidle : ∀ b, b ≠ a → s.pc b = .idle) : Phase s a (s.pc a) := by
  obtain ⟨b, hb, hphase⟩ := h.phase
  by_cases hab : a = b
  · rw [hab]
    exact hphase
  · rw [hidle b (Ne.symm hab)] at hphase
    rw [hb a hab]
    exact hphase

/-- The phase does not look at the statements of the agents. -/
theorem phase_goto {s : State} {a : Fin maxAgents} {pc pc' : Pc} (h : Phase s a pc) :
    Phase (s.goto a pc') a pc := by
  cases pc <;> exact h

section

variable {s : State} {a : Fin maxAgents} {c : Call}

/-- Going on with another statement of the call. -/
theorem Base.goto (h : Base s) (hidle : ∀ b, b ≠ a → s.pc b = .idle) {pc : Pc}
    (hphase : Phase s a pc) : Inv (s.goto a pc) where
  base := ⟨h.unmixed, h.haveDeferred, h.readSeq, h.writeSeq⟩
  phase := by
    refine ⟨a, fun b hb => ?_, ?_⟩
    · exact (update_of_ne hb pc s.pc).trans (hidle b hb)
    · have hself : (s.goto a pc).pc a = pc := by simp [State.goto]
      rw [hself]
      exact phase_goto hphase

/-- Returning from the call. -/
theorem Base.finish (h : Base s) (hidle : ∀ b, b ≠ a → s.pc b = .idle) (hquiet : Quiet s)
    (hactive : Active s c) {o : Outcome} (ho : o = .refused ∨
      ∃ reply, s.replies c.id = some reply ∧ o = c.kind.outcome (replyBody reply)) :
    Inv (s.finish a c o) := by
  have hids : ∀ r ∈ (c, o) :: s.returns, r.1.id < s.calls := by
    intro r hr
    have hlast := hactive.1
    rcases List.mem_cons.mp hr with rfl | hr
    · show c.id < s.calls
      omega
    · have hold := hactive.2 r hr
      omega
  have hbase : Base { s with returns := (c, o) :: s.returns } := by
    refine ⟨fun r hr => ?_, h.haveDeferred, h.readSeq, h.writeSeq⟩
    rcases List.mem_cons.mp hr with rfl | hr
    · exact ho
    · exact h.unmixed r hr
  have hphase : Phase { s with returns := (c, o) :: s.returns } a .idle := ⟨hquiet, hids⟩
  exact hbase.goto hidle hphase

/-! ### The service -/

/-- If no message is under way, the service does nothing. -/
theorem Quiet.take (h : Quiet s) : step s .take = s := by
  rw [step, h.2.1, h.1]

theorem Quiet.answer (h : Quiet s) (tools : Tools) : step s (.answer tools) = s := by
  show Rpc.answer s tools = s
  rw [Rpc.answer, h.2.1]

/-- What the agents know stays the same, except for the reply to the call. -/
structure Unseen (s s' : State) (c : Call) : Prop where
  statics : s'.statics = s.statics
  pc : s'.pc = s.pc
  calls : s'.calls = s.calls
  returns : s'.returns = s.returns
  replies : ∀ id, id ≠ c.id → s'.replies id = s.replies id

theorem Base.unseen {s' : State} (h : Base s) (hactive : Active s c) (hs : Unseen s s' c) :
    Base s' := by
  refine ⟨fun r hr => ?_, by rw [hs.statics]; exact h.haveDeferred,
    by rw [hs.statics]; exact h.readSeq, by rw [hs.statics]; exact h.writeSeq⟩
  -- the reply to a call that has returned is another one
  rw [hs.returns] at hr
  rw [hs.replies _ (Nat.ne_of_lt (hactive.2 r hr))]
  exact h.unmixed r hr

/-- **The service takes the request.** -/
theorem InFlight.take {n : Int} (h : InFlight s a c n) :
    InFlight (step s .take) a c n ∧ Unseen s (step s .take) c := by
  obtain ⟨hactive, hn, ⟨m, hm, hpost | hpost⟩ | ⟨m, hm, hpost⟩⟩ := h
  · have hstep : step s .take = { s with current := some m, requests := [] } := by
      rw [step, hpost.2.1, hpost.1]
    rw [hstep]
    exact ⟨⟨hactive, hn, .inl ⟨m, hm, .inr ⟨rfl, rfl, hpost.2.2⟩⟩⟩, rfl, rfl, rfl, rfl, fun _ _ => rfl⟩
  · have hstep : step s .take = s := by rw [step, hpost.2.1]
    rw [hstep]
    exact ⟨⟨hactive, hn, .inl ⟨m, hm, .inr hpost⟩⟩, rfl, rfl, rfl, rfl, fun _ _ => rfl⟩
  · have hstep : step s .take = s := by rw [step, hpost.2.1, hpost.1]
    rw [hstep]
    exact ⟨⟨hactive, hn, .inr ⟨m, hm, hpost⟩⟩, rfl, rfl, rfl, rfl, fun _ _ => rfl⟩

/-- **The service answers.** -/
theorem InFlight.answer {n : Int} (h : InFlight s a c n) (tools : Tools) :
    InFlight (Rpc.answer s tools) a c n ∧ Unseen s (Rpc.answer s tools) c := by
  obtain ⟨hactive, hn, ⟨m, hm, hpost | hpost⟩ | ⟨m, hm, hpost⟩⟩ := h
  · have hstep : Rpc.answer s tools = s := by rw [Rpc.answer, hpost.2.1]
    rw [hstep]
    exact ⟨⟨hactive, hn, .inl ⟨m, hm, .inl hpost⟩⟩, rfl, rfl, rfl, rfl, fun _ _ => rfl⟩
  · obtain ⟨body, hbody⟩ := hm.replied tools
    obtain ⟨reply, hreply⟩ : ∃ reply, AgentMsg.ofText storageId msgFsRsp (formatFsRsp n body) = reply :=
      ⟨_, rfl⟩
    have hroom : ¬ (formatFsRsp n body = [] ∨ msgCapacity ≤ ([] : List Tracked).length) := by
      rw [formatFsRsp_eq_nil_iff]
      have hcapacity : ¬ msgCapacity ≤ ([] : List Tracked).length := by decide
      exact not_or.mpr ⟨fun h => absurd h.1 (not_le.mpr hn.1), hcapacity⟩
    have hstep : Rpc.answer s tools = { s with
        current := none, replies := update s.replies c.id (some reply),
        inbox := update (fun _ => []) a [⟨reply, a, c.id⟩] } := by
      rw [Rpc.answer, hpost.2.1]
      simp only [hbody, hm.client, hm.call, hreply, hpost.2.2, List.nil_append]
      rw [if_neg hroom]
    have hanswers : Answers svcParseRspId msgFsRsp n reply := by
      obtain ⟨k, rfl⟩ := Int.eq_ofNat_of_zero_le (Int.le_of_lt hn.1)
      rw [← hreply]
      exact svcParseRspId_formatFsRsp (Int.natCast_pos.mp hn.1) (by exact_mod_cast hn.2) _ _ _
    rw [hstep]
    refine ⟨⟨hactive, hn, .inr ⟨⟨reply, a, c.id⟩, ⟨?_, hanswers⟩, hpost.1, rfl, rfl⟩⟩,
      rfl, rfl, rfl, rfl, fun id hid => ?_⟩
    · exact update_self ..
    · exact update_of_ne hid ..
  · have hstep : Rpc.answer s tools = s := by rw [Rpc.answer, hpost.2.1]
    rw [hstep]
    exact ⟨⟨hactive, hn, .inr ⟨m, hm, hpost⟩⟩, rfl, rfl, rfl, rfl, fun _ _ => rfl⟩

/-- Either no message is under way, or the agent waits for its reply. -/
theorem Phase.quiet_or_waits {pc : Pc} (h : Phase s a pc) : Quiet s ∨
    ∃ c n, InFlight s a c n ∧
      ∀ s', s'.statics = s.statics → InFlight s' a c n → Phase s' a pc := by
  cases pc with
  | idle | count c | pend c reqid | send c reqid | type c e | «matches» c e | test c body =>
    exact .inl h.1
  | check c e mtype | length c body => exact .inl h.1.1
  | copy c body n buf => exact .inl h.1.1.1
  | expect c => exact .inr ⟨c, _, h, fun s' hs h' => by rw [Phase, hs]; exact h'⟩
  | head c e | recv c e => exact .inr ⟨c, e, h, fun s' _ h' => h'⟩
  | undefer c e | undeferred c e | defer c e | deferred c e => exact h.elim

/-- The agents do not notice that the service works. -/
theorem Inv.service (h : Inv s) {e : Event} (hquiet : Quiet s → step s e = s)
    (hwaits : ∀ a c n, InFlight s a c n → InFlight (step s e) a c n ∧ Unseen s (step s e) c) :
    Inv (step s e) := by
  obtain ⟨a, hidle, hphase⟩ := h.phase
  rcases hphase.quiet_or_waits with hq | ⟨c, n, hflight, hphase'⟩
  · rw [hquiet hq]
    exact h
  · obtain ⟨hflight', hunseen⟩ := hwaits a c n hflight
    refine ⟨h.base.unseen hflight.1 hunseen, a, ?_⟩
    rw [hunseen.pc]
    exact ⟨hidle, hphase' _ hunseen.statics hflight'⟩

/-! ### The client -/

/-- The next id. -/
theorem Base.seq_nonneg (h : Base s) (kind : Kind) : 0 ≤ kind.seq s.statics := by
  cases kind with
  | read path space => exact h.readSeq
  | write path data => exact h.writeSeq

theorem Base.setSeq (h : Base s) (kind : Kind) {n : Int} (hn : 0 ≤ n) :
    Base (s.setStatics (kind.setSeq s.statics n)) := by
  cases kind with
  | read path space => exact ⟨h.unmixed, h.haveDeferred, hn, h.writeSeq⟩
  | write path data => exact ⟨h.unmixed, h.haveDeferred, h.readSeq, hn⟩

theorem Base.setPending (h : Base s) (kind : Kind) (n : Int) :
    Base (s.setStatics (kind.setPending s.statics n)) := by
  cases kind with
  | read path space => exact ⟨h.unmixed, h.haveDeferred, h.readSeq, h.writeSeq⟩
  | write path data => exact ⟨h.unmixed, h.haveDeferred, h.readSeq, h.writeSeq⟩

@[simp] theorem Kind.pending_setPending (statics : Statics) (n : Int) (kind : Kind) :
    kind.pending (kind.setPending statics n) = n := by
  cases kind with
  | read path space => rfl
  | write path data => rfl

/-- `++svc_read_seq` below the limit. -/
theorem Base.count (h : Base s) (hlimit : s.statics.readSeq < 2 ^ 31 - 1 ∧
      s.statics.writeSeq < 2 ^ 31 - 1) (kind : Kind) :
    toInt32 (kind.seq s.statics + 1) = kind.seq s.statics + 1 ∧
      IdRange (kind.seq s.statics + 1) := by
  have hlt : kind.seq s.statics < 2 ^ 31 - 1 := by
    cases kind with
    | read path space => exact hlimit.1
    | write path data => exact hlimit.2
  have hnonneg := h.seq_nonneg kind
  constructor
  · exact toInt32_eq_self (by omega) (by omega)
  · constructor
    · omega
    · omega

/-- The test for `err` looks at the body. -/
theorem Matched.hasAt_err {body : Nat} (h : Matched s c body) :
    hasAt s.payload body (bytes "err") =
      hasAt (replyBody s.statics.ipcMsg.msg) 0 (bytes "err") := by
  have hbody : hasAt s.payload body (bytes "err") = hasAt (s.payload.drop body) 0 (bytes "err") :=
    (hasAt_drop s.payload _ body 0).symm
  rw [hbody, h.2.2.2]
  exact (hasAt_cut (by decide) _).symm

/-- The bytes that are copied are those of the body. -/
theorem Matched.charAt_body {body i : Nat} (h : Matched s c body)
    (hi : i < (replyBody s.statics.ipcMsg.msg).length) :
    charAt s.payload (body + i) = (replyBody s.statics.ipcMsg.msg).get ⟨i, hi⟩ := by
  rw [← charAt_drop, h.2.2.2]
  exact (charAt_cut hi).trans (List.getD_eq_getElem _ _ hi)

/-- **The request is sent.** Nothing is under way, so there is room for it. -/
theorem Base.send (h : Base s) (hidle : ∀ b, b ≠ a → s.pc b = .idle) {reqid : Int}
    (hpc : s.pc a = .send c reqid) (hphase : Phase s a (.send c reqid)) :
    Inv (clientStep s a) := by
  obtain ⟨hquiet, hactive, hid, hpending⟩ := hphase
  rw [clientStep, hpc]
  dsimp only
  cases htext : c.kind.request reqid with
  | none => exact h.finish hidle hquiet hactive (.inl rfl)
  | some text =>
    have hroom : ¬ msgCapacity ≤ s.requests.length := by
      rw [hquiet.1]
      decide
    dsimp only
    rw [if_neg hroom]
    refine Base.goto (s := { s with requests := s.requests ++ [_] })
      ⟨h.unmixed, h.haveDeferred, h.readSeq, h.writeSeq⟩ hidle ?_
    refine ⟨hactive, by rw [hpending]; exact hid, .inl
      ⟨⟨.ofText (a : Nat) c.kind.msgType text, a, c.id⟩, ⟨rfl, rfl, fun tools => ?_⟩,
        .inl ⟨?_, hquiet.2⟩⟩⟩
    · obtain ⟨k, rfl⟩ := Int.eq_ofNat_of_zero_le (Int.le_of_lt hid.1)
      rw [hpending]
      exact Kind.request_replied (by exact_mod_cast hid.2) htext _ tools
    · show s.requests ++ _ = _
      rw [hquiet.1]
      rfl

/-- **The reply is received**, as soon as it is there. -/
theorem Base.recv (h : Base s) (hidle : ∀ b, b ≠ a → s.pc b = .idle) {n : Int}
    (hpc : s.pc a = .recv c n) (hphase : Phase s a (.recv c n)) : Inv (clientStep s a) := by
  obtain ⟨hactive, hn, ⟨m, hm, hpost | hpost⟩ | ⟨m, hm, hpost⟩⟩ := hphase
  -- the inbox is empty: the receive is tried again
  · have hstep : clientStep s a = s := by rw [clientStep, hpc]; simp only [hpost.2.2]
    rw [hstep]
    exact ⟨h, a, hidle, by rw [hpc]; exact ⟨hactive, hn, .inl ⟨m, hm, .inl hpost⟩⟩⟩
  · have hstep : clientStep s a = s := by rw [clientStep, hpc]; simp only [hpost.2.2]
    rw [hstep]
    exact ⟨h, a, hidle, by rw [hpc]; exact ⟨hactive, hn, .inl ⟨m, hm, .inr hpost⟩⟩⟩
  · have hinbox : s.inbox a = [m] := by rw [hpost.2.2, update_self]
    have htype : ¬ m.msg.type < 0 := by rw [hm.2.1]; decide
    rw [clientStep, hpc]
    simp only [hinbox]
    rw [if_neg htype]
    refine Base.goto (s := { s with inbox := _, statics := { s.statics with ipcMsg := m } })
      ⟨h.unmixed, h.haveDeferred, h.readSeq, h.writeSeq⟩ hidle ?_
    refine ⟨⟨hpost.1, hpost.2.1, ?_⟩, hactive, hm⟩
    show update s.inbox a [] = _
    rw [hpost.2.2, update_idem, update_eq_self]

/-- **The body is copied.** -/
theorem Base.copy (h : Base s) (hidle : ∀ b, b ≠ a → s.pc b = .idle) {body n : Nat}
    {buf : List UInt8} (hpc : s.pc a = .copy c body n buf) (hphase : Phase s a (.copy c body n buf)) :
    Inv (clientStep s a) := by
  obtain ⟨hok, path, space, hkind, hn, hle, hbuf⟩ := hphase
  obtain ⟨hmatched, herr⟩ := hok
  rw [clientStep, hpc]
  dsimp only
  by_cases hlt : buf.length < n
  · have hi : buf.length < (replyBody s.statics.ipcMsg.msg).length := by omega
    rw [if_pos hlt, hmatched.charAt_body hi]
    refine h.goto hidle ⟨⟨hmatched, herr⟩, path, space, hkind, hn, ?_, ?_⟩
    · rw [List.length_append, List.length_singleton]
      omega
    · rw [List.length_append, List.length_singleton, List.take_add_one, ← hbuf,
        List.getElem?_eq_getElem hi]
      rfl
  · rw [if_neg hlt]
    refine h.finish hidle hmatched.1 hmatched.2.1 (.inr ⟨_, hmatched.2.2.1, ?_⟩)
    have hlen : buf.length = min (replyBody s.statics.ipcMsg.msg).length space := by omega
    unfold Kind.outcome
    rw [if_neg (by rw [herr]; exact Bool.false_ne_true), hkind]
    rw [hlen] at hbuf
    rw [hbuf]
    simp only [Outcome.data.injEq]
    rw [Nat.min_comm, ← List.take_take, List.take_length]

/-- **One statement of the agent that is inside a call keeps the invariant.** -/
theorem Inv.client (h : Inv s) (hidle : ∀ b, b ≠ a → s.pc b = .idle)
    (hlimit : s.statics.readSeq < 2 ^ 31 - 1 ∧ s.statics.writeSeq < 2 ^ 31 - 1) :
    Inv (clientStep s a) := by
  have hphase := h.phase_of_idle hidle
  cases hpc : s.pc a with
  | idle =>
    rw [clientStep, hpc]
    exact h
  | count c =>
    rw [hpc] at hphase
    obtain ⟨hseq, hrange⟩ := h.base.count hlimit c.kind
    rw [clientStep, hpc]
    simp only [hseq]
    have hbase := h.base.setSeq c.kind (Int.le_of_lt hrange.1)
    exact hbase.goto hidle ⟨hphase.1, hphase.2, hrange⟩
  | pend c reqid =>
    rw [hpc] at hphase
    rw [clientStep, hpc]
    have hbase := h.base.setPending c.kind reqid
    exact hbase.goto hidle ⟨hphase.1, hphase.2.1, hphase.2.2, Kind.pending_setPending _ _ _⟩
  | send c reqid => exact h.base.send hidle hpc (by rw [← hpc]; exact hphase)
  | expect c =>
    rw [hpc] at hphase
    rw [clientStep, hpc]
    exact h.base.goto hidle hphase
  | head c n =>
    rw [hpc] at hphase
    rw [clientStep, hpc]
    simp only [h.base.haveDeferred]
    exact h.base.goto hidle hphase
  | recv c n => exact h.base.recv hidle hpc (by rw [← hpc]; exact hphase)
  | type c n =>
    rw [hpc] at hphase
    rw [clientStep, hpc]
    exact h.base.goto hidle ⟨hphase, hphase.2.2.2.1⟩
  | check c n mtype =>
    rw [hpc] at hphase
    rw [clientStep, hpc]
    simp only [hphase.2]
    exact h.base.goto hidle hphase.1
  | «matches» c n =>
    rw [hpc] at hphase
    obtain ⟨hquiet, hactive, hreply, htype, hid⟩ := hphase
    rw [clientStep, hpc]
    simp only [hid]
    exact h.base.goto hidle ⟨hquiet, hactive, hreply, svcParseRspId_snd _ _ _⟩
  | test c body =>
    rw [hpc] at hphase
    rw [clientStep, hpc]
    dsimp only
    rw [hphase.hasAt_err]
    cases herr : hasAt (replyBody s.statics.ipcMsg.msg) 0 (bytes "err") with
    | true =>
      refine h.base.finish hidle hphase.1 hphase.2.1 (.inr ⟨_, hphase.2.2.1, ?_⟩)
      unfold Kind.outcome
      rw [if_pos herr]
    | false =>
      rw [if_neg Bool.false_ne_true]
      cases hkind : c.kind with
      | read path space => exact h.base.goto hidle ⟨hphase, herr⟩
      | write path data =>
        refine h.base.finish hidle hphase.1 hphase.2.1 (.inr ⟨_, hphase.2.2.1, ?_⟩)
        unfold Kind.outcome
        rw [if_neg (by rw [herr]; exact Bool.false_ne_true), hkind]
  | length c body =>
    rw [hpc] at hphase
    rw [clientStep, hpc]
    dsimp only
    cases hkind : c.kind with
    | read path space =>
      refine h.base.goto hidle ⟨hphase, path, space, hkind, ?_, Nat.zero_le _, rfl⟩
      rw [replyBody, ← hphase.1.2.2.2]
      rfl
    | write path data => exact h
  | copy c body n buf => exact h.base.copy hidle hpc (by rw [← hpc]; exact hphase)
  | undefer c n | undeferred c n | defer c n | deferred c n =>
    rw [hpc] at hphase
    exact hphase.elim

/-- **An agent starts a call.** -/
theorem Inv.call (h : Inv s) (hidle : ∀ b, b ≠ a → s.pc b = .idle) (kind : Kind) :
    Inv (step s (.call a kind)) := by
  rw [step]
  split_ifs with hpc
  · have hphase := h.phase_of_idle hidle
    rw [hpc] at hphase
    refine Base.goto (s := { s with calls := s.calls + 1 })
      ⟨h.base.unmixed, h.base.haveDeferred, h.base.readSeq, h.base.writeSeq⟩ hidle ?_
    exact ⟨hphase.1, rfl, hphase.2⟩
  · exact h

end

/-- One event keeps the invariant, if no other agent is inside a call. -/
theorem Inv.step {s : State} (h : Inv s) {e : Event} (he : Alone s e) : Inv (step s e) := by
  cases e with
  | call a kind => exact h.call he.1 kind
  | step a => exact h.client he.1 he.2
  | take => exact h.service Quiet.take fun a c n hflight => hflight.take
  | answer tools =>
    exact h.service (fun hq => hq.answer tools) fun a c n hflight => hflight.answer tools

/-- **Calls that do not overlap are not mixed.** If no other agent is inside a call whenever an
agent starts a call or makes a step in it, and the counters stay below their limit, every call
that returns does so with the body of the service's reply to that call. -/
theorem unmixed_run {es : List Event} (h : Runs.Along step Alone start es) :
    Unmixed (Runs.run step start es) :=
  (h.invariant (fun _ _ he hinv => hinv.step he) inv_start).base.unmixed

/-- Agent 4 reads `/a`, and then agent 5 reads `/b`. -/
def apartRun : List Event :=
  let call (a : Fin maxAgents) (path : CStr) : List Event :=
    .call a (.read path 15) :: (List.replicate 4 (.step a) ++ [.take, .answer abTools]
      ++ List.replicate 9 (.step a))
  call 4 (.lit "/a") ++ call 5 (.lit "/b")

theorem unmixed_run_apart : Runs.Along step Alone start apartRun ∧
    (Runs.run step start apartRun).returns =
      [(⟨1, .read (.lit "/b") 15⟩, .data (bytes "B")), (⟨0, .read (.lit "/a") 15⟩, .data (bytes "A"))] ∧
    Unmixed (Runs.run step start apartRun) := by
  obtain ⟨halone, hreturns⟩ : Runs.Along step Alone start apartRun ∧
      (Runs.run step start apartRun).returns =
        [(⟨1, .read (.lit "/b") 15⟩, .data (bytes "B")),
          (⟨0, .read (.lit "/a") 15⟩, .data (bytes "A"))] := by
    decide +kernel
  exact ⟨halone, hreturns, unmixed_run halone⟩

end Rpc

end OpenAgentOS
