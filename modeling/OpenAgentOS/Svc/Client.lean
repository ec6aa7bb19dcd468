import OpenAgentOS.Ipc.Msgbox

/-!
# The receiving side of the service client (user/agent_svc.c)

A client sends a request to a service agent and waits in `svc_recv_match` for
the reply that carries its request id. Messages that are not that reply are put
into a one-slot buffer, `svc_deferred`, which the next round of the same loop
reads back before it looks at the inbox.

- `SvcClient`: the statics of `agent_svc.c`, the inbox the kernel keeps for the
  client, and what other agents send to it in the future.
- `pending`: the messages the client has yet to receive, in the order it
  receives them.
- `RecvMatchCorrect`: what a caller expects of `svc_recv_match`.
- `recvMatchCorrect_iff`: it holds exactly when the *first* pending message is
  the awaited reply. Any other message in front of it is deferred and taken
  back for ever (`svcRecvMatch_deferred_stuck`).
-/

namespace OpenAgentOS

open CInt CString

/-! ## Reply parsers -/

/-- A reply parser `int (*)(const char *payload, int expect_id, const char **body)`:
the verdict, and the offset of the body in the payload. -/
abbrev MatchId := Vector UInt8 msgPayloadSize → Int → Bool × Nat

/-- What all parsers do behind the tag: a decimal request id and a `|`. -/
def parseIdField (s : List UInt8) (expectId : Int) : Bool × Nat :=
  if isDigit (charAt s 1) then
    let (id, rest) := scanInt 0 (s.drop 1)
    let i := s.length - rest.length
    if charAt s i = '|'.toUInt8 then (id == expectId, i + 1) else (false, 0)
  else (false, 0)

/-- The parsers of a single tag. -/
def svcParseTagged (tag : Char) : MatchId := fun payload expectId =>
  if charAt payload.toList 0 = tag.toUInt8 then parseIdField payload.toList expectId
  else (false, 0)

/-- `svc_parse_rsp_id` (libagent.h:193): two tags, and a reply without a tag
answers the request id 0. -/
def svcParseRspId : MatchId := fun payload expectId =>
  if charAt payload.toList 0 ≠ 'R'.toUInt8 ∧ charAt payload.toList 0 ≠ 'W'.toUInt8 then
    (expectId == 0, 0)
  else parseIdField payload.toList expectId

/-- `svc_parse_llm_rsp` (agent_svc.c:118). -/
def svcParseLlmRsp : MatchId := svcParseTagged 'L'

/-- `svc_parse_http_rsp` (agent_svc.c:190). -/
def svcParseHttpRsp : MatchId := svcParseTagged 'H'

/-- `svc_parse_display_rsp` (agent_svc.c:261). -/
def svcParseDisplayRsp : MatchId := svcParseTagged 'D'

/-- `svc_parse_input_rsp` (agent_svc.c:326). -/
def svcParseInputRsp : MatchId := svcParseTagged 'I'

/-! ## The client and its inbox -/

/-- A client: the statics of `agent_svc.c`, its inbox, and what will be sent to
it. `arrivals` lists the messages other agents send between one receive attempt
of the client and the next, whether it spends that time in `agent_yield` or not. -/
structure SvcClient where
  inbox : Msgbox
  arrivals : List (List AgentMsg)
  svcIpcMsg : AgentMsg
  svcDeferred : AgentMsg
  svcHaveDeferred : Bool

/-- Senders push their messages one after the other; a full ring refuses. -/
def deliver (box : Msgbox) (msgs : List AgentMsg) : Msgbox :=
  msgs.foldl (fun box msg => (msgboxPush box msg).2) box

/-- The inbox becomes `box`, and then the next batch arrives. -/
def SvcClient.elapse (c : SvcClient) (box : Msgbox) : SvcClient :=
  { c with inbox := deliver box (c.arrivals.headD []), arrivals := c.arrivals.tail }

/-- `sys_agent_recv(&svc_ipc_msg)` (agent.c:259) for an agent with `CAP_RECV`:
the message type, or `EAGAIN` when the inbox is empty. -/
def sysAgentRecv (c : SvcClient) : Int × SvcClient :=
  match msgboxPop c.inbox with
  | (.ok msg, box) => (msg.type, { c.elapse box with svcIpcMsg := msg })
  | (.error _, box) => (eagain, c.elapse box)

/-- `agent_recv_msg` (libagent.h:41): retry while the result is `EAGAIN`. -/
def agentRecvMsg : Nat → SvcClient → Option (Int × SvcClient)
  | 0, _ => none
  | fuel + 1, c =>
    if (sysAgentRecv c).1 = eagain then agentRecvMsg fuel (sysAgentRecv c).2
    else some (sysAgentRecv c)

/-- `svc_deferred = svc_ipc_msg; svc_have_deferred = 1;` -/
def SvcClient.defer (c : SvcClient) : SvcClient :=
  { c with svcDeferred := c.svcIpcMsg, svcHaveDeferred := true }

/-- The head of the loop (agent_svc.c:17–24): the deferred message if there is
one, else the next one of the inbox. A negative code means failure. -/
def svcTake (fuel : Nat) (c : SvcClient) : Option (Int × SvcClient) :=
  if c.svcHaveDeferred then
    some (0, { c with svcIpcMsg := c.svcDeferred, svcHaveDeferred := false })
  else agentRecvMsg fuel c

/-- `svc_recv_match` (agent_svc.c:12): the error code, or the offset of the body
in `svc_ipc_msg.payload`. `none` means that `fuel` rounds were not enough. -/
def svcRecvMatch (matchId : MatchId) (expectType expectId : Int) :
    Nat → SvcClient → Option (Except Int Nat × SvcClient)
  | 0, _ => none
  | fuel + 1, c =>
    match svcTake fuel c with
    | none => none
    | some (mtype, c) =>
      if mtype < 0 then some (.error (-1), c)
      else if c.svcIpcMsg.type ≠ expectType then
        svcRecvMatch matchId expectType expectId fuel c.defer
      else
        let reply := matchId c.svcIpcMsg.payload expectId
        if reply.1 then some (.ok reply.2, c)
        else svcRecvMatch matchId expectType expectId fuel c.defer

/-! ## What the client has yet to receive -/

/-- The stored messages in the order `msgbox_pop` hands them out. -/
def Msgbox.backlog (box : Msgbox) : List AgentMsg :=
  box.steer.contents ++ box.normal.contents

/-- The messages receive attempts take from the inbox, one attempt per batch and
then until the inbox is empty. -/
def received : Msgbox → List (List AgentMsg) → List AgentMsg
  | box, [] => box.backlog
  | box, batch :: arrivals =>
    match msgboxPop box with
    | (.ok msg, box) => msg :: received (deliver box batch) arrivals
    | (.error _, box) => received (deliver box batch) arrivals

/-- The messages the client has yet to receive: the deferred one first. -/
def SvcClient.pending (c : SvcClient) : List AgentMsg :=
  (if c.svcHaveDeferred then [c.svcDeferred] else []) ++ received c.inbox c.arrivals

/-- A pop takes the head of the backlog; it fails only on an empty box. -/
theorem msgboxPop_cases (box : Msgbox) :
    (∃ msg box', msgboxPop box = (.ok msg, box') ∧ box.backlog = msg :: box'.backlog) ∨
      (msgboxPop box = (.error eagain, box) ∧ box.backlog = []) := by
  by_cases hs : 0 < box.steer.count
  · refine .inl ⟨_, _, if_pos hs, ?_⟩
    rw [Msgbox.backlog, RingBuffer.contents_popFront hs]
    rfl
  · have hsteer : box.steer.contents = [] := RingBuffer.contents_eq_nil (by omega)
    by_cases hn : box.normal.count = 0
    · refine .inr ⟨by rw [msgboxPop, if_neg hs, if_pos hn], ?_⟩
      rw [Msgbox.backlog, hsteer, RingBuffer.contents_eq_nil hn]
      rfl
    · refine .inl ⟨_, _, by rw [msgboxPop, if_neg hs, if_neg hn], ?_⟩
      rw [Msgbox.backlog, hsteer, RingBuffer.contents_popFront (Nat.pos_of_ne_zero hn)]
      show box.normal.front :: _ = box.normal.front :: (box.steer.contents ++ _)
      rw [hsteer]
      rfl

/-- One receive attempt either takes the first message to come, or finds the
inbox empty and leaves that sequence alone. -/
theorem sysAgentRecv_cases (c : SvcClient) :
    (∃ msg c', sysAgentRecv c = (msg.type, c') ∧ c'.svcIpcMsg = msg ∧
        c'.svcHaveDeferred = c.svcHaveDeferred ∧
        received c.inbox c.arrivals = msg :: received c'.inbox c'.arrivals) ∨
      (∃ c', sysAgentRecv c = (eagain, c') ∧ c'.arrivals = c.arrivals.tail ∧
        c'.svcHaveDeferred = c.svcHaveDeferred ∧
        received c.inbox c.arrivals = received c'.inbox c'.arrivals ∧
        (c.arrivals = [] → received c.inbox c.arrivals = [])) := by
  obtain ⟨msg, box', hpop, hback⟩ | ⟨hpop, hback⟩ := msgboxPop_cases c.inbox
  · refine .inl ⟨msg, { c.elapse box' with svcIpcMsg := msg },
      by rw [sysAgentRecv, hpop], rfl, rfl, ?_⟩
    show _ = msg :: received (deliver box' (c.arrivals.headD [])) c.arrivals.tail
    cases c.arrivals with
    | nil => exact hback
    | cons batch arrivals => rw [received, hpop]; rfl
  · refine .inr ⟨c.elapse c.inbox, by rw [sysAgentRecv, hpop], rfl, rfl, ?_, ?_⟩
    · show _ = received (deliver c.inbox (c.arrivals.headD [])) c.arrivals.tail
      cases c.arrivals with
      | nil => rfl
      | cons batch arrivals => rw [received, hpop]; rfl
    · intro hnil
      rw [hnil]
      exact hback

/-- A receive that returns has thrown away nothing but messages of type `EAGAIN`
in front of the one it delivers. -/
theorem agentRecvMsg_some {fuel : Nat} {c c' : SvcClient} {rc : Int}
    (h : agentRecvMsg fuel c = some (rc, c')) :
    ∃ lost, received c.inbox c.arrivals
        = lost ++ c'.svcIpcMsg :: received c'.inbox c'.arrivals ∧
      (∀ x ∈ lost, x.type = eagain) ∧ c'.svcIpcMsg.type = rc ∧ c'.svcHaveDeferred = c.svcHaveDeferred := by
  induction fuel generalizing c with
  | zero => exact absurd h (by simp [agentRecvMsg])
  | succ fuel ih =>
    rw [agentRecvMsg] at h
    obtain ⟨msg, c₁, hrecv, hmsg, hdef, hseq⟩ | ⟨c₁, hrecv, -, hdef, hseq, -⟩ :=
      sysAgentRecv_cases c
    · rw [hrecv] at h
      by_cases htype : msg.type = eagain
      · rw [if_pos htype] at h
        obtain ⟨lost, hlost, hall, hrc, hd⟩ := ih h
        exact ⟨msg :: lost, by rw [hseq, hlost]; rfl,
          List.forall_mem_cons.mpr ⟨htype, hall⟩, hrc, hd.trans hdef⟩
      · rw [if_neg htype] at h
        cases h
        exact ⟨[], by rw [hseq, hmsg]; rfl, by simp, by rw [hmsg], hdef⟩
    · rw [hrecv, if_pos rfl] at h
      obtain ⟨lost, hlost, hall, hrc, hd⟩ := ih h
      exact ⟨lost, by rw [hseq, hlost], hall, hrc, hd.trans hdef⟩

/-- The next message to come is received after at most as many attempts as
there are batches left. -/
theorem agentRecvMsg_of_received {c : SvcClient} {msg : AgentMsg} {rest : List AgentMsg}
    (hseq : received c.inbox c.arrivals = msg :: rest) (htype : msg.type ≠ eagain) :
    ∃ c', agentRecvMsg (c.arrivals.length + 1) c = some (msg.type, c') ∧
      c'.svcIpcMsg = msg ∧ c'.svcHaveDeferred = c.svcHaveDeferred ∧
      received c'.inbox c'.arrivals = rest := by
  induction hn : c.arrivals.length generalizing c with
  | zero =>
    have hnil : c.arrivals = [] := List.eq_nil_of_length_eq_zero hn
    obtain ⟨msg', c₁, hrecv, hmsg, hdef, hnext⟩ | ⟨c₁, -, -, -, -, hempty⟩ :=
      sysAgentRecv_cases c
    · obtain ⟨rfl, rfl⟩ := List.cons.inj (hseq.symm.trans hnext)
      exact ⟨c₁, by rw [agentRecvMsg, hrecv, if_neg htype], hmsg, hdef, rfl⟩
    · rw [hempty hnil] at hseq
      exact absurd hseq (by simp)
  | succ n ih =>
    obtain ⟨msg', c₁, hrecv, hmsg, hdef, hnext⟩ | ⟨c₁, hrecv, harr, hdef, hnext, -⟩ :=
      sysAgentRecv_cases c
    · obtain ⟨rfl, rfl⟩ := List.cons.inj (hseq.symm.trans hnext)
      exact ⟨c₁, by rw [agentRecvMsg, hrecv, if_neg htype], hmsg, hdef, rfl⟩
    · have hlen : c₁.arrivals.length = n := by rw [harr, List.length_tail, hn]; rfl
      obtain ⟨c', hrec, hmsg, hd, hrest⟩ := ih (hnext.symm.trans hseq) hlen
      exact ⟨c', by rw [agentRecvMsg, hrecv, if_pos rfl, hrec], hmsg, hd.trans hdef, hrest⟩

/-! ## When the awaited reply is found -/

section Matching

variable (matchId : MatchId) (expectType expectId : Int)

/-- `msg` is the reply the call waits for. -/
def Answers (msg : AgentMsg) : Prop :=
  msg.type = expectType ∧ (matchId msg.payload expectId).1 = true

/-- What a caller expects of `svc_recv_match`: if a reply is to come, the call
returns, delivers the body of the first one, and leaves all other messages to
later receives, each once and in order. -/
def RecvMatchCorrect (c : SvcClient) : Prop :=
  ∀ before msg after, c.pending = before ++ msg :: after →
    (∀ x ∈ before, ¬ Answers matchId expectType expectId x) →
    Answers matchId expectType expectId msg →
    ∃ fuel c', svcRecvMatch matchId expectType expectId fuel c
        = some (.ok (matchId msg.payload expectId).2, c') ∧
      c'.svcIpcMsg = msg ∧ c'.pending = before ++ after

/-- The first pending message is the reply; taken from the inbox, its type is no
error code. -/
def FirstAnswers (c : SvcClient) : Prop :=
  ∃ msg after, c.pending = msg :: after ∧ Answers matchId expectType expectId msg ∧
    (c.svcHaveDeferred = true ∨ 0 ≤ expectType)

variable {matchId expectType expectId}

/-- The head of the loop takes the first pending message, after losing those of
type `EAGAIN` in front of it. -/
theorem svcTake_some {fuel : Nat} {c c' : SvcClient} {mtype : Int}
    (h : svcTake fuel c = some (mtype, c')) (hok : 0 ≤ mtype) :
    ∃ lost, c.pending = lost ++ c'.svcIpcMsg :: c'.pending ∧
      (∀ x ∈ lost, x.type = eagain) ∧
      (c.svcHaveDeferred = true ∨ 0 ≤ c'.svcIpcMsg.type) := by
  rw [svcTake] at h
  by_cases hdef : c.svcHaveDeferred = true
  · rw [if_pos hdef] at h
    cases h
    exact ⟨[], by simp [SvcClient.pending, hdef], by simp, .inl hdef⟩
  · rw [if_neg hdef] at h
    obtain ⟨lost, hseq, hall, htype, hd⟩ := agentRecvMsg_some h
    have hnone : c.svcHaveDeferred = false := by simpa using hdef
    refine ⟨lost, ?_, hall, .inr (htype ▸ hok)⟩
    simp [SvcClient.pending, hd, hnone, hseq]

/-- A message put aside that is not the reply is taken back at once and put
aside again: the call never returns. -/
theorem svcRecvMatch_deferred_stuck (fuel : Nat) {c : SvcClient}
    (hdef : c.svcHaveDeferred = true)
    (hno : ¬ Answers matchId expectType expectId c.svcDeferred) :
    svcRecvMatch matchId expectType expectId fuel c = none := by
  induction fuel generalizing c with
  | zero => rfl
  | succ fuel ih =>
    rw [svcRecvMatch, svcTake, if_pos hdef]
    dsimp only
    rw [if_neg (by decide)]
    by_cases htype : c.svcDeferred.type = expectType
    · rw [if_neg (not_not.mpr htype), if_neg fun hm => hno ⟨htype, hm⟩]
      exact ih rfl hno
    · rw [if_pos htype]
      exact ih rfl hno

/-- A call that succeeds has taken the reply right away; only messages of type
`EAGAIN` were lost in front of it. -/
theorem svcRecvMatch_ok {fuel body : Nat} {c c' : SvcClient}
    (h : svcRecvMatch matchId expectType expectId fuel c = some (.ok body, c')) :
    ∃ lost msg, c.pending = lost ++ msg :: c'.pending ∧
      (∀ x ∈ lost, x.type = eagain) ∧ Answers matchId expectType expectId msg ∧
      (c.svcHaveDeferred = true ∨ 0 ≤ expectType) := by
  cases fuel with
  | zero => exact absurd h (by simp [svcRecvMatch])
  | succ fuel =>
    rw [svcRecvMatch] at h
    split at h
    · exact absurd h (by simp)
    · rename_i mtype c₁ htake
      by_cases hneg : mtype < 0
      · rw [if_pos hneg] at h
        exact absurd h (by simp)
      · rw [if_neg hneg] at h
        obtain ⟨lost, hpend, hall, hnn⟩ := svcTake_some htake (Int.not_lt.mp hneg)
        by_cases hans : Answers matchId expectType expectId c₁.svcIpcMsg
        · rw [if_neg (not_not.mpr hans.1), if_pos hans.2] at h
          cases h
          exact ⟨lost, _, hpend, hall, hans, hans.1 ▸ hnn⟩
        · -- not the reply: from here on the call is stuck
          have hstuck := svcRecvMatch_deferred_stuck (c := c₁.defer) fuel rfl hans
          by_cases htype : c₁.svcIpcMsg.type = expectType
          · rw [if_neg (not_not.mpr htype), if_neg fun hm => hans ⟨htype, hm⟩, hstuck] at h
            exact absurd h (by simp)
          · rw [if_pos htype, hstuck] at h
            exact absurd h (by simp)

/-- The reply in front of all other messages is found. -/
theorem svcRecvMatch_first {c : SvcClient} {msg : AgentMsg} {after : List AgentMsg}
    (hpend : c.pending = msg :: after) (hans : Answers matchId expectType expectId msg)
    (hnn : c.svcHaveDeferred = true ∨ 0 ≤ expectType) :
    ∃ fuel c', svcRecvMatch matchId expectType expectId fuel c
        = some (.ok (matchId msg.payload expectId).2, c') ∧
      c'.svcIpcMsg = msg ∧ c'.pending = after := by
  by_cases hdef : c.svcHaveDeferred = true
  · simp only [SvcClient.pending, hdef, if_true, List.cons_append, List.nil_append,
      List.cons.injEq] at hpend
    obtain ⟨rfl, hafter⟩ := hpend
    refine ⟨1, { c with svcIpcMsg := c.svcDeferred, svcHaveDeferred := false }, ?_, rfl, ?_⟩
    · rw [svcRecvMatch, svcTake, if_pos hdef]
      dsimp only
      rw [if_neg (by decide), if_neg (not_not.mpr hans.1), if_pos hans.2]
    · simpa [SvcClient.pending] using hafter
  · have hnone : c.svcHaveDeferred = false := by simpa using hdef
    have hpos : 0 ≤ msg.type := by
      rw [hans.1]
      exact hnn.resolve_left hdef
    have hseq : received c.inbox c.arrivals = msg :: after := by
      simpa [SvcClient.pending, hnone] using hpend
    obtain ⟨c', hrec, rfl, hd, hrest⟩ :=
      agentRecvMsg_of_received hseq (by intro he; rw [he] at hpos; exact absurd hpos (by decide))
    refine ⟨c.arrivals.length + 2, c', ?_, rfl, ?_⟩
    · rw [svcRecvMatch, svcTake, if_neg hdef, hrec]
      dsimp only
      rw [if_neg (Int.not_lt.mpr hpos), if_neg (not_not.mpr hans.1), if_pos hans.2]
    · simpa [SvcClient.pending, hd, hnone] using hrest

variable (matchId expectType expectId)

/-- **Matching works for the first message only**: a call meets its caller's
expectation exactly when, if a reply is pending at all, it is pending in front
of every other message. -/
theorem recvMatchCorrect_iff (c : SvcClient) :
    RecvMatchCorrect matchId expectType expectId c ↔
      ((∃ msg ∈ c.pending, Answers matchId expectType expectId msg) →
        FirstAnswers matchId expectType expectId c) := by
  classical
  constructor
  · rintro hcorrect ⟨reply, hmem, hreply⟩
    -- cut the pending messages at the first reply
    obtain ⟨msg, hfind⟩ := Option.isSome_iff_exists.mp
      (List.find?_isSome (p := fun x => decide (Answers matchId expectType expectId x)) |>.mpr
        ⟨reply, hmem, decide_eq_true hreply⟩)
    obtain ⟨hans, before, after, hpend, hbefore⟩ := List.find?_eq_some_iff_append.mp hfind
    have hnot : ∀ x ∈ before, ¬ Answers matchId expectType expectId x := by
      intro x hx
      simpa using hbefore x hx
    obtain ⟨fuel, c', hrun, -, hrest⟩ :=
      hcorrect before msg after hpend hnot (of_decide_eq_true hans)
    obtain ⟨lost, msg', hpend', -, hans', hnn⟩ := svcRecvMatch_ok hrun
    -- nothing may be lost, so the message taken was the first one
    have hlen := congrArg List.length (hpend.symm.trans hpend')
    rw [hrest] at hlen
    have hlost : lost = [] := by
      apply List.eq_nil_of_length_eq_zero
      simp only [List.length_append, List.length_cons] at hlen
      omega
    rw [hlost, List.nil_append] at hpend'
    exact ⟨msg', c'.pending, hpend', hans', hnn⟩
  · intro hfirst before msg after hpend hbefore hans
    obtain ⟨first, rest, hcons, hans', hnn⟩ :=
      hfirst ⟨msg, by rw [hpend]; exact List.mem_append_right _ List.mem_cons_self, hans⟩
    cases before with
    | nil =>
      obtain ⟨rfl, rfl⟩ := List.cons.inj (hpend.symm.trans hcons)
      exact svcRecvMatch_first hpend hans hnn
    | cons x xs =>
      obtain ⟨rfl, -⟩ := List.cons.inj (hpend.symm.trans hcons)
      exact absurd hans' (hbefore _ List.mem_cons_self)

end Matching

/-! ## A steering message blocks a client -/

/-- A steering message from the planner. -/
def steerMsg : AgentMsg := .ofText 1 msgSteer (bytes "stop")

/-- The storage agent's reply to the client's first read. -/
def readReply : AgentMsg := .ofText 2 msgFsRsp (bytes "R1|data")

/-- A client whose reply has arrived, together with a steering message. -/
def steeredClient : SvcClient where
  inbox := deliver (msgboxInit ⟨⟨fun _ => steerMsg, 0, 0, 0⟩, ⟨fun _ => steerMsg, 0, 0, 0⟩⟩)
    [readReply, steerMsg]
  arrivals := []
  svcIpcMsg := steerMsg
  svcDeferred := steerMsg
  svcHaveDeferred := false

theorem steeredClient_pending : steeredClient.pending = [steerMsg, readReply] := rfl

theorem not_answers_steerMsg : ¬ Answers svcParseRspId msgFsRsp 1 steerMsg := by
  rintro ⟨htype, -⟩
  exact absurd htype (by decide)

theorem answers_readReply : Answers svcParseRspId msgFsRsp 1 readReply :=
  ⟨rfl, by decide +kernel⟩

/-- The awaited reply is in the inbox, and yet the call never returns. -/
theorem svcRecvMatch_blocked_by_steer :
    (∀ fuel, svcRecvMatch svcParseRspId msgFsRsp 1 fuel steeredClient = none) ∧
      ¬ RecvMatchCorrect svcParseRspId msgFsRsp 1 steeredClient := by
  have hnone : ∀ fuel, svcRecvMatch svcParseRspId msgFsRsp 1 fuel steeredClient = none := by
    intro fuel
    match fuel with
    | 0 => rfl
    | 1 => rfl
    | fuel + 2 =>
      exact svcRecvMatch_deferred_stuck (c := (sysAgentRecv steeredClient).2.defer) (fuel + 1)
        rfl not_answers_steerMsg
  refine ⟨hnone, fun hcorrect => ?_⟩
  obtain ⟨fuel, c', hrun, -⟩ := hcorrect [steerMsg] readReply [] steeredClient_pending
    (by simpa using not_answers_steerMsg) answers_readReply
  exact absurd (hrun.symm.trans (hnone fuel)) (by simp)

end OpenAgentOS
