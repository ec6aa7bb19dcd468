import OpenAgentOS.Net.Routes
import OpenAgentOS.Tool.AuditTrail

/-!
# The tool gateway as a whole (kernel/tool.c, llm.c, session.c, sched_syscall.c)

`tool_dispatch` for every tool, and the system call that reaches the language
model without it.

- `ToolState`: what the gateway and the tools behind it keep between calls.
- `ToolEffect`: what a call does outside of the kernel. A query of the language model
  and an attempt to connect are recorded, in order, with the result of the call.
- `dispatchTool`: the checks, the run, the log and the charge, with the tools that
  are exempt from some of them. For the file tools it is `toolDispatch`
  (`dispatchTool_file`).
- `Request`, `ToolState.step`: a system call by any agent; `SYS_AGENT_TOOL` and
  `SYS_AGENT_LLM` are modelled, every other call may change the state at will.
-/

namespace OpenAgentOS

open CString

/-- What `tool_dispatch` and the tools behind it keep. -/
structure ToolState where
  fs : Ramfs
  toolCount : Fin maxAgents → Nat
  policy : Policy
  remoteEnabled : Bool

/-- The part that the checks of the gateway look at. -/
def ToolState.gateway (s : ToolState) : Gateway := ⟨s.fs, s.toolCount, s.policy.deny⟩

/-- `tool_audit_log`. -/
def ToolState.log (s : ToolState) (a : Caller) (tool rc : Int) : ToolState :=
  { s with fs := toolAuditLog s.fs a tool rc }

/-- `quota_tool_charge`. -/
def ToolState.charge (s : ToolState) (a : Caller) : ToolState :=
  { s with toolCount := Function.update s.toolCount a.id (s.toolCount a.id + 1) }

/-- What a call does outside of the kernel. -/
inductive ToolEffect where
  /-- `agent_llm_query` hands the prompt to a backend. -/
  | query
  /-- `tcp_connect` is called for a destination. -/
  | connect (d : Dest)
deriving DecidableEq

/-- The result of a call. -/
structure Outcome where
  rc : Int
  state : ToolState
  effects : List ToolEffect

/-- An entry of `tool_table`, with the result of its `check`. -/
structure ToolEntry where
  cap : UInt32
  check : Int
  run : ToolState → Outcome

/-! ## Dispatch -/

/-- The commands of the console that pass through the gateway unseen. -/
def consoleQuiet (tool arg0 : Int) : Bool :=
  tool == toolConsole && (arg0 == 3 || arg0 == 1 || arg0 == 2)

/-- Whether quota and deny list apply, and the call is charged. -/
def gated (tool arg0 : Int) : Bool := !policyExempt tool && !consoleQuiet tool arg0

/-- Whether a call that was run is logged. -/
def logged (tool arg0 rc : Int) : Bool :=
  !(tool == toolInput && rc == 0) && !consoleQuiet tool arg0 && tool != toolAudit &&
    tool != toolNamespace && !policyExempt tool

/-- A call that is refused is logged. -/
def ToolState.refuse (s : ToolState) (a : Caller) (tool rc : Int) : Outcome :=
  ⟨rc, s.log a tool rc, []⟩

/-- The end of `tool_dispatch`: a call that was run is logged and charged. -/
def Outcome.settle (out : Outcome) (a : Caller) (tool arg0 : Int) : Outcome :=
  let next := if logged tool arg0 out.rc then out.state.log a tool out.rc else out.state
  ⟨out.rc, if gated tool arg0 then next.charge a else next, out.effects⟩

/-- `tool_dispatch` (tool.c:885). -/
def dispatchTool (s : ToolState) (a : Caller) (tool arg0 : Int) (entry : Option ToolEntry) :
    Outcome :=
  if gated tool arg0 = true ∧ quotaToolAllow s.gateway a ≠ 0 then
    s.refuse a tool (quotaToolAllow s.gateway a)
  else if gated tool arg0 = true ∧ policyToolAllow s.gateway tool ≠ 0 then
    s.refuse a tool (policyToolAllow s.gateway tool)
  else
    match entry with
    | none => s.refuse a tool einval
    | some e =>
      if a.hasCap e.cap = false then s.refuse a tool eperm
      else if e.check ≠ 0 then s.refuse a tool e.check
      else (e.run s).settle a tool arg0

/-! ## The language model -/

/-- `build_session_path` (session.c:11). -/
def sessionPath (agentId : Nat) : CStr where
  bytes := bytes "/session/agent/" ++ (decimal agentId ++ bytes "/log")
  nul_free := by
    rw [List.mem_append, List.mem_append, not_or, not_or]
    exact ⟨by decide, zero_not_mem_decimal agentId, by decide⟩

/-- `TENANT_SESSION_QUOTA`. -/
abbrev tenantSessionQuota : Nat := 640

/-- `tenant_session_usage` (tenant.c:36). -/
def tenantSessionUsage (fs : Ramfs) (a : Caller) : Nat :=
  match ramfsRead fs (sessionPath a.id) 0 1 with
  | .error _ => 0
  | .ok _ => usageLoop fs (sessionPath a.id) (ramfsFileSize - 1) 1

/-- `session_append` (session.c:56). What the file already holds is counted twice:
as its usage and as part of what is added. -/
def sessionAppend (fs : Ramfs) (a : Caller) (text : List UInt8) : Int × Ramfs :=
  let text := (text.takeWhile (· ≠ 0)).take 188
  if text.length = 0 then (einval, fs)
  else
    match ramfsRead fs (sessionPath a.id) 0 (ramfsFileSize - 2 : Nat) with
    | .error e => if e ≠ enoent then (e, fs) else append [] (text ++ ['\n'.toUInt8])
    | .ok old => append old (text ++ ['\n'.toUInt8])
where
  /-- The end of the function: `line` goes behind `old`. -/
  append (old line : List UInt8) : Int × Ramfs :=
    if tenantSessionQuota < tenantSessionUsage fs a + (old.length + line.length) then (enospc, fs)
    else if ramfsFileSize ≤ old.length + line.length then (enospc, fs)
    else
      let out := ramfsWrite fs (sessionPath a.id) 0 (old ++ line)
      (if out.1 < 0 then eio else line.length, out.2)

/-- `llm_session_finish` (llm.c:36). -/
def llmSessionFinish (fs : Ramfs) (a : Caller) (stream : List UInt8) : Ramfs :=
  if stream = [] then fs
  else if a.hasCap capSvcLlm then fs
  else (sessionAppend fs a (bytes "assistant: " ++ stream)).2

/-- The arguments of a query: two pointers, of which the kernel only compares with
null here, and a `long`. -/
structure LlmArgs where
  prompt : Nat
  buf : Nat
  buflen : Int

/-- What a backend answers: the result and the text it streams. -/
structure LlmAnswer where
  rc : Int
  stream : List UInt8
  rc_int : -2 ^ 31 ≤ rc ∧ rc < 2 ^ 31

/-- The connections a query opens: with the native backend those of
`llm_deepseek_query`. -/
def llmConnects (p : NetPolicy) (net : NetAnswers) : List Dest :=
  if net.llmNative = false then []
  else
    match llmDeepseekQuery p net with
    | .error _ => []
    | .ok ds => ds

/-- `agent_llm_query` (llm.c:110), with the `int` that `buflen` becomes. -/
def agentLlmQuery (net : NetAnswers) (s : ToolState) (a : Caller) (args : LlmArgs)
    (answer : LlmAnswer) : Outcome :=
  if a.hasCap capLlm = false then ⟨eperm, s, []⟩
  else if args.prompt = 0 ∨ args.buf = 0 ∨ CInt.toInt32 args.buflen ≤ 0 then ⟨einval, s, []⟩
  else
    { rc := answer.rc
      state :=
        { s with fs := if 0 ≤ answer.rc then llmSessionFinish s.fs a answer.stream else s.fs }
      effects := .query :: (llmConnects s.policy.net net).map .connect }

/-! ## The tools -/

/-- The commands of `TOOL_REMOTE`. -/
inductive RemoteCmd where
  | status | enable | disable | ping | connect | unknown

/-- The commands of `TOOL_FLEET`. The text that `fleet_push` stores holds the time
and other readings. -/
inductive FleetCmd where
  | status
  | push (json : List UInt8)
  | probe (url : TextArg)
  | ingest (url : TextArg)
  | unknown

/-- The outcome of a route: an error, or a connection and what came of it. -/
def Outcome.ofRoute (s : ToolState) (rc : Int) : Except Int Dest → Outcome
  | .error e => ⟨e, s, []⟩
  | .ok d => ⟨rc, s, [.connect d]⟩

/-- `run_remote` (tool.c:785). -/
def runRemote (net : NetAnswers) (rc : Int) (s : ToolState) : RemoteCmd → Outcome
  | .status => ⟨if s.remoteEnabled then 1 else 0, s, []⟩
  | .enable => ⟨0, { s with remoteEnabled := true }, []⟩
  | .disable => ⟨0, { s with remoteEnabled := false }, []⟩
  | .ping => ⟨if s.remoteEnabled then 0 else eperm, s, []⟩
  | .connect => .ofRoute s rc (remoteConnect s.remoteEnabled net)
  | .unknown => ⟨einval, s, []⟩

/-- `run_fleet` (tool.c:708). -/
def runFleet (net : NetAnswers) (rc : Int) (s : ToolState) : FleetCmd → Outcome
  | .status => ⟨rc, s, []⟩
  | .push json =>
    let out := ramfsPut s.fs fleetCache json
    ⟨if out.1 < 0 then out.1 else json.length, { s with fs := out.2 }, []⟩
  | .probe .null | .probe .fault => ⟨efault, s, []⟩
  | .probe (.text url) => ⟨if url.bytes = [] then einval else 0, s, []⟩
  | .ingest .null => .ofRoute s rc (fleetIngest s.fs s.policy.net net none)
  | .ingest .fault => ⟨efault, s, []⟩
  | .ingest (.text url) => .ofRoute s rc (fleetIngest s.fs s.policy.net net (some url))
  | .unknown => ⟨einval, s, []⟩

/-- `run_http` (tool.c:406). -/
def runHttp (net : NetAnswers) (rc : Int) (s : ToolState) (url : TextArg) (buflen : Int) :
    Outcome :=
  if CInt.toInt32 buflen ≤ 0 ∨ 512 < CInt.toInt32 buflen then ⟨einval, s, []⟩
  else
    match url with
    | .null | .fault => ⟨einval, s, []⟩
    | .text url =>
      if url.bytes = [] then ⟨einval, s, []⟩
      else .ofRoute s rc (agentHttpFetch net url.bytes)

/-- A call of `SYS_AGENT_TOOL`. The `rc` of a tool that uses the network is its
result once a connection has been tried. A tool that does neither query nor
connect is given by its number, its first argument and what it does. -/
inductive ToolCall where
  | file (call : FileCall)
  | llm (args : LlmArgs) (answer : LlmAnswer)
  | http (url : TextArg) (buf : Nat) (buflen : Int) (rc : Int)
  | policy (cmd : PolicyCmd)
  | remote (cmd : RemoteCmd) (rc : Int)
  | fleet (cmd : FleetCmd) (rc : Int)
  | other (tool arg0 : Int) (entry : Option (UInt32 × Int × (ToolState → Int × ToolState)))

/-- The number of the tool and its first argument, as far as `tool_dispatch` looks
at it. -/
def ToolCall.head : ToolCall → Int × Int
  | .file (.read ..) => (toolRead, 0)
  | .file (.write ..) => (toolWrite, 0)
  | .llm .. => (toolLlm, 0)
  | .http .. => (toolHttp, 0)
  | .policy _ => (toolPolicy, 0)
  | .remote .. => (toolRemote, 0)
  | .fleet .. => (toolFleet, 0)
  | .other tool arg0 _ => (tool, arg0)

/-- A tool that works on the files. -/
def Outcome.ofFs (s : ToolState) (out : Int × Ramfs) : Outcome := ⟨out.1, { s with fs := out.2 }, []⟩

/-- `tool_table` (tool.c:851). -/
def ToolCall.entry (net : NetAnswers) (a : Caller) : ToolCall → Option ToolEntry
  | .file (.read path len heap store) =>
    some ⟨capFs, checkPath policyFsRead a path, fun s => .ofFs s <|
      match runRead s.fs path len heap store with
      | .error e => (e, s.fs)
      | .ok out => (out.length, s.fs)⟩
  | .file (.write path len heap data) =>
    some ⟨capFs, checkPath policyFsWrite a path, fun s =>
      .ofFs s (runWrite s.fs a path len heap data)⟩
  | .llm args answer =>
    some ⟨capLlm, if args.prompt = 0 ∨ args.buf = 0 ∨ args.buflen ≤ 0 then einval else 0, fun s =>
      agentLlmQuery net s a args answer⟩
  | .http url buf buflen rc =>
    some ⟨capNet, if buf = 0 ∨ buflen ≤ 0 then einval else 0, fun s => runHttp net rc s url buflen⟩
  | .policy cmd =>
    some ⟨capLog, 0, fun s =>
      ⟨(runPolicy s.fs s.policy cmd).1, { s with policy := (runPolicy s.fs s.policy cmd).2 }, []⟩⟩
  | .remote cmd rc => some ⟨capLog, 0, fun s => runRemote net rc s cmd⟩
  | .fleet cmd rc => some ⟨capLog, 0, fun s => runFleet net rc s cmd⟩
  | .other _ _ entry => entry.map fun e => ⟨e.1, e.2.1, fun s => ⟨(e.2.2 s).1, (e.2.2 s).2, []⟩⟩

/-! ## System calls -/

/-- The system calls. -/
inductive SysCall where
  /-- `SYS_AGENT_TOOL`. -/
  | tool (call : ToolCall)
  /-- `SYS_AGENT_LLM`. -/
  | llm (args : LlmArgs) (answer : LlmAnswer)
  /-- Any other, with the state it leaves. -/
  | other (next : ToolState)

/-- A system call by an agent, and what the network answers meanwhile. -/
structure Request where
  agent : Caller
  net : NetAnswers
  call : SysCall

/-- `sched_handle_syscall` (sched_syscall.c:4). -/
def Request.outcome (s : ToolState) (r : Request) : Outcome :=
  match r.call with
  | .tool call => dispatchTool s r.agent call.head.1 call.head.2 (call.entry r.net r.agent)
  | .llm args answer => agentLlmQuery r.net s r.agent args answer
  | .other next => ⟨0, next, []⟩

/-- The state after a system call. -/
def ToolState.step (s : ToolState) (r : Request) : ToolState := (r.outcome s).state

/-- The gateway of a machine that was just switched on. -/
def bootTools : ToolState := ⟨ramfsInit zeroMem, fun _ => 0, policyInit, false⟩

/-- A machine without a network. -/
def offline : NetAnswers := ⟨true, false, false, false, false, false, false, false⟩

/-! ## What a call can do -/

/-- What logging, charging and the run of the tool keep, the gateway keeps. -/
theorem dispatchTool_invariant {P : ToolState → Prop} {s : ToolState} {a : Caller}
    {tool arg0 : Int} {entry : Option ToolEntry}
    (hlog : ∀ s rc, P s → P (s.log a tool rc)) (hcharge : ∀ s, P s → P (s.charge a))
    (hrun : ∀ e, entry = some e → P (e.run s).state) (h : P s) :
    P (dispatchTool s a tool arg0 entry).state := by
  unfold dispatchTool
  split
  · exact hlog s _ h
  split
  · exact hlog s _ h
  cases entry with
  | none => exact hlog s _ h
  | some e =>
    dsimp only
    split
    · exact hlog s _ h
    split
    · exact hlog s _ h
    · have hnext : P (if logged tool arg0 (e.run s).rc then (e.run s).state.log a tool (e.run s).rc
          else (e.run s).state) := by
        split
        · exact hlog _ _ (hrun e rfl)
        · exact hrun e rfl
      rw [Outcome.settle]
      dsimp only
      split
      · exact hcharge _ hnext
      · exact hnext

/-- **For the file tools the gateway is the one of `toolDispatch`.** -/
theorem dispatchTool_file (net : NetAnswers) (s : ToolState) (a : Caller) (call : FileCall) :
    let out := dispatchTool s a (ToolCall.file call).head.1 0 ((ToolCall.file call).entry net a)
    (out.rc, out.state.gateway) = toolDispatch s.gateway a call ∧ out.effects = [] := by
  have hentry : ∀ (tool : Int) (cap : UInt32) (check : Int) (run : Ramfs → Int × Ramfs),
      gated tool 0 = true → (∀ rc, logged tool 0 rc = true) →
      let out := dispatchTool s a tool 0 (some ⟨cap, check, fun s => .ofFs s (run s.fs)⟩)
      (out.rc, out.state.gateway) = dispatchEntry s.gateway a tool cap check run ∧
        out.effects = [] := by
    intro tool cap check run hgated hlogged
    dsimp only
    rw [dispatchTool, dispatchEntry, Outcome.settle]
    simp only [hgated, hlogged, true_and, if_true]
    split_ifs
    · exact ⟨rfl, rfl⟩
    · exact ⟨rfl, rfl⟩
    · exact ⟨rfl, rfl⟩
    · exact ⟨rfl, rfl⟩
    · exact ⟨rfl, rfl⟩
  cases call with
  | read path len heap store =>
    exact hentry toolRead capFs (checkPath policyFsRead a path)
      (fun fs => match runRead fs path len heap store with
        | .error e => (e, fs)
        | .ok out => (out.length, fs)) (by decide) fun _ => rfl
  | write path len heap data =>
    exact hentry toolWrite capFs (checkPath policyFsWrite a path)
      (fun fs => runWrite fs a path len heap data) (by decide) fun _ => rfl

/-- **The gateway has effects only through a tool that it runs**, after all of its
checks. -/
theorem dispatchTool_of_effect {s : ToolState} {a : Caller} {tool arg0 : Int}
    {entry : Option ToolEntry} {e : ToolEffect} (h : e ∈ (dispatchTool s a tool arg0 entry).effects) :
    ∃ t, entry = some t ∧ e ∈ (t.run s).effects ∧ a.hasCap t.cap = true ∧ t.check = 0 ∧
      dispatchTool s a tool arg0 entry = (t.run s).settle a tool arg0 ∧
      (gated tool arg0 = true →
        quotaToolAllow s.gateway a = 0 ∧ policyToolAllow s.gateway tool = 0) := by
  unfold dispatchTool at h ⊢
  by_cases hquota : gated tool arg0 = true ∧ quotaToolAllow s.gateway a ≠ 0
  · rw [if_pos hquota] at h
    cases h
  rw [if_neg hquota] at h ⊢
  by_cases hdeny : gated tool arg0 = true ∧ policyToolAllow s.gateway tool ≠ 0
  · rw [if_pos hdeny] at h
    cases h
  rw [if_neg hdeny] at h ⊢
  have hpassed : gated tool arg0 = true →
      quotaToolAllow s.gateway a = 0 ∧ policyToolAllow s.gateway tool = 0 := fun hgated =>
    ⟨by_contra fun hq => hquota ⟨hgated, hq⟩, by_contra fun hd => hdeny ⟨hgated, hd⟩⟩
  cases entry with
  | none => cases h
  | some t =>
    dsimp only at h ⊢
    by_cases hcap : a.hasCap t.cap = false
    · rw [if_pos hcap] at h
      cases h
    rw [if_neg hcap] at h ⊢
    by_cases hcheck : t.check ≠ 0
    · rw [if_pos hcheck] at h
      cases h
    rw [if_neg hcheck] at h ⊢
    exact ⟨t, rfl, h, Bool.not_eq_false _ ▸ hcap, not_not.mp hcheck, rfl, hpassed⟩

end OpenAgentOS
