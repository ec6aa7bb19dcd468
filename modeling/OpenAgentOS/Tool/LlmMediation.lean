import OpenAgentOS.Lib.Runs
import OpenAgentOS.Tool.Dispatch

/-!
# Queries of the language model and the gateway

A query through `TOOL_LLM` has passed the quota, the deny list and the capability
check of the gateway, and is logged. `SYS_AGENT_LLM` reaches the same function and
only the capability is checked there.

- `QueryMediated`: a system call performs a query only if the gateway would allow
  it at that moment, and then leaves a line in the caller's log.
- `Mediating`: the condition on a system call: none performs a query through
  `SYS_AGENT_LLM`, and for `TOOL_LLM` the log has room.
- `queries_mediated`: along every run of such calls, by any agents and from any
  state, all queries are mediated.
- `not_queries_mediated_denied`: an agent that has been denied the tool uses the
  system call.
-/

namespace OpenAgentOS

open CString

/-! ## The property and the condition -/

/-- The call leaves its line behind what the log held, or behind what a compaction
keeps of it. -/
def LeavesLine (s : ToolState) (r : Request) : Prop :=
  ∃ line before, auditLine toolLlm (r.outcome s).rc = some line ∧
    (before = (s.fs.auditText r.agent.id).getD [] ∨
      before = ((s.fs.auditText r.agent.id).map (compacted 8)).getD []) ∧
    (r.outcome s).state.fs.auditText r.agent.id = some (before ++ line)

/-- A query is allowed by the gateway when it is made, and logged. -/
def QueryMediated (s : ToolState) (r : Request) : Prop :=
  ToolEffect.query ∈ (r.outcome s).effects →
    policyToolAllow s.gateway toolLlm = 0 ∧ quotaToolAllow s.gateway r.agent = 0 ∧
      r.agent.hasCap capLlm = true ∧ LeavesLine s r

/-- Room for a line of at most 22 bytes in a log, and for two more files (the log and
the session) if there is no log yet. -/
def LogRoom (fs : Ramfs) (id : Fin maxAgents) : Prop :=
  match fs.auditText id with
  | none => slotCount (fun i => (fs i).used) + 2 ≤ ramfsMaxFiles
  | some text => logUsage (some text) + 22 ≤ auditQuotaBytes ∨
      logUsage (some (compacted 8 text)) + 22 ≤ auditQuotaBytes

instance (fs : Ramfs) (id : Fin maxAgents) : Decidable (LogRoom fs id) := by
  unfold LogRoom
  split <;> infer_instance

/-- The arguments with which `agent_llm_query` goes on to a backend. -/
def LlmArgs.Valid (args : LlmArgs) : Prop :=
  args.prompt ≠ 0 ∧ args.buf ≠ 0 ∧ 0 < CInt.toInt32 args.buflen

/-- No query through `SYS_AGENT_LLM`, and room in the log for one through the
gateway. -/
def Mediating (s : ToolState) (r : Request) : Prop :=
  match r.call with
  | .llm args _ => ¬ (r.agent.hasCap capLlm = true ∧ args.Valid)
  | .tool (.llm ..) => LogRoom s.fs r.agent.id
  | _ => True

/-! ## The session log -/

variable {fs : Ramfs} {a : Caller}

/-- A session line is one write to the caller's session log, or nothing. -/
theorem llmSessionFinish_cases (fs : Ramfs) (a : Caller) (stream : List UInt8) :
    llmSessionFinish fs a stream = fs ∨
      ∃ data, llmSessionFinish fs a stream = (ramfsWrite fs (sessionPath a.id) 0 data).2 := by
  have happend : ∀ old line, (sessionAppend.append fs a old line).2 = fs ∨
      ∃ data, (sessionAppend.append fs a old line).2
        = (ramfsWrite fs (sessionPath a.id) 0 data).2 := by
    intro old line
    rw [sessionAppend.append]
    split_ifs
    · exact .inl rfl
    · exact .inl rfl
    · exact .inr ⟨old ++ line, rfl⟩
  rw [llmSessionFinish]
  split_ifs with hempty hservice
  · exact .inl rfl
  · exact .inl rfl
  · rw [sessionAppend]
    split_ifs
    · exact .inl rfl
    · split
      · split_ifs
        · exact .inl rfl
        · exact happend _ _
      · exact happend _ _

/-- The session log and the audit log are different files. -/
theorem sessionPath_copy_ne (id id' : Fin maxAgents) :
    (sessionPath id).copy ramfsPathMax ≠ auditPathFor id' := by
  intro h
  have hchar := congrArg (fun path : CStr => charAt path.bytes 1) h
  exact absurd (show 's'.toUInt8 = 'a'.toUInt8 from hchar) (by decide)

/-- A session line leaves the audit logs alone. -/
theorem auditText_llmSessionFinish (fs : Ramfs) (a : Caller) (stream : List UInt8)
    (id : Fin maxAgents) : (llmSessionFinish fs a stream).auditText id = fs.auditText id := by
  obtain h | ⟨data, h⟩ := llmSessionFinish_cases fs a stream
  · rw [h]
  · rw [h]
    exact (sameUnder_write fs 0 data (sessionPath_copy_ne a.id id)).visible

/-- A session line takes at most one more slot. -/
theorem slotCount_llmSessionFinish_le (fs : Ramfs) (a : Caller) (stream : List UInt8) :
    slotCount (fun i => (llmSessionFinish fs a stream i).used)
      ≤ slotCount (fun i => (fs i).used) + 1 := by
  obtain h | ⟨data, h⟩ := llmSessionFinish_cases fs a stream
  · rw [h]
    exact Nat.le_succ _
  · rw [h]
    exact slotCount_write_le fs (sessionPath a.id) 0 data

/-! ## One call -/

/-- What it takes for `agent_llm_query` to have an effect. -/
theorem agentLlmQuery_of_effect {net : NetAnswers} {s : ToolState} {args : LlmArgs}
    {answer : LlmAnswer} {e : ToolEffect} (h : e ∈ (agentLlmQuery net s a args answer).effects) :
    a.hasCap capLlm = true ∧ args.Valid ∧ agentLlmQuery net s a args answer =
      { rc := answer.rc
        state :=
          { s with fs := if 0 ≤ answer.rc then llmSessionFinish s.fs a answer.stream else s.fs }
        effects := .query :: (llmConnects s.policy.net net).map .connect } := by
  rw [agentLlmQuery] at h ⊢
  by_cases hcap : a.hasCap capLlm = false
  · rw [if_pos hcap] at h
    cases h
  rw [if_neg hcap] at h ⊢
  by_cases hargs : args.prompt = 0 ∨ args.buf = 0 ∨ CInt.toInt32 args.buflen ≤ 0
  · rw [if_pos hargs] at h
    cases h
  rw [if_neg hargs]
  rw [not_or, not_or, not_le] at hargs
  exact ⟨Bool.not_eq_false _ ▸ hcap, hargs, rfl⟩

/-- Only `TOOL_LLM` queries through the gateway. -/
theorem llm_of_query {net : NetAnswers} {call : ToolCall} {t : ToolEntry} {s : ToolState}
    (hentry : call.entry net a = some t) (h : ToolEffect.query ∈ (t.run s).effects) :
    ∃ args answer, call = .llm args answer := by
  have hroute : ∀ (rc : Int) (route : Except Int Dest),
      ToolEffect.query ∉ (Outcome.ofRoute s rc route).effects := by
    intro rc route
    cases route with
    | error e => exact nofun
    | ok d => exact fun hmem => absurd (List.mem_singleton.mp hmem) nofun
  cases call with
  | file call =>
    cases call with
    | read => obtain rfl := Option.some.inj hentry; cases h
    | write => obtain rfl := Option.some.inj hentry; cases h
  | llm args answer => exact ⟨args, answer, rfl⟩
  | http url buf buflen rc =>
    obtain rfl := Option.some.inj hentry
    dsimp only [runHttp] at h
    split_ifs at h
    · cases h
    · split at h
      · cases h
      · cases h
      · split_ifs at h
        · cases h
        · exact absurd h (hroute _ _)
  | policy cmd => obtain rfl := Option.some.inj hentry; cases h
  | remote cmd rc =>
    obtain rfl := Option.some.inj hentry
    cases cmd with
    | connect => exact absurd h (hroute _ _)
    | _ => cases h
  | fleet cmd rc =>
    obtain rfl := Option.some.inj hentry
    cases cmd with
    | ingest url =>
      cases url with
      | fault => cases h
      | _ => exact absurd h (hroute _ _)
    | probe url => cases url <;> cases h
    | _ => cases h
  | other tool arg0 entry =>
    obtain ⟨e, -, rfl⟩ := Option.map_eq_some_iff.mp hentry
    cases h

/-- The log of a file system with room gets the line of a query. -/
theorem exists_line_of_logRoom {s : ToolState} (hroom : LogRoom s.fs a.id) (answer : LlmAnswer)
    {fs' : Ramfs} (htext : fs'.auditText a.id = s.fs.auditText a.id)
    (hslots : slotCount (fun i => (fs' i).used) ≤ slotCount (fun i => (s.fs i).used) + 1) :
    ∃ line before, auditLine toolLlm answer.rc = some line ∧
      (before = (s.fs.auditText a.id).getD [] ∨
        before = ((s.fs.auditText a.id).map (compacted 8)).getD []) ∧
      (toolAuditLog fs' a toolLlm answer.rc).auditText a.id = some (before ++ line) := by
  obtain ⟨line, hline, hpos, hlen⟩ :=
    auditLine_of_int (show 5 < 10 by decide) answer.rc_int.1 answer.rc_int.2
  have hfits : logUsage (s.fs.auditText a.id) + line.length ≤ auditQuotaBytes ∨
      logUsage ((s.fs.auditText a.id).map (compacted 8)) + line.length ≤ auditQuotaBytes := by
    rw [LogRoom] at hroom
    cases h : s.fs.auditText a.id with
    | none =>
      left
      show 0 + line.length ≤ 512
      omega
    | some text =>
      rw [h] at hroom
      exact hroom.imp (by omega) (by rw [Option.map_some]; omega)
  have hslot : fs'.auditText a.id = none → slotCount (fun i => (fs' i).used) < ramfsMaxFiles := by
    intro hnone
    rw [htext] at hnone
    rw [LogRoom, hnone] at hroom
    dsimp only at hroom
    omega
  rw [← htext] at hfits
  obtain ⟨before, hbefore, hafter⟩ := visible_toolAuditLog hline hpos hfits hslot
  rw [htext] at hbefore
  exact ⟨line, before, hline, hbefore, hafter⟩

/-- **One system call.** -/
theorem queryMediated_of_mediating (s : ToolState) (r : Request) (h : Mediating s r) :
    QueryMediated s r := by
  obtain ⟨a, net, call⟩ := r
  intro hquery
  cases call with
  | other next => cases hquery
  | llm args answer =>
    -- the system call itself: the condition says that it makes no query
    obtain ⟨hcap, hargs, -⟩ := agentLlmQuery_of_effect hquery
    exact absurd ⟨hcap, hargs⟩ h
  | tool call =>
    obtain ⟨t, hentry, hrun, hcap, hcheck, hout, hpassed⟩ := dispatchTool_of_effect hquery
    obtain ⟨args, answer, rfl⟩ := llm_of_query hentry hrun
    obtain rfl := Option.some.inj hentry
    obtain ⟨hquota, hdeny⟩ := hpassed (show gated toolLlm 0 = true by decide)
    obtain ⟨-, -, hllm⟩ := agentLlmQuery_of_effect hrun
    refine ⟨hdeny, hquota, hcap, ?_⟩
    have houtcome : Request.outcome s ⟨a, net, .tool (.llm args answer)⟩
        = (agentLlmQuery net s a args answer).settle a toolLlm 0 := hout
    have hsession : ∀ fs', fs' = (if 0 ≤ answer.rc then llmSessionFinish s.fs a answer.stream
        else s.fs) → fs'.auditText a.id = s.fs.auditText a.id ∧
          slotCount (fun i => (fs' i).used) ≤ slotCount (fun i => (s.fs i).used) + 1 := by
      rintro fs' rfl
      by_cases hrc : 0 ≤ answer.rc
      · rw [if_pos hrc]
        exact ⟨auditText_llmSessionFinish s.fs a answer.stream a.id,
          slotCount_llmSessionFinish_le s.fs a answer.stream⟩
      · rw [if_neg hrc]
        exact ⟨rfl, Nat.le_succ _⟩
    obtain ⟨htext, hslots⟩ := hsession _ rfl
    obtain ⟨line, before, hline, hbefore, hafter⟩ := exists_line_of_logRoom h answer htext hslots
    refine ⟨line, before, ?_, hbefore, ?_⟩
    · rw [houtcome, hllm]
      exact hline
    · rw [houtcome, hllm]
      exact hafter

/-! ## Runs -/

/-- **Along every run in which no query is made through `SYS_AGENT_LLM`, and the
caller's log has room whenever one is made through the gateway, all queries are
mediated**: the tool is not denied, the quota is not used up and the capability is
held when the query is made, and the call leaves a line in the log. -/
theorem queries_mediated (s : ToolState) (rs : List Request)
    (h : Runs.Along ToolState.step Mediating s rs) :
    Runs.Along ToolState.step QueryMediated s rs :=
  h.imp queryMediated_of_mediating

/-- An agent that may log and query. -/
def asker : Caller := ⟨1, capLog ||| capLlm⟩

/-- A query with room for 64 bytes, answered with the text `ok`. -/
def okQuery : LlmArgs × LlmAnswer := (⟨0x1000, 0x2000, 64⟩, ⟨2, bytes "ok", by decide⟩)

theorem queries_mediated_tool :
    ToolEffect.query ∈ (Request.outcome bootTools ⟨asker, offline, .tool (.llm okQuery.1 okQuery.2)⟩).effects ∧
      Runs.Along ToolState.step QueryMediated bootTools
        [⟨asker, offline, .tool (.llm okQuery.1 okQuery.2)⟩] :=
  ⟨by decide +kernel, queries_mediated bootTools _
    ⟨show LogRoom bootTools.fs asker.id by decide +kernel, trivial⟩⟩

/-- Tool 5 is denied, and then agent 1 makes a query with the system call. -/
def deniedQuery : List Request :=
  [⟨asker, offline, .tool (.policy (.deny toolLlm))⟩, ⟨asker, offline, .llm okQuery.1 okQuery.2⟩]

theorem not_queries_mediated_denied :
    ¬ ∀ rs : List Request, Runs.Along ToolState.step QueryMediated bootTools rs := by
  intro hall
  obtain ⟨-, hquery, -⟩ := hall deniedQuery
  obtain ⟨hallowed, -⟩ := hquery (by decide +kernel)
  revert hallowed
  decide +kernel

end OpenAgentOS
