import OpenAgentOS.Tool.LlmMediation

/-!
# Connections and the network policy

While `net_restrict` is set, a connection should be tried only for a destination on
the allow list.

- `EgressAllowed`: that property of one system call, in the state in which it is
  made.
- `EgressCovered`: the condition on the calls. `TOOL_HTTP` and `TOOL_REMOTE` do not
  ask the policy, so their destinations have to be on the list; `TOOL_FLEET` and the
  language model ask it, and the policy answers as it should unless the list is
  empty.
- `egress_allowed`: along every run of such calls, with policy commands by any agent
  in between, every connection is allowed.
- `not_egress_allowed`: three short runs with a connection that is not.
-/

namespace OpenAgentOS

open CString

/-- While restricted, a call connects only to destinations on the allow list. -/
def EgressAllowed (s : ToolState) (r : Request) : Prop :=
  s.policy.net.restrict = true →
    ∀ d, ToolEffect.connect d ∈ (r.outcome s).effects → d ∈ s.policy.net.allow

/-- The routes that do not ask the policy lead to destinations on the list, and the
list is not empty where the policy is asked. -/
def EgressCovered (s : ToolState) (r : Request) : Prop :=
  s.policy.net.restrict = true →
    match r.call with
    | .tool (.http (.text url) _ _ _) =>
      ∀ d, parseUrl url.bytes = some d → d.port ≠ 443 → d ∈ s.policy.net.allow
    | .tool (.remote .connect _) => s.remoteEnabled = true → gatewayDest ∈ s.policy.net.allow
    | .tool (.fleet (.ingest _) _) => s.policy.net.allow ≠ []
    | .tool (.llm ..) => s.policy.net.allow ≠ []
    | .llm .. => s.policy.net.allow ≠ []
    | _ => True

/-! ## One call -/

/-- The policy's answer, where the list is not empty. -/
theorem mem_allow_of_policyNetAllow {p : NetPolicy} {d : Dest} (hrestrict : p.restrict = true)
    (hne : p.allow ≠ []) (h : policyNetAllow p d.host d.port = 0) : d ∈ p.allow :=
  ((policyNetAllow_eq_zero_iff.mp h).2 hrestrict).resolve_left hne

/-- A route is taken to at most one destination. -/
theorem mem_effects_ofRoute {s : ToolState} {rc : Int} {route : Except Int Dest} {d : Dest}
    (h : ToolEffect.connect d ∈ (Outcome.ofRoute s rc route).effects) : route = .ok d := by
  cases route with
  | error e => cases h
  | ok d' =>
    obtain rfl := ToolEffect.connect.inj (List.mem_singleton.mp h)
    rfl

/-- A query connects where `llm_deepseek_query` does. -/
theorem policyNetAllow_of_llmQuery {net : NetAnswers} {s : ToolState} {a : Caller} {args : LlmArgs}
    {answer : LlmAnswer} {d : Dest}
    (h : ToolEffect.connect d ∈ (agentLlmQuery net s a args answer).effects) :
    policyNetAllow s.policy.net d.host d.port = 0 := by
  obtain ⟨-, -, hout⟩ := agentLlmQuery_of_effect h
  rw [hout] at h
  have hmem : ToolEffect.connect d ∈ (llmConnects s.policy.net net).map ToolEffect.connect := by
    rcases List.mem_cons.mp h with h | h
    · cases h
    · exact h
  obtain ⟨d', hd', heq⟩ := List.mem_map.mp hmem
  obtain rfl := ToolEffect.connect.inj heq
  rw [llmConnects] at hd'
  split_ifs at hd' with hnative
  · cases hd'
  · split at hd'
    · cases hd'
    · rename_i ds hds
      exact policyNetAllow_of_deepseek hds hd'

/-- **One system call.** -/
theorem egressAllowed_of_covered (s : ToolState) (r : Request) (h : EgressCovered s r) :
    EgressAllowed s r := by
  obtain ⟨a, net, call⟩ := r
  intro hrestrict d hd
  have hcovered := h hrestrict
  cases call with
  | other next => cases hd
  | llm args answer =>
    exact mem_allow_of_policyNetAllow hrestrict hcovered (policyNetAllow_of_llmQuery hd)
  | tool call =>
    obtain ⟨t, hentry, hrun, -⟩ := dispatchTool_of_effect hd
    -- which tool it was decides which route was taken
    cases call with
    | file call =>
      cases call with
      | read => obtain rfl := Option.some.inj hentry; cases hrun
      | write => obtain rfl := Option.some.inj hentry; cases hrun
    | llm args answer =>
      obtain rfl := Option.some.inj hentry
      exact mem_allow_of_policyNetAllow hrestrict hcovered (policyNetAllow_of_llmQuery hrun)
    | http url buf buflen rc =>
      obtain rfl := Option.some.inj hentry
      dsimp only [runHttp] at hrun
      split_ifs at hrun
      · cases hrun
      · cases url with
        | null => cases hrun
        | fault => cases hrun
        | text url =>
          dsimp only at hrun
          split_ifs at hrun
          · cases hrun
          · obtain ⟨hurl, hport⟩ := parseUrl_of_httpFetch (mem_effects_ofRoute hrun)
            exact hcovered d hurl hport
    | policy cmd => obtain rfl := Option.some.inj hentry; cases hrun
    | remote cmd rc =>
      obtain rfl := Option.some.inj hentry
      cases cmd with
      | connect =>
        have hroute := mem_effects_ofRoute hrun
        rw [remoteConnect] at hroute
        split_ifs at hroute with henabled hready
        obtain rfl := Except.ok.inj hroute
        exact hcovered (Bool.not_eq_false _ ▸ henabled)
      | _ => cases hrun
    | fleet cmd rc =>
      obtain rfl := Option.some.inj hentry
      cases cmd with
      | ingest url =>
        cases url with
        | fault => cases hrun
        | null =>
          exact mem_allow_of_policyNetAllow hrestrict hcovered
            (policyNetAllow_of_fleetIngest (mem_effects_ofRoute hrun))
        | text url =>
          exact mem_allow_of_policyNetAllow hrestrict hcovered
            (policyNetAllow_of_fleetIngest (mem_effects_ofRoute hrun))
      | probe url => cases url <;> cases hrun
      | _ => cases hrun
    | other tool arg0 entry =>
      obtain ⟨e, -, rfl⟩ := Option.map_eq_some_iff.mp hentry
      cases hrun

/-! ## Runs -/

/-- **Along every run whose calls are covered, connections are tried only to
destinations on the allow list of that moment**, while the network is restricted. -/
theorem egress_allowed (s : ToolState) (rs : List Request)
    (h : Runs.Along ToolState.step EgressCovered s rs) :
    Runs.Along ToolState.step EgressAllowed s rs :=
  h.imp egressAllowed_of_covered

/-- A machine with a network that answers. -/
def online : NetAnswers := ⟨false, true, true, true, true, true, true, true⟩

/-- An agent that may log and use the network. -/
def surfer : Caller := ⟨1, capLog ||| capNet⟩

/-- `TOOL_POLICY` with `POLICY_CMD_NET_RESTRICT`. -/
def restrictNet : Request := ⟨surfer, online, .tool (.policy (.netRestrict 1))⟩

/-- `TOOL_POLICY` with `POLICY_CMD_NET_ALLOW` for `10.0.2.2:8765`. -/
def allowCollector : Request :=
  ⟨surfer, online, .tool (.policy (.netAllow (.text (.lit "10.0.2.2")) 8765))⟩

/-- `TOOL_FLEET` with `FLEET_CMD_PUSH`, and then with `FLEET_CMD_INGEST` to the
collector. -/
def reportToCollector : List Request :=
  [⟨surfer, online, .tool (.fleet (.push (bytes "0")) 0)⟩,
    ⟨surfer, online, .tool (.fleet (.ingest .null) 2)⟩]

/-- A restricted machine that may talk to the collector reports to it. -/
theorem egress_allowed_report :
    ToolEffect.connect ⟨bytes "10.0.2.2", 8765⟩ ∈
        (Request.outcome (Runs.run ToolState.step bootTools
          [restrictNet, allowCollector, ⟨surfer, online, .tool (.fleet (.push (bytes "0")) 0)⟩])
          ⟨surfer, online, .tool (.fleet (.ingest .null) 2)⟩).effects ∧
      Runs.Along ToolState.step EgressAllowed bootTools
        ([restrictNet, allowCollector] ++ reportToCollector) :=
  ⟨by decide +kernel, egress_allowed bootTools _
    ⟨fun _ => trivial, fun _ => trivial, fun _ => trivial, fun _ => by decide +kernel, trivial⟩⟩

/-- **Three ways around the list**: `TOOL_HTTP` to a host that is not on it, the
remote console, and any destination of the fleet while the list is empty. -/
theorem not_egress_allowed :
    ¬ Runs.Along ToolState.step EgressAllowed bootTools [restrictNet, allowCollector,
        ⟨surfer, online, .tool (.http (.text (.lit "http://10.0.2.9/")) 0x2000 64 0)⟩] ∧
      ¬ Runs.Along ToolState.step EgressAllowed bootTools [restrictNet, allowCollector,
        ⟨surfer, online, .tool (.remote .enable 0)⟩,
        ⟨surfer, online, .tool (.remote .connect 0)⟩] ∧
      ¬ Runs.Along ToolState.step EgressAllowed bootTools (restrictNet :: reportToCollector) := by
  refine ⟨?_, ?_, ?_⟩
  · rintro ⟨-, -, hhttp, -⟩
    have hmem := hhttp (by decide +kernel) ⟨bytes "10.0.2.9", 80⟩ (by decide +kernel)
    revert hmem
    decide +kernel
  · rintro ⟨-, -, -, hremote, -⟩
    have hmem := hremote (by decide +kernel) gatewayDest (by decide +kernel)
    revert hmem
    decide +kernel
  · rintro ⟨-, -, hfleet, -⟩
    have hmem := hfleet (by decide +kernel) ⟨bytes "10.0.2.2", 8765⟩ (by decide +kernel)
    revert hmem
    decide +kernel

end OpenAgentOS
