import OpenAgentOS.Tool.Policy

/-!
# Routes from a tool to `tcp_connect` (kernel/netstack.c, http.c, fleet.c, remote.c, llm_deepseek.c)

Four pieces of kernel code open a connection on behalf of an agent. Each one is
modelled up to the call of `tcp_connect`: the destination it is called for, or
the error with which the code returns before.

- `netHttpGet`: `TOOL_HTTP`. The destination comes from the caller's URL.
- `fleetIngest`: `TOOL_FLEET`, to the caller's URL or to a fixed collector.
- `remoteConnect`: `TOOL_REMOTE`, to a port of the gateway.
- `llmDeepseekQuery`: the language model, at most twice to one fixed host.

The first two have a URL parser each; they agree on what the stricter one accepts
(`parseUrl_of_parseHttpUrl`). Only the fleet and the
language model ask the policy (`policyNetAllow_of_fleetIngest`,
`policyNetAllow_of_deepseek`).
-/

namespace OpenAgentOS

open CString

/-! ## URLs -/

/-- The scheme: whether it is `https`, and the text behind `://`. -/
def urlScheme (url : List UInt8) : Option (Bool × List UInt8) :=
  if hasAt url 0 (bytes "http") then
    let https := charAt url 4 == 's'.toUInt8
    let i := if https then 5 else 4
    if hasAt url i (bytes "://") then some (https, url.drop (i + 3)) else none
  else none

/-- The host: everything in front of a slash or a colon. -/
def urlHost (text : List UInt8) : List UInt8 :=
  text.takeWhile fun c => c != 0 && c != '/'.toUInt8 && c != ':'.toUInt8

/-- The port behind the host, if it is a number of 16 bits, and what is left. -/
def urlPort (https : Bool) (text : List UInt8) : Option (Nat × List UInt8) :=
  if charAt text 0 == ':'.toUInt8 then scanPort 0 (text.drop 1)
  else some (if https then 443 else 80, text)

/-- `parse_url` (netstack.c:840); the path is cut, whatever its length. -/
def parseUrl (url : List UInt8) : Option Dest := do
  let (https, text) ← urlScheme url
  let host := urlHost text
  if 64 ≤ host.length ∨ host = [] then none
  let (port, _) ← urlPort https (text.drop host.length)
  return ⟨host, UInt16.ofNat port⟩

/-- `parse_http_url` (fleet.c:49): the destination, and whether it is `https`. -/
def parseHttpUrl (url : List UInt8) : Except Int (Dest × Bool) :=
  match urlScheme url with
  | none => .error einval
  | some (https, text) =>
    let host := urlHost text
    if 64 ≤ host.length then .error enospc
    else if host = [] then .error einval
    else
      match urlPort https (text.drop host.length) with
      | none => .error einval
      | some (port, path) =>
        if 128 ≤ path.length then .error enospc
        else .ok (⟨host, UInt16.ofNat port⟩, https)

/-- **The two parsers agree** on the URLs that the stricter one accepts. -/
theorem parseUrl_of_parseHttpUrl {url : List UInt8} {d : Dest} {https : Bool}
    (h : parseHttpUrl url = .ok (d, https)) : parseUrl url = some d := by
  rw [parseHttpUrl] at h
  split at h
  · cases h
  · rename_i https' text hscheme
    dsimp only at h
    split_ifs at h with hlong hempty
    split at h
    · cases h
    · rename_i port path hport
      split_ifs at h with hpath
      obtain ⟨rfl, -⟩ := Prod.mk.inj (Except.ok.inj h)
      have hhost : ¬ (64 ≤ (urlHost text).length ∨ urlHost text = []) :=
        not_or.mpr ⟨hlong, hempty⟩
      rw [parseUrl, hscheme, Option.bind_eq_bind, Option.bind_some]
      dsimp only
      rw [if_neg hhost, hport]
      rfl

/-! ## Destinations -/

/-- `NET_GW_HOST` and `REMOTE_DEFAULT_PORT`. -/
def gatewayDest : Dest := ⟨bytes "10.0.2.2", 5557⟩

/-- `DEEPSEEK_HOST` and its port. -/
def deepseekDest : Dest := ⟨bytes "api.deepseek.com", 443⟩

/-- `FLEET_CACHE`. -/
def fleetCache : CStr := .lit "/agent/0/fleet.json"

/-- `FLEET_COLLECTOR_NET`. -/
def fleetCollectorNet : CStr := .lit "http://10.0.2.2:8765/ingest"

/-- How the machine is built and what the network answers during a call. -/
structure NetAnswers where
  /-- `HTTP_FAUX`: requests are answered from a table. -/
  httpFaux : Bool
  /-- Not the stub of `net_https_post_port`. -/
  tls : Bool
  /-- `LLM_NATIVE_NET` without `LLM_FAUX`. -/
  llmNative : Bool
  /-- `api_key_present()`. -/
  apiKey : Bool
  /-- `netstack_ready()`. -/
  ready : Bool
  /-- Name resolution and, in `net_http_get`, the gateway's `arp_resolve` succeed. -/
  resolves : Bool
  /-- `net_dns_resolve_slirp` finds an address. -/
  slirp : Bool
  /-- The first `net_https_post_ip` gets an answer. -/
  first : Bool

/-- `net_http_get` (netstack.c:955). -/
def netHttpGet (net : NetAnswers) (url : List UInt8) : Except Int Dest :=
  if net.ready = false then .error einval
  else
    match parseUrl url with
    | none => .error einval
    | some d =>
      if d.port = 443 then .error eio
      else if net.resolves = false then .error etimedout
      else .ok d

/-- `agent_http_fetch` (http.c:115), without the bridge, which opens no connection
of the network stack. -/
def agentHttpFetch (net : NetAnswers) (url : List UInt8) : Except Int Dest :=
  if net.httpFaux then .error enodev
  else if net.ready = false then .error enodev
  else netHttpGet net url

/-- `fleet_ingest_net` (fleet.c:108). -/
def fleetIngestNet (p : NetPolicy) (net : NetAnswers) (url : List UInt8) : Except Int Dest :=
  match parseHttpUrl url with
  | .error e => .error e
  | .ok (d, https) =>
    if policyNetAllow p d.host d.port ≠ 0 then .error eperm
    else if d.port = 0 then .error einval
    else if https = true ∧ net.tls = false then .error enodev
    else if net.resolves = false then .error etimedout
    else .ok d

/-- `fleet_ingest` (fleet.c:269). Without a network the request goes to
`agent_http_fetch`, which then opens no connection. -/
def fleetIngest (fs : Ramfs) (p : NetPolicy) (net : NetAnswers) (url : Option CStr) :
    Except Int Dest :=
  match ramfsRead fs fleetCache 0 (ramfsFileSize - 1 : Nat) with
  | .error _ | .ok [] => .error enoent
  | .ok (_ :: _) =>
    if net.ready = false then .error enodev
    else
      match url with
      | none => fleetIngestNet p net fleetCollectorNet.bytes
      | some url =>
        fleetIngestNet p net (if url.bytes = [] then fleetCollectorNet.bytes else url.bytes)

/-- `remote_connect` (remote.c:61). -/
def remoteConnect (enabled : Bool) (net : NetAnswers) : Except Int Dest :=
  if enabled = false then .error eperm
  else if net.ready = false then .error enodev
  else .ok gatewayDest

/-- The attempts of `llm_deepseek_query`: one with the address of the local resolver,
and one more if that had none or got no answer. -/
def deepseekAttempts (net : NetAnswers) : List Dest :=
  (if net.slirp then [deepseekDest] else []) ++
    (if (!net.slirp || !net.first) && net.resolves then [deepseekDest] else [])

/-- `llm_deepseek_query` (llm_deepseek.c:88): the destinations in order. -/
def llmDeepseekQuery (p : NetPolicy) (net : NetAnswers) : Except Int (List Dest) :=
  if net.ready = false then .error enodev
  else if net.apiKey = false then .error enodev
  else if policyNetAllow p deepseekDest.host deepseekDest.port ≠ 0 then .error eperm
  else .ok (deepseekAttempts net)

/-! ## What the routes check -/

/-- A destination of `TOOL_HTTP` is that of its URL. -/
theorem parseUrl_of_httpFetch {net : NetAnswers} {url : List UInt8} {d : Dest}
    (h : agentHttpFetch net url = .ok d) : parseUrl url = some d ∧ d.port ≠ 443 := by
  rw [agentHttpFetch] at h
  split_ifs at h with hfaux hready
  rw [netHttpGet, if_neg hready] at h
  split at h
  · cases h
  · rename_i d' hurl
    split_ifs at h with hport hresolves
    obtain rfl := Except.ok.inj h
    exact ⟨hurl, hport⟩

/-- The fleet asks the policy first. -/
theorem policyNetAllow_of_fleetIngestNet {p : NetPolicy} {net : NetAnswers} {url : List UInt8}
    {d : Dest} (h : fleetIngestNet p net url = .ok d) : policyNetAllow p d.host d.port = 0 := by
  rw [fleetIngestNet] at h
  split at h
  · cases h
  · rename_i d' https hurl
    split_ifs at h with hallow hport htls hresolves
    obtain rfl := Except.ok.inj h
    exact not_not.mp hallow

theorem policyNetAllow_of_fleetIngest {fs : Ramfs} {p : NetPolicy} {net : NetAnswers}
    {url : Option CStr} {d : Dest} (h : fleetIngest fs p net url = .ok d) :
    policyNetAllow p d.host d.port = 0 := by
  unfold fleetIngest at h
  split at h
  · cases h
  · cases h
  · split_ifs at h with hready
    cases url with
    | none => exact policyNetAllow_of_fleetIngestNet h
    | some url => exact policyNetAllow_of_fleetIngestNet h

/-- The language model is at one destination. -/
theorem eq_deepseekDest_of_attempt {net : NetAnswers} {d : Dest} (hd : d ∈ deepseekAttempts net) :
    d = deepseekDest := by
  rcases List.mem_append.mp hd with hd | hd
  · split_ifs at hd with hslirp
    · exact List.mem_singleton.mp hd
    · cases hd
  · split_ifs at hd with hagain
    · exact List.mem_singleton.mp hd
    · cases hd

/-- The policy is asked about it first. -/
theorem policyNetAllow_of_deepseek {p : NetPolicy} {net : NetAnswers} {ds : List Dest}
    (h : llmDeepseekQuery p net = .ok ds) {d : Dest} (hd : d ∈ ds) :
    policyNetAllow p d.host d.port = 0 := by
  rw [llmDeepseekQuery] at h
  split_ifs at h with hready hkey hallow
  obtain rfl := Except.ok.inj h
  rw [eq_deepseekDest_of_attempt hd]
  exact not_not.mp hallow

end OpenAgentOS
