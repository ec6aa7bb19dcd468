import OpenAgentOS.Lib.Scan
import OpenAgentOS.Tool.FileTools

/-!
# The runtime policy (kernel/policy.c)

Agents may change two lists while the machine runs: the tools that are denied,
and the destinations that are allowed while `net_restrict` is set. Both are
filled by `TOOL_POLICY` commands or from the lines of a policy file.

- `Policy`, `NetPolicy`: the lists, with what every function of the source keeps
  true of them. A policy that breaks one of these facts cannot be built.
- `policyLoad`, `runPolicy`: the policy file and the commands. A load replaces
  the denied tools and adds to the allowed destinations; nothing ever removes a
  destination.
- `policyNetAllow_eq_zero_iff`: what the network check answers. An empty list
  allows everything, restricted or not.
- `not_mem_allow_of_long`: the name of a destination is cut to 47 bytes when it
  is stored and not when it is checked, so allowing a longer name does not allow it.
-/

namespace OpenAgentOS

open CString

/-- `POLICY_DENY_MAX`. -/
abbrev policyDenyMax : Nat := 16

/-- `POLICY_NET_ALLOW_MAX`. -/
abbrev policyNetAllowMax : Nat := 8

/-- The bytes of a host name that `net_allow_host` has room for. -/
abbrev netAllowHostMax : Nat := 47

/-- A host and a port. The host is the text in front of its terminator. -/
structure Dest where
  host : List UInt8
  port : UInt16
deriving DecidableEq

/-- `net_allow_host`, `net_allow_port`, `net_allow_count` and `net_restrict`. -/
structure NetPolicy where
  allow : List Dest
  restrict : Bool
  allow_le : allow.length ≤ policyNetAllowMax
  host_le : ∀ d ∈ allow, d.host.length ≤ netAllowHostMax

/-- `deny_tools` and `deny_count`, and the network part. -/
structure Policy where
  deny : List Int
  net : NetPolicy
  deny_le : deny.length ≤ policyDenyMax
  deny_nodup : deny.Nodup
  deny_tool : ∀ tool ∈ deny, policyExempt tool = false

/-- `policy_init` (policy.c:40); the file it writes belongs to the file system. -/
def policyInit : Policy where
  deny := []
  net := ⟨[], false, by decide +kernel, nofun⟩
  deny_le := by decide
  deny_nodup := .nil
  deny_tool := nofun

/-! ## Destinations -/

/-- `policy_net_set_restrict` (policy.c:53). -/
def policyNetSetRestrict (p : NetPolicy) (on : Int) : Int × NetPolicy :=
  (if on ≠ 0 then 1 else 0, { p with restrict := on != 0 })

/-- `policy_net_add_allow` (policy.c:59). -/
def policyNetAddAllow (p : NetPolicy) (host : List UInt8) (port : UInt16) : Int × NetPolicy :=
  if host = [] ∨ port = 0 then (einval, p)
  else if p.allow.contains ⟨host, port⟩ then (0, p)
  else if h : policyNetAllowMax ≤ p.allow.length then (enospc, p)
  else
    (0, { p with
      allow := p.allow ++ [⟨host.take netAllowHostMax, port⟩]
      allow_le := by
        rw [List.length_append, List.length_singleton]
        omega
      host_le := by
        intro d hd
        rcases List.mem_append.mp hd with hd | hd
        · exact p.host_le d hd
        · rw [List.mem_singleton.mp hd]
          exact List.length_take_le _ _ })

/-- `policy_net_allow` (policy.c:94). -/
def policyNetAllow (p : NetPolicy) (host : List UInt8) (port : UInt16) : Int :=
  if host = [] then einval
  else if p.restrict = false ∨ p.allow.length = 0 then 0
  else if p.allow.contains ⟨host, port⟩ then 0
  else eperm

/-- **What the network check lets through.** -/
theorem policyNetAllow_eq_zero_iff {p : NetPolicy} {host : List UInt8} {port : UInt16} :
    policyNetAllow p host port = 0 ↔
      host ≠ [] ∧ (p.restrict = true → p.allow = [] ∨ ⟨host, port⟩ ∈ p.allow) := by
  rw [policyNetAllow]
  by_cases hhost : host = []
  · rw [if_pos hhost]
    constructor
    · intro h
      exact absurd h (by decide)
    · rintro ⟨hne, -⟩
      exact absurd hhost hne
  rw [if_neg hhost]
  by_cases hopen : p.restrict = false ∨ p.allow.length = 0
  · rw [if_pos hopen]
    refine ⟨fun _ => ⟨hhost, fun hrestrict => .inl ?_⟩, fun _ => rfl⟩
    rcases hopen with hopen | hopen
    · rw [hrestrict] at hopen
      cases hopen
    · exact List.eq_nil_of_length_eq_zero hopen
  rw [if_neg hopen]
  rw [not_or, Bool.not_eq_false, List.length_eq_zero_iff] at hopen
  by_cases hmem : p.allow.contains ⟨host, port⟩ = true
  · rw [if_pos hmem]
    exact ⟨fun _ => ⟨hhost, fun _ => .inr (List.contains_iff_mem.mp hmem)⟩, fun _ => rfl⟩
  · rw [if_neg hmem]
    rw [List.contains_iff_mem] at hmem
    constructor
    · intro h
      exact absurd h (by decide)
    · rintro ⟨-, h⟩
      exact absurd (h hopen.1) (not_or.mpr ⟨hopen.2, hmem⟩)

/-- A name that is too long is never found on the list. -/
theorem not_mem_allow_of_long (p : NetPolicy) {host : List UInt8}
    (hlong : netAllowHostMax < host.length) (port : UInt16) : (⟨host, port⟩ : Dest) ∉ p.allow :=
  fun hmem => absurd (p.host_le _ hmem) (Nat.not_le.mpr hlong)

/-! ## Tools -/

/-- `policy_deny_tool` (policy.c:239). -/
def policyDenyTool (p : Policy) (tool : Int) : Int × Policy :=
  if tool < 0 ∨ 31 < tool then (einval, p)
  else if hexempt : policyExempt tool = true then (einval, p)
  else if hmem : tool ∈ p.deny then (0, p)
  else if hroom : policyDenyMax ≤ p.deny.length then (enospc, p)
  else
    (0, { p with
      deny := p.deny ++ [tool]
      deny_le := by
        rw [List.length_append, List.length_singleton]
        omega
      deny_nodup := by
        rw [List.nodup_append]
        refine ⟨p.deny_nodup, List.nodup_singleton tool, fun x hx y hy => ?_⟩
        rw [List.mem_singleton.mp hy]
        exact fun h => hmem (h ▸ hx)
      deny_tool := by
        intro x hx
        rcases List.mem_append.mp hx with hx | hx
        · exact p.deny_tool x hx
        · rw [List.mem_singleton.mp hx]
          exact Bool.not_eq_true _ ▸ hexempt })

/-- `policy_allow_tool` (policy.c:253): the first entry goes and the others move up. -/
def policyAllowTool (p : Policy) (tool : Int) : Int × Policy :=
  (0, { p with
    deny := p.deny.erase tool
    deny_le := List.length_erase_le.trans p.deny_le
    deny_nodup := p.deny_nodup.erase tool
    deny_tool := fun x hx => p.deny_tool x (List.mem_of_mem_erase hx) })

/-- A command that denies a tool and succeeds leaves it denied; one that allows a
tool leaves it allowed. -/
theorem mem_deny_of_denyTool {p : Policy} {tool : Int} (h : (policyDenyTool p tool).1 = 0) :
    tool ∈ (policyDenyTool p tool).2.deny := by
  rw [policyDenyTool] at h ⊢
  split_ifs at h ⊢ with hrange hexempt hmem hroom
  · cases h
  · cases h
  · exact hmem
  · cases h
  · exact List.mem_append_right _ (List.mem_singleton_self tool)

theorem not_mem_deny_of_allowTool (p : Policy) (tool : Int) :
    tool ∉ (policyAllowTool p tool).2.deny := fun hmem =>
  (List.Nodup.mem_erase_iff p.deny_nodup).mp hmem |>.1 rfl

/-! ## The policy file -/

/-- `policy_parse_net_allow` (policy.c:119). The keyword `restrict` is read in two
halves, and `open` may stand in place of the second. -/
def policyParseNetAllow (p : NetPolicy) (line : List UInt8) : Int × NetPolicy :=
  let walk := skipBlanks line
  if !hasAt walk 0 (bytes "net") then (0, p)
  else
    let walk := skipBlanks (walk.drop 3)
    if hasAt walk 0 (bytes "rest") then
      let walk := skipBlanks (walk.drop 4)
      if hasAt walk 0 (bytes "rict") then policyNetSetRestrict p 1
      else if hasAt walk 0 (bytes "open") then policyNetSetRestrict p 0
      else (0, p)
    else if !hasAt walk 0 (bytes "allow") then (0, p)
    else
      let walk := skipBlanks (walk.drop 5)
      let host := (walk.takeWhile fun c =>
        c != 0 && c != ':'.toUInt8 && c != ' '.toUInt8).take netAllowHostMax
      let walk := walk.drop host.length
      if host = [] then (-1, p)
      else
        match if charAt walk 0 == ':'.toUInt8 then scanPort 0 (walk.drop 1) else some (0, walk) with
        | none => (-1, p)
        | some (port, _) =>
          policyNetAddAllow p host (UInt16.ofNat (if port = 0 then 443 else port))

/-- `policy_parse_line` (policy.c:169). -/
def policyParseLine (p : Policy) (line : List UInt8) : Int × Policy :=
  let walk := skipBlanks line
  if hasAt walk 0 (bytes "net") then
    ((policyParseNetAllow p.net line).1, { p with net := (policyParseNetAllow p.net line).2 })
  else if hasAt walk 0 (bytes "deny") then
    let walk := skipBlanks (walk.drop 4)
    if !isDigit (charAt walk 0) then (-1, p) else policyDenyTool p (scanInt 0 walk).1
  else (0, p)

/-- `POLICY_ACTIVE`. -/
def policyActive : CStr := .lit "/sys/policy/active"

/-- `policy_load` (policy.c:197). A line ends at a newline or at a zero byte, and an
empty line is skipped. -/
def policyLoad (fs : Ramfs) (p : Policy) (path : Option CStr) : Int × Policy :=
  let path := match path with
    | none => policyActive
    | some path => if path.bytes = [] then policyActive else path
  match ramfsRead fs path 0 (ramfsFileSize - 1 : Nat) with
  | .error e => (e, p)
  | .ok buf =>
    let lines := buf.splitOnP fun c => c == '\n'.toUInt8 || c == 0
    let start : Policy := { policyInit with net := p.net }
    let loaded := (lines.filter (· ≠ [])).foldl (fun p line => (policyParseLine p line).2) start
    (loaded.deny.length, loaded)

/-! ## The commands -/

/-- A text argument of a tool: a null pointer, one that cannot be read, or the text
that the kernel has copied. -/
inductive TextArg where
  | null
  | fault
  | text (s : CStr)

/-- The commands of `TOOL_POLICY` with their arguments. -/
inductive PolicyCmd where
  | status
  | load (path : TextArg)
  | probe (tool : Int)
  | deny (tool : Int)
  | allow (tool : Int)
  | netAllow (host : TextArg) (port : UInt16)
  | netStatus
  | netRestrict (on : Int)
  | unknown

/-- A change of the network part only. -/
def Policy.setNet (p : Policy) (out : Int × NetPolicy) : Int × Policy := (out.1, { p with net := out.2 })

/-- `run_policy` (tool.c:741). -/
def runPolicy (fs : Ramfs) (p : Policy) : PolicyCmd → Int × Policy
  | .status => (p.deny.length, p)
  | .load .null => policyLoad fs p none
  | .load .fault => (efault, p)
  | .load (.text path) => policyLoad fs p (some path)
  | .probe tool => (policyToolAllow ⟨fs, fun _ => 0, p.deny⟩ tool, p)
  | .deny tool => policyDenyTool p tool
  | .allow tool => policyAllowTool p tool
  | .netAllow .null _ => (einval, p)
  | .netAllow .fault _ => (efault, p)
  | .netAllow (.text host) port => p.setNet (policyNetAddAllow p.net host.bytes port)
  | .netStatus => (p.net.allow.length, p)
  | .netRestrict on => p.setNet (policyNetSetRestrict p.net on)
  | .unknown => (einval, p)

end OpenAgentOS
