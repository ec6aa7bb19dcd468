import OpenAgentOS.Lib.Runs
import OpenAgentOS.Tool.Dispatch

/-!
# The secret of a namespace (kernel/namespace.c)

An agent has a file of its own, `/ns/agent/<id>/home/secret`, with a quota of 256
bytes. `NS_CMD_WRITE` replaces the file within the quota. `TOOL_WRITE` may write to the
same path, since the namespace lets its owner pass, and consults no quota: the one for
files does not know the path, and `namespace_home_usage` is asked by the other tool only.

- `namespaceFileFor`, `namespaceHomeUsage`, `namespaceWriteSecret`, `runNamespaceWrite`:
  the code.
- `namespace_quota`: as long as no single `TOOL_WRITE` to the secret is longer than the
  quota, the secret never is. A write overlays what is there and makes the file at most as
  long as itself.
- `not_namespace_quota`: one write of 257 bytes.
-/

namespace OpenAgentOS

open CString

/-- `NAMESPACE_HOME_QUOTA`. -/
abbrev namespaceHomeQuota : Nat := 256

/-- `NS_CMD_WRITE`. -/
abbrev nsCmdWrite : Int := 2

/-- `namespace_root_for` (namespace.c:36). -/
def namespaceRootFor (agentId : Nat) : List UInt8 :=
  bytes "/ns/agent/" ++ (decimal agentId ++ bytes "/home")

/-- `namespace_file_for` (namespace.c:71). -/
def namespaceFileFor (agentId : Nat) (name : CStr) : CStr where
  bytes :=
    namespaceRootFor agentId ++
      '/'.toUInt8 :: name.bytes.take (ramfsPathMax - 1 - ((namespaceRootFor agentId).length + 1))
  nul_free := by
    simp only [namespaceRootFor, List.mem_append, List.mem_cons, not_or]
    exact ⟨⟨by decide, zero_not_mem_decimal agentId, by decide⟩, by decide,
      fun hmem => name.nul_free (List.mem_of_mem_take hmem)⟩

/-- The file that `NAMESPACE_SECRET` names. -/
def secretPath (agentId : Nat) : CStr := namespaceFileFor agentId (.lit "secret")

/-- `namespace_home_usage` (namespace.c:90). -/
def namespaceHomeUsage (fs : Ramfs) (a : Caller) : Nat :=
  match ramfsRead fs (secretPath a.id) 0 1 with
  | .error _ => 0
  | .ok _ => usageLoop fs (secretPath a.id) (ramfsFileSize - 1) 1

/-- `namespace_write_secret` (namespace.c:126). -/
def namespaceWriteSecret (fs : Ramfs) (a : Caller) (data : List UInt8) : Int × Ramfs :=
  if data.length = 0 then (einval, fs)
  else if namespaceHomeQuota < namespaceHomeUsage fs a + data.length then (enospc, fs)
  else ramfsPut fs (secretPath a.id) data

/-- `run_namespace` (tool.c:654) for `NS_CMD_WRITE`: a text is cut after 127 bytes. -/
def runNamespaceWrite (fs : Ramfs) (a : Caller) : TextArg → Int × Ramfs
  | .null | .fault => (efault, fs)
  | .text s => if s.length = 0 then (einval, fs) else namespaceWriteSecret fs a (s.bytes.take 127)

/-! ## Runs -/

/-- The calls that can write the secret. -/
inductive HomeCall where
  /-- `TOOL_WRITE`. -/
  | write (path : UserPath) (len : Int) (heap : Bool)
      (data : Option { d : List UInt8 // d.length = len.toNat })
  /-- `TOOL_NAMESPACE` with `NS_CMD_WRITE`. -/
  | secret (text : TextArg)

/-- The call as the gateway sees it. -/
def HomeCall.tool (a : Caller) : HomeCall → ToolCall
  | .write path len heap data => .file (.write path len heap data)
  | .secret text =>
    .other toolNamespace nsCmdWrite (some (capLog, 0, fun s =>
      let out := runNamespaceWrite s.fs a text
      (out.1, { s with fs := out.2 })))

/-- A call by agent `a`. Neither call uses the network. -/
def homeStep (net : NetAnswers) (a : Caller) (s : ToolState) (c : HomeCall) : ToolState :=
  s.step ⟨a, net, .tool (c.tool a)⟩

/-- The length of an agent's secret, 0 if there is none. -/
def homeLength (fs : Ramfs) (a : Caller) : Nat := ((fs.visible (secretPath a.id)).getD []).length

/-- What `TOOL_WRITE` brings for the caller's secret is not longer than the quota. -/
def HomeCall.Modest (a : Caller) : HomeCall → Prop
  | .write path len _ _ => path.text = some (secretPath a.id) → len ≤ namespaceHomeQuota
  | .secret _ => True

section Calls

variable {fs fs' : Ramfs} {a : Caller}

theorem length_secretPath_le (id : Fin maxAgents) : (secretPath id).length ≤ 24 := by
  have hid : (decimal id).length ≤ 2 := length_decimal_le (by decide) (id.isLt.trans (by decide))
  have hroot : (namespaceRootFor id).length ≤ 17 := by
    rw [namespaceRootFor, List.length_append, List.length_append]
    show 10 + ((decimal id).length + 5) ≤ 17
    omega
  have hname : ∀ n, ((bytes "secret").take n).length ≤ 6 := fun n => List.length_take_le' n _
  show (namespaceRootFor id ++ '/'.toUInt8 :: (bytes "secret").take _).length ≤ 24
  rw [List.length_append, List.length_cons]
  exact Nat.add_le_add hroot (Nat.succ_le_succ (hname _))

theorem secretPath_short (id : Fin maxAgents) : (secretPath id).length < ramfsPathMax :=
  Nat.lt_of_le_of_lt (length_secretPath_le id) (by decide)

/-- The secret is no audit log. -/
theorem secretPath_ne_auditPathFor (id id' : Fin maxAgents) : secretPath id ≠ auditPathFor id' := by
  intro h
  have hchar := congrArg (fun path : CStr => charAt path.bytes 1) h
  exact absurd (show 'n'.toUInt8 = 'a'.toUInt8 from hchar) (by decide)

theorem homeLength_congr (h : fs'.visible (secretPath a.id) = fs.visible (secretPath a.id)) :
    homeLength fs' a = homeLength fs a := by
  rw [homeLength, homeLength, h]

/-- Logging leaves the secret alone. -/
theorem homeLength_log (fs : Ramfs) (a : Caller) (tool rc : Int) :
    homeLength (toolAuditLog fs a tool rc) a = homeLength fs a :=
  homeLength_congr ((reachesOn_toolAuditLog fs a tool rc).sameUnder
    (secretPath_ne_auditPathFor a.id a.id)).visible

/-- `NS_CMD_WRITE` replaces the secret by what fits into the quota. -/
theorem homeLength_runNamespaceWrite (h : homeLength fs a ≤ namespaceHomeQuota)
    (text : TextArg) : homeLength (runNamespaceWrite fs a text).2 a ≤ namespaceHomeQuota := by
  cases text with
  | null => exact h
  | fault => exact h
  | text s =>
    have hcut : (s.bytes.take 127).length ≤ 127 := List.length_take_le _ _
    rw [runNamespaceWrite]
    split
    · exact h
    rw [namespaceWriteSecret]
    split_ifs with hempty hquota
    · exact h
    · exact h
    · obtain hput | hnone := visible_put_or_none fs (secretPath_short a.id)
        (Nat.pos_of_ne_zero hempty) (Nat.lt_of_le_of_lt hcut (by decide))
      · rw [homeLength, hput]
        exact hcut.trans (by decide)
      · rw [homeLength, hnone]
        exact Nat.zero_le _

/-- **A write of at most 256 bytes** makes the secret at most that long. -/
theorem homeLength_write (h : homeLength fs a ≤ namespaceHomeQuota) {data : List UInt8}
    (hpos : 0 < data.length) (hlen : data.length ≤ namespaceHomeQuota) :
    homeLength (ramfsWrite fs (secretPath a.id) 0 data).2 a ≤ namespaceHomeQuota := by
  obtain hwrite | hnone := visible_write_self fs (secretPath_short a.id) hpos
    (Nat.lt_of_le_of_lt hlen (by decide))
  · rw [homeLength, hwrite, Option.getD_some, List.length_append, List.length_drop]
    rw [homeLength] at h
    omega
  · rw [homeLength, hnone]
    exact Nat.zero_le _

/-- What is stored under the secret's path was given that path: a longer one would leave
63 bytes of itself. -/
theorem eq_secretPath_of_copy {text : Option CStr} {behind p : CStr}
    (hp : readPathFromUser text behind = .ok p) (hcopy : p.copy ramfsPathMax = secretPath a.id) :
    text = some (secretPath a.id) ∧ p = secretPath a.id := by
  have hbound := length_secretPath_le a.id
  have hlen : (p.bytes.take (ramfsPathMax - 1)).length = (secretPath a.id).length :=
    congrArg (fun path : CStr => path.bytes.length) hcopy
  rw [List.length_take] at hlen
  simp only [ramfsPathMax] at hlen
  have hshort : p.length < ramfsPathMax := show p.bytes.length < 64 by omega
  have hpath : p = secretPath a.id := by rw [← hcopy, CStr.copy_eq_self hshort]
  cases text with
  | none => cases hp
  | some s =>
    rw [readPathFromUser] at hp
    split_ifs at hp with hempty hfits
    · rw [Except.ok.inj hp]
      exact ⟨rfl.trans (congrArg some hpath), hpath⟩
    · -- a path that was not terminated in the buffer is too long
      have hcut := congrArg (fun path : CStr => path.bytes.length) (Except.ok.inj hp)
      dsimp only at hcut
      rw [List.length_append, List.length_take,
        Nat.min_eq_left (show ramfsPathMax ≤ s.bytes.length from Nat.not_lt.mp hfits)] at hcut
      exact absurd hshort (Nat.not_lt.mpr (show ramfsPathMax ≤ p.bytes.length by omega))

/-- `TOOL_WRITE` to any path. -/
theorem homeLength_runWrite (h : homeLength fs a ≤ namespaceHomeQuota) {path : UserPath}
    {len : Int} {heap : Bool} {data : Option { d : List UInt8 // d.length = len.toNat }}
    (hmodest : (HomeCall.write path len heap data).Modest a) :
    homeLength (runWrite fs a path len heap data).2 a ≤ namespaceHomeQuota := by
  rw [runWrite]
  split
  · exact h
  rename_i p hp
  by_cases hlen : len ≤ 0 ∨ ioMax < len
  · rw [if_pos hlen]
    exact h
  by_cases hheap : ioBuf < len ∧ heap = false
  · rw [if_neg hlen, if_pos hheap]
    exact h
  rw [if_neg hlen, if_neg hheap]
  cases data with
  | none => exact h
  | some data =>
    dsimp only
    split
    · exact h
    by_cases hcopy : p.copy ramfsPathMax = secretPath a.id
    · obtain ⟨htext, rfl⟩ := eq_secretPath_of_copy hp hcopy
      have hmax := hmodest htext
      have hdata := data.2
      exact homeLength_write h (by omega) (by omega)
    · rw [homeLength_congr (sameUnder_write fs 0 data.1 hcopy).visible]
      exact h

/-- **One call.** -/
theorem homeLength_step {net : NetAnswers} {s : ToolState}
    (h : homeLength s.fs a ≤ namespaceHomeQuota) {c : HomeCall} (hmodest : c.Modest a) :
    homeLength (homeStep net a s c).fs a ≤ namespaceHomeQuota := by
  have hrun : ∀ e, (c.tool a).entry net a = some e →
      homeLength (e.run s).state.fs a ≤ namespaceHomeQuota := by
    intro e he
    cases c with
    | write path len heap data =>
      rw [← Option.some.inj he]
      exact homeLength_runWrite h hmodest
    | secret text =>
      rw [← Option.some.inj he]
      exact homeLength_runNamespaceWrite h text
  exact dispatchTool_invariant (P := fun s => homeLength s.fs a ≤ namespaceHomeQuota)
    (fun s rc hs => (homeLength_log s.fs a _ rc).trans_le hs) (fun _ hs => hs) hrun h

end Calls

/-- **The quota of a namespace.** Whatever an agent writes with the two tools, as long as
no single `TOOL_WRITE` to the secret brings more than 256 bytes: the secret never has
more. -/
theorem namespace_quota (net : NetAnswers) (a : Caller) (s : ToolState)
    (hstart : homeLength s.fs a ≤ namespaceHomeQuota) (cs : List HomeCall)
    (hmodest : Runs.Along (homeStep net a) (fun _ c => c.Modest a) s cs) :
    homeLength (Runs.run (homeStep net a) s cs).fs a ≤ namespaceHomeQuota := by
  have hstep : ∀ s c, HomeCall.Modest a c → homeLength s.fs a ≤ namespaceHomeQuota →
      homeLength (homeStep net a s c).fs a ≤ namespaceHomeQuota := fun s c hc h =>
    homeLength_step h hc
  exact hmodest.invariant (P := fun s => homeLength s.fs a ≤ namespaceHomeQuota) hstep hstart

/-- An agent with files and a namespace. -/
def homeOwner : Caller := ⟨3, capFs ||| capLog⟩

/-- It writes `len` bytes to its secret with `TOOL_WRITE`. -/
def writeHome (len : Nat) : HomeCall :=
  .write ⟨some (secretPath 3), .lit "", .lit ""⟩ len true
    (some ⟨List.replicate len 1, List.length_replicate⟩)

/-- Both tools in turn. -/
def homeCalls : List HomeCall := [.secret (.text (.lit "token")), writeHome 256, .secret (.text (.lit "x"))]

theorem namespace_quota_full :
    homeLength (Runs.run (homeStep offline homeOwner) bootTools homeCalls).fs homeOwner = 256 ∧
      homeLength (Runs.run (homeStep offline homeOwner) bootTools homeCalls).fs homeOwner
        ≤ namespaceHomeQuota :=
  ⟨by decide +kernel, namespace_quota offline homeOwner bootTools (by decide +kernel) homeCalls
    ⟨trivial, fun _ => by decide, trivial, trivial⟩⟩

/-- **257 bytes.** A single write goes beyond the quota, and it reports success. -/
theorem not_namespace_quota :
    (Request.outcome bootTools ⟨homeOwner, offline, .tool ((writeHome 257).tool homeOwner)⟩).rc = 257 ∧
      homeLength bootTools.fs homeOwner = 0 ∧
      ¬ homeLength (Runs.run (homeStep offline homeOwner) bootTools [writeHome 257]).fs homeOwner
        ≤ namespaceHomeQuota := by
  refine ⟨?_, ?_, ?_⟩
  · decide +kernel
  · decide +kernel
  · decide +kernel

end OpenAgentOS
