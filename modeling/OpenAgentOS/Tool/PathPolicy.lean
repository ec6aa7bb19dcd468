import OpenAgentOS.Abi
import OpenAgentOS.Lib.CString

/-!
# Who may read and write which path (kernel/tool.c, audit.c, namespace.c, tenant.c)

`policy_fs_read` and `policy_fs_write` decide from the text of a path alone
whether an agent may touch the file. Five areas have a grammar of their own:
`/audit`, `/ns`, `/session`, `/sys` and `/agent`.

- `parseOwner`: the parser the first three share, up to the area's name, what
  follows the agent's id, and whether the path has to end there.
- `policyFsRead`, `policyFsWrite`: the two decisions, as the source nests them.
- `writeOwner`: the one id a path can be written by, if the storage service is
  left aside. Writing is granted to exactly that id
  (`policyFsWrite_eq_zero_iff`); reading is granted to it, to the owner of an
  audit log, and to everybody below `/sys` (`policyFsRead_eq_zero`).
- `writeOwner_append`: a path that is cut off after its owner has been read
  still has that owner. The kernel cuts paths at 63 bytes, so isolation needs
  this as well.
-/

namespace OpenAgentOS

open CString

/-- What the gateway looks at in a `struct agent`. -/
structure Caller where
  id : Fin maxAgents
  caps : UInt32

/-- `agent_has_cap` (agent.c:126). -/
def Caller.hasCap (a : Caller) (cap : UInt32) : Bool := a.caps &&& cap != 0

/-! ## The areas -/

/-- `is_audit_path` (tool.c:39); the leading slash is not looked at. -/
def isAuditPath (path : List UInt8) : Bool := hasAt path 1 (bytes "audit/")

/-- `namespace_is_path` (namespace.c:31). -/
def namespaceIsPath (path : List UInt8) : Bool :=
  charAt path 0 == '/'.toUInt8 && hasAt path 1 (bytes "ns/")

/-- The shared shape of the id parsers: `?<area>agent/<digits>/<tail>`, and then
the end of the path if `toEnd` is set. The result is the id as an `int`, which
wraps around, or `-1`. -/
def parseOwner (area tail : String) (toEnd : Bool) (path : List UInt8) : Int :=
  let lead := bytes area ++ bytes "agent/"
  let digits := path.drop (1 + lead.length)
  let num := scanInt 0 digits
  if hasAt path 1 lead && isDigit (charAt digits 0)
      && hasAt num.2 0 ('/'.toUInt8 :: bytes tail)
      && (!toEnd || charAt num.2 (1 + tail.length) == 0) then num.1
  else -1

/-- `parse_audit_agent_id` (audit.c:6). -/
def parseAuditAgentId : List UInt8 → Int := parseOwner "audit/" "tool.log" true

/-- `parse_namespace_agent_id` (namespace.c:6). -/
def parseNamespaceAgentId : List UInt8 → Int := parseOwner "ns/" "home/" false

/-- `parse_session_agent_id` (tenant.c:7). The area's name lacks its last letter
in the source. -/
def parseSessionAgentId : List UInt8 → Int := parseOwner "sessio/" "log" true

/-- `audit_path_ok`, `namespace_path_ok` and `tenant_session_path_ok`: the
parsed id is the caller's. -/
def ownPath (parse : List UInt8 → Int) (a : Caller) (path : List UInt8) : Bool :=
  let id := parse path
  if id < 0 then false else id == (a.id : Int)

/-- `audit_path_ok` (audit.c:116). -/
def auditPathOk : Caller → List UInt8 → Bool := ownPath parseAuditAgentId

/-- `namespace_path_ok` (namespace.c:114). -/
def namespacePathOk (a : Caller) (path : List UInt8) : Bool :=
  if namespaceIsPath path then ownPath parseNamespaceAgentId a path else false

/-- `tenant_session_path_ok` (tenant.c:113). -/
def tenantSessionPathOk : Caller → List UInt8 → Bool := ownPath parseSessionAgentId

/-- The end of both decisions: the `/agent/<digits>/` area, where no digit at
all stands for agent 0. -/
def agentAreaRule (a : Caller) (path : List UInt8) : Int :=
  if hasAt path 1 (bytes "agent/") then
    let num := scanInt 0 (path.drop 7)
    if charAt num.2 0 ≠ '/'.toUInt8 then einval
    else if num.1 = (a.id : Int) then 0 else eperm
  else eperm

/-! ## The decisions -/

/-- `storage_path_ok` (tool.c:136). -/
def storagePathOk (path : List UInt8) (write : Bool) : Int :=
  if charAt path 0 ≠ '/'.toUInt8 then einval
  else if isAuditPath path then eperm
  else if namespaceIsPath path then eperm
  else if hasAt path 1 (bytes "sys") then if write then eperm else 0
  else if hasAt path 1 (bytes "agent/") then 0
  else if hasAt path 1 (bytes "session/") then 0
  else eperm

/-- `policy_fs_read` (tool.c:157), on the path it has read from the caller. -/
def policyFsRead (a : Caller) (path : List UInt8) : Int :=
  if isAuditPath path then if auditPathOk a path then 0 else eperm
  else if namespaceIsPath path then if namespacePathOk a path then 0 else eperm
  else if a.hasCap capSvcStorage then storagePathOk path false
  else if charAt path 0 ≠ '/'.toUInt8 then einval
  else if hasAt path 1 (bytes "sys") then 0
  else if hasAt path 1 (bytes "session/") then if tenantSessionPathOk a path then 0 else eperm
  else agentAreaRule a path

/-- `policy_fs_write` (tool.c:192), on the path it has read from the caller. The
leading slash of an `/agent` path is not looked at. -/
def policyFsWrite (a : Caller) (path : List UInt8) : Int :=
  if isAuditPath path then eperm
  else if namespaceIsPath path then if namespacePathOk a path then 0 else eperm
  else if a.hasCap capSvcStorage then storagePathOk path true
  else if hasAt path 1 (bytes "sys") then eperm
  else agentAreaRule a path

/-! ## Owners -/

/-- The id that may write to a path, the storage service apart. -/
def writeOwner (path : List UInt8) : Option Int :=
  if isAuditPath path then none
  else if namespaceIsPath path then
    let id := parseNamespaceAgentId path
    if id < 0 then none else some id
  else if hasAt path 1 (bytes "sys") then none
  else if hasAt path 1 (bytes "agent/") then
    let num := scanInt 0 (path.drop 7)
    if charAt num.2 0 = '/'.toUInt8 then some num.1 else none
  else none

variable {a b : Caller} {path : List UInt8}

theorem parseOwner_nonneg {area tail : String} {toEnd : Bool}
    (h : 0 ≤ parseOwner area tail toEnd path) :
    let lead := bytes area ++ bytes "agent/"
    let digits := path.drop (1 + lead.length)
    let num := scanInt 0 digits
    ((hasAt path 1 lead = true ∧ isDigit (charAt digits 0) = true)
      ∧ hasAt num.2 0 ('/'.toUInt8 :: bytes tail) = true)
      ∧ (!toEnd || charAt num.2 (1 + tail.length) == 0) = true := by
  intro lead digits num
  rw [parseOwner] at h
  split_ifs at h with hall
  · simpa only [Bool.and_eq_true] using hall
  · exact absurd h (by decide)

theorem ownPath_iff {parse : List UInt8 → Int} :
    ownPath parse a path = true ↔ 0 ≤ parse path ∧ parse path = a.id := by
  rw [ownPath]
  split_ifs with h
  · simp [not_le.mpr h]
  · simp [not_lt.mp h]

theorem namespacePathOk_iff (hns : namespaceIsPath path = true) :
    namespacePathOk a path = true ↔
      (if parseNamespaceAgentId path < 0 then none else some (parseNamespaceAgentId path))
        = some (a.id : Int) := by
  rw [namespacePathOk, if_pos hns, ownPath_iff]
  split_ifs with h
  · simp [not_le.mpr h]
  · simp [not_lt.mp h]

theorem agentAreaRule_eq_zero_iff : agentAreaRule a path = 0 ↔
    (if hasAt path 1 (bytes "agent/") then
      if charAt (scanInt 0 (path.drop 7)).2 0 = '/'.toUInt8 then
        some (scanInt 0 (path.drop 7)).1 else none
    else none) = some (a.id : Int) := by
  rw [agentAreaRule]
  split_ifs <;> simp_all

/-- **Writing is granted to the owner of the path and to nobody else.** -/
theorem policyFsWrite_eq_zero_iff (ha : a.hasCap capSvcStorage = false) :
    policyFsWrite a path = 0 ↔ writeOwner path = some (a.id : Int) := by
  rw [policyFsWrite, writeOwner, ha]
  by_cases haudit : isAuditPath path = true
  · simp [haudit]
  rw [if_neg haudit, if_neg haudit]
  by_cases hns : namespaceIsPath path = true
  · rw [if_pos hns, if_pos hns, ← namespacePathOk_iff hns]
    cases namespacePathOk a path <;> simp
  rw [if_neg hns, if_neg hns, if_neg (by decide)]
  by_cases hsys : hasAt path 1 (bytes "sys") = true
  · simp [hsys]
  · rw [if_neg hsys, if_neg hsys]
    exact agentAreaRule_eq_zero_iff

/-- No path of the session area passes the misspelt test of its parser. -/
theorem tenantSessionPathOk_of_session (h : hasAt path 1 (bytes "session/") = true) :
    tenantSessionPathOk a path = false := by
  rw [← Bool.not_eq_true]
  intro hok
  obtain ⟨hpos, -⟩ := ownPath_iff.mp hok
  obtain ⟨⟨⟨hlead, -⟩, -⟩, -⟩ := parseOwner_nonneg hpos
  exact absurd (hasAt_agree (k := 6) h hlead (by decide) (by decide)) (by decide)

/-- What a granted read says about the path. -/
theorem policyFsRead_eq_zero (ha : a.hasCap capSvcStorage = false)
    (h : policyFsRead a path = 0) :
    isAuditPath path = true ∨ hasAt path 1 (bytes "sys") = true ∨
      writeOwner path = some (a.id : Int) := by
  by_cases haudit : isAuditPath path = true
  · exact .inl haudit
  by_cases hsys : hasAt path 1 (bytes "sys") = true
  · exact .inr (.inl hsys)
  refine .inr (.inr ?_)
  rw [← policyFsWrite_eq_zero_iff ha]
  rw [policyFsRead, if_neg haudit, ha] at h
  rw [policyFsWrite, if_neg haudit, ha]
  by_cases hns : namespaceIsPath path = true
  · rwa [if_pos hns] at h ⊢
  rw [if_neg hns, if_neg (by decide)] at h ⊢
  rw [if_neg hsys] at h ⊢
  by_cases hslash : charAt path 0 ≠ '/'.toUInt8
  · rw [if_pos hslash] at h
    exact absurd h (by decide)
  rw [if_neg hslash] at h
  by_cases hsession : hasAt path 1 (bytes "session/") = true
  · rw [if_pos hsession, tenantSessionPathOk_of_session hsession] at h
    exact absurd h (by decide)
  · rwa [if_neg hsession] at h

/-! ## Longer paths -/

/-- A namespace path that names an owner names the same one if it goes on. -/
theorem parseNamespaceAgentId_append (h : 0 ≤ parseNamespaceAgentId path)
    (rest : List UInt8) :
    parseNamespaceAgentId (path ++ rest) = parseNamespaceAgentId path := by
  have hall := parseOwner_nonneg h
  obtain ⟨⟨⟨hlead, hdigit⟩, htail⟩, -⟩ := hall
  have hslash := charAt_of_hasAt (k := 0) htail (by decide)
  have hnum := scanInt_drop_append (by rw [hslash]; decide) rest
  have hdigit' := charAt_append_of_ne_zero (ne_zero_of_isDigit hdigit) rest
  have hlen : 1 + (bytes "ns/" ++ bytes "agent/").length ≤ path.length := by
    have := lt_length_of_charAt_ne_zero (ne_zero_of_isDigit hdigit)
    rw [List.length_drop] at this
    omega
  rw [← List.drop_append_of_le_length hlen] at hdigit'
  have hlead' := hasAt_append (by decide) hlead rest
  have htail' := hasAt_append (by decide) htail rest
  simp only [parseNamespaceAgentId, parseOwner, hlead, hlead', hdigit, hdigit', hnum, htail,
    htail', Bool.not_false, Bool.true_or, Bool.and_true, if_true]

theorem namespaceIsPath_append (h : namespaceIsPath path = true) (rest : List UInt8) :
    namespaceIsPath (path ++ rest) = true := by
  rw [namespaceIsPath, Bool.and_eq_true, beq_iff_eq] at h ⊢
  refine ⟨?_, hasAt_append (by decide) h.2 rest⟩
  rw [charAt_append_of_ne_zero (by rw [h.1]; decide), h.1]

/-- **A path keeps its owner when it gets longer.** -/
theorem writeOwner_append {id : Int} (h : writeOwner path = some id) (rest : List UInt8) :
    writeOwner (path ++ rest) = some id := by
  simp only [writeOwner] at h
  split_ifs at h with haudit hns hneg hsys hagent hslash
  · -- a namespace path
    have hns' := namespaceIsPath_append hns rest
    have haudit' : ¬ isAuditPath (path ++ rest) = true := fun haudit' =>
      absurd (hasAt_agree (k := 0) haudit' (Bool.and_eq_true_iff.mp hns').2
        (by decide) (by decide)) (by decide)
    have hid := parseNamespaceAgentId_append (not_lt.mp hneg) rest
    rw [writeOwner, if_neg haudit', if_pos hns']
    simp only [hid, if_neg hneg, h]
  · -- a path of the agent area
    have hagent' : hasAt (path ++ rest) 1 (bytes "agent/") = true :=
      hasAt_append (by decide) hagent rest
    have haudit' : ¬ isAuditPath (path ++ rest) = true := fun haudit' =>
      absurd (hasAt_agree (k := 1) haudit' hagent' (by decide) (by decide)) (by decide)
    have hns' : ¬ namespaceIsPath (path ++ rest) = true := fun hns' =>
      absurd (hasAt_agree (k := 0) (Bool.and_eq_true_iff.mp hns').2 hagent'
        (by decide) (by decide)) (by decide)
    have hsys' : ¬ hasAt (path ++ rest) 1 (bytes "sys") = true := fun hsys' =>
      absurd (hasAt_agree (k := 0) hsys' hagent' (by decide) (by decide)) (by decide)
    have hnum := scanInt_drop_append (by rw [hslash]; decide) rest
    have hslash' := charAt_append_of_ne_zero (by rw [hslash]; decide) rest
    rw [writeOwner, if_neg haudit', if_neg hns', if_neg hsys', if_pos hagent']
    simp only [hnum, hslash', hslash, if_true, h]

/-- Nobody owns a path that starts like a system path. -/
theorem writeOwner_of_sys (h : hasAt path 1 (bytes "sys") = true) : writeOwner path = none := by
  have hns : ¬ namespaceIsPath path = true := fun hns =>
    absurd (hasAt_agree (k := 0) (Bool.and_eq_true_iff.mp hns).2 h
      (by decide) (by decide)) (by decide)
  rw [writeOwner, if_neg hns, if_pos h, ite_self]

/-- **Isolation of the path rules.** If `a` may write a path and `b` may read
some beginning of it (the path itself, or what is left after a cut), then `a`
and `b` have the same id. -/
theorem id_eq_of_write_of_read (ha : a.hasCap capSvcStorage = false)
    (hb : b.hasCap capSvcStorage = false) {rest : List UInt8}
    (hwrite : policyFsWrite a (path ++ rest) = 0) (hread : policyFsRead b path = 0) :
    a.id = b.id := by
  have howner := (policyFsWrite_eq_zero_iff ha).mp hwrite
  obtain haudit | hsys | hown := policyFsRead_eq_zero hb hread
  · have haudit' : isAuditPath (path ++ rest) = true := hasAt_append (by decide) haudit rest
    rw [writeOwner, if_pos haudit'] at howner
    cases howner
  · rw [writeOwner_of_sys (hasAt_append (by decide) hsys rest)] at howner
    cases howner
  · rw [writeOwner_append hown rest, Option.some_inj] at howner
    exact Fin.ext (Int.ofNat_inj.mp howner.symm)

end OpenAgentOS
