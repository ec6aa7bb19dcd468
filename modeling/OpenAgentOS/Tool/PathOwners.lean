import OpenAgentOS.Tool.NamespaceHome

/-!
# Path builders and path checks (kernel/tenant.c, session.c, audit.c, namespace.c)

The kernel builds the paths of an agent's session, audit log and namespace, and checks with three
parsers of its own whether a path belongs to the agent that asks.

- `ownPathOf`: the check for an agent with any id, not only for ids of the table.
- `parseNamespaceAgentId_namespaceFileFor`, `parseAuditAgentId_auditPathFor`: the parsers read the id
  that the builders wrote.
- `pathChecks_iff`: audit and namespace checks accept exactly the paths of the agent that asks; with
  the session check this holds only for paths of other agents. The parser of session paths knows a
  directory `/sessio` only, and refuses every path that `build_session_path` makes.
-/

namespace OpenAgentOS

open CString

/-- The checks (tenant.c:113, audit.c:116, namespace.c:114) for an agent with this id. -/
def ownPathOf (parse : List UInt8 → Int) (id : Nat) (path : List UInt8) : Bool :=
  let owner := parse path
  if owner < 0 then false else owner == (id : Int)

/-- `tenant_session_path_ok`. -/
def tenantSessionPathOf : Nat → List UInt8 → Bool := ownPathOf parseSessionAgentId

/-- `audit_path_ok`. -/
def auditPathOf : Nat → List UInt8 → Bool := ownPathOf parseAuditAgentId

/-- `namespace_path_ok`. -/
def namespacePathOf (id : Nat) (path : List UInt8) : Bool :=
  if namespaceIsPath path then ownPathOf parseNamespaceAgentId id path else false

section

variable {parse : List UInt8 → Int} {path : List UInt8} {i j : Nat}

/-- A path from which the parser reads `j` belongs to agent `j` alone. -/
theorem ownPathOf_iff (h : parse path = j) : ownPathOf parse i path = true ↔ i = j := by
  rw [ownPathOf, h, if_neg (Int.not_lt.mpr (Int.natCast_nonneg j)), beq_iff_eq, Int.ofNat_inj]
  exact eq_comm

/-- A path that the parser refuses belongs to nobody. -/
theorem ownPathOf_of_neg (h : parse path < 0) : ownPathOf parse i path = false := by
  rw [ownPathOf]
  exact if_pos h

/-- **A file in an agent's namespace names that agent.** -/
theorem parseNamespaceAgentId_namespaceFileFor (hj : j < 2 ^ 31) (name : CStr) :
    parseNamespaceAgentId (namespaceFileFor j name).bytes = j := by
  obtain ⟨rest, hpath⟩ : ∃ rest, (namespaceFileFor j name).bytes =
      bytes "/ns/agent/" ++ (decimal j ++ (bytes "/home/" ++ rest)) := by
    refine ⟨name.bytes.take (ramfsPathMax - 1 - ((namespaceRootFor j).length + 1)), ?_⟩
    show namespaceRootFor j ++ '/'.toUInt8 :: _ = _
    rw [namespaceRootFor, List.append_assoc, List.append_assoc]
    rfl
  have hdrop : (bytes "/ns/agent/" ++ (decimal j ++ (bytes "/home/" ++ rest))).drop
      (1 + (bytes "ns/" ++ bytes "agent/").length) = decimal j ++ (bytes "/home/" ++ rest) := rfl
  have hlead : hasAt (bytes "/ns/agent/" ++ (decimal j ++ (bytes "/home/" ++ rest))) 1
      (bytes "ns/" ++ bytes "agent/") = true := hasAt_append (by decide) (by decide) _
  have hdigit := isDigit_decimal j (bytes "/home/" ++ rest)
  have hnum : scanInt 0 (decimal j ++ (bytes "/home/" ++ rest)) = ((j : Int), bytes "/home/" ++ rest) :=
    scanInt_decimal hj rfl
  have htail : hasAt (bytes "/home/" ++ rest) 0 ('/'.toUInt8 :: bytes "home/") = true :=
    hasAt_append (by decide) (by decide) rest
  simp only [hpath, parseNamespaceAgentId, parseOwner, hdrop, hlead, hdigit, hnum, htail,
    Bool.not_false, Bool.true_or, Bool.and_self, if_true]

theorem namespaceIsPath_namespaceFileFor (j : Nat) (name : CStr) :
    namespaceIsPath (namespaceFileFor j name).bytes = true := by
  obtain ⟨rest, hpath⟩ : ∃ rest, (namespaceFileFor j name).bytes = bytes "/ns/" ++ rest := ⟨_, rfl⟩
  rw [hpath]
  exact namespaceIsPath_append (by decide) rest

/-- **The parser of session paths refuses all of them.** -/
theorem parseSessionAgentId_sessionPath (j : Nat) : parseSessionAgentId (sessionPath j).bytes < 0 := by
  by_contra hnonneg
  obtain ⟨⟨⟨hlead, -⟩, -⟩, -⟩ := parseOwner_nonneg (Int.not_lt.mp hnonneg)
  have hsession : hasAt (sessionPath j).bytes 1 (bytes "session/") = true :=
    hasAt_append (s := bytes "/session/") (by decide) (by decide) _
  exact absurd (hasAt_agree (k := 6) hsession hlead (by decide) (by decide)) (by decide)

/-- The audit check accepts the log of the agent itself, and no other. -/
theorem auditPathOf_auditPathFor (hj : j < 2 ^ 31) :
    auditPathOf i (auditPathFor j).bytes = true ↔ i = j :=
  ownPathOf_iff (parseAuditAgentId_auditPathFor hj)

/-- The namespace check accepts the files of the agent itself, and no others. -/
theorem namespacePathOf_namespaceFileFor (hj : j < 2 ^ 31) (name : CStr) :
    namespacePathOf i (namespaceFileFor j name).bytes = true ↔ i = j := by
  rw [namespacePathOf, if_pos (namespaceIsPath_namespaceFileFor j name)]
  exact ownPathOf_iff (parseNamespaceAgentId_namespaceFileFor hj name)

/-- The session check accepts no session at all. -/
theorem tenantSessionPathOf_sessionPath : tenantSessionPathOf i (sessionPath j).bytes = false :=
  ownPathOf_of_neg (parseSessionAgentId_sessionPath j)

/-- The checks called for agent `i` accept the paths built for agent `j` exactly if these are the same
agent. -/
structure PathChecksAgree (i j : Nat) (name : CStr) : Prop where
  session : tenantSessionPathOf i (sessionPath j).bytes = true ↔ i = j
  audit : auditPathOf i (auditPathFor j).bytes = true ↔ i = j
  home : namespacePathOf i (namespaceFileFor j name).bytes = true ↔ i = j

/-- **Checks and builders agree** exactly for paths of other agents. -/
theorem pathChecks_iff (name : CStr) (hj : j < 10 ^ 8) : PathChecksAgree i j name ↔ i ≠ j := by
  have hint : j < 2 ^ 31 := Nat.lt_trans hj (by decide)
  constructor
  · rintro ⟨hown, -, -⟩ heq
    have htrue := hown.mpr heq
    rw [tenantSessionPathOf_sessionPath] at htrue
    cases htrue
  · intro hne
    refine ⟨?_, auditPathOf_auditPathFor hint, namespacePathOf_namespaceFileFor hint name⟩
    rw [tenantSessionPathOf_sessionPath]
    exact ⟨nofun, fun heq => absurd heq hne⟩

end

theorem pathChecks_two_three : PathChecksAgree 2 3 (.lit "secret") :=
  (pathChecks_iff (.lit "secret") (by decide)).mpr (by decide)

/-- **An agent and its own session log**: the check refuses it, and so does `TOOL_READ`. -/
theorem not_pathChecks_own : ¬ PathChecksAgree 3 3 (.lit "secret") ∧
    policyFsRead (plainAgent 3) (sessionPath 3).bytes = eperm := by
  refine ⟨fun h => ?_, by decide +kernel⟩
  have hown := h.session.mpr rfl
  revert hown
  decide +kernel

end OpenAgentOS
