import OpenAgentOS.Lib.BoundedSet
import OpenAgentOS.Lib.Runs
import OpenAgentOS.Tool.PolicyLoad

/-!
# The tables of the policy over runs (kernel/policy.c)

The denied tools stand in a table of 16 entries and the allowed destinations in one of 8.

- `denyList_run`: under any calls that deny and allow tools, the first table is a set, and a tool is
  blocked exactly if the last call for it that succeeded denied it.
- `netAllow_run_iff`: when the second table says which destinations were allowed. Two things break
  it: the empty table lets everything pass, and a name of more than 47 bytes is stored cut
  (`not_netAllow_run`).
- `policyLoad_complete_iff`: when all the rules of a file are in force after it was loaded. A rule
  for which there is no room is dropped without an error (`not_policyLoad_complete`).
-/

namespace OpenAgentOS

open CString

/-! ## Denied tools -/

/-- The calls that change the table of denied tools. -/
inductive DenyCall where
  | deny (tool : Int)
  | allow (tool : Int)

/-- The tool that a call is for. -/
def DenyCall.tool : DenyCall → Int
  | .deny tool => tool
  | .allow tool => tool

/-- A call, with the result and the policy afterwards. -/
def Policy.denyCall (p : Policy) : DenyCall → Int × Policy
  | .deny tool => policyDenyTool p tool
  | .allow tool => policyAllowTool p tool

/-- The policy after a call. -/
def Policy.afterTool (p : Policy) (call : DenyCall) : Policy := (p.denyCall call).2

/-- What a call decides about a tool: whether it is denied, if the call is for this tool and
succeeds. -/
def decidesTool (tool : Int) (p : Policy) (call : DenyCall) : Option Bool :=
  if call.tool = tool ∧ (p.denyCall call).1 = 0 then
    some (match call with
      | .deny _ => true
      | .allow _ => false)
  else none

/-- What denying a tool does to the table. -/
theorem policyDenyTool_cases (p : Policy) (tool : Int) :
    ((policyDenyTool p tool).1 ≠ 0 ∧ (policyDenyTool p tool).2 = p) ∨
      ((policyDenyTool p tool).1 = 0 ∧ 0 ≤ tool ∧ tool ≤ 31 ∧ policyExempt tool = false ∧
        ((policyDenyTool p tool).2.deny = p.deny ∧ tool ∈ p.deny ∨
          (policyDenyTool p tool).2.deny = p.deny ++ [tool])) := by
  rw [policyDenyTool]
  split_ifs with hrange hexempt hmem hroom
  · exact .inl ⟨show einval ≠ 0 by decide, rfl⟩
  · exact .inl ⟨show einval ≠ 0 by decide, rfl⟩
  · exact .inr ⟨rfl, by omega, by omega, Bool.not_eq_true _ ▸ hexempt, .inl ⟨rfl, hmem⟩⟩
  · exact .inl ⟨show enospc ≠ 0 by decide, rfl⟩
  · exact .inr ⟨rfl, by omega, by omega, Bool.not_eq_true _ ▸ hexempt, .inr rfl⟩

/-- **One call** changes the entry of its own tool, if it succeeds, and no other. -/
theorem mem_deny_afterTool (p : Policy) (call : DenyCall) (tool : Int) :
    decide (tool ∈ (p.afterTool call).deny) =
      (decidesTool tool p call).getD (decide (tool ∈ p.deny)) := by
  cases call with
  | deny t =>
    show decide (tool ∈ (policyDenyTool p t).2.deny) =
      (if t = tool ∧ (policyDenyTool p t).1 = 0 then some true else none).getD _
    obtain ⟨hrc, hsame⟩ | ⟨hrc, -, -, -, hdeny⟩ := policyDenyTool_cases p t
    · rw [if_neg fun h => hrc h.2, hsame]
      rfl
    · by_cases heq : t = tool
      · subst heq
        rw [if_pos ⟨rfl, hrc⟩]
        exact decide_eq_true (mem_deny_of_denyTool hrc)
      · rw [if_neg fun h => heq h.1, Option.getD_none, decide_eq_decide]
        obtain ⟨hsame, -⟩ | happend := hdeny
        · rw [hsame]
        · rw [happend, List.mem_append, List.mem_singleton]
          exact or_iff_left fun h => heq h.symm
  | allow t =>
    show decide (tool ∈ p.deny.erase t) =
      (if t = tool ∧ (0 : Int) = 0 then some false else none).getD _
    by_cases heq : t = tool
    · subst heq
      rw [if_pos ⟨rfl, rfl⟩]
      exact decide_eq_false (not_mem_deny_of_allowTool p t)
    · rw [if_neg fun h => heq h.1, Option.getD_none, decide_eq_decide]
      exact List.mem_erase_of_ne fun h => heq h.symm

/-- The entries of the table are numbers of tools. -/
def DeniesTools (p : Policy) : Prop := ∀ tool ∈ p.deny, 0 ≤ tool ∧ tool ≤ 31

theorem DeniesTools.afterTool {p : Policy} (h : DeniesTools p) (call : DenyCall) :
    DeniesTools (p.afterTool call) := by
  intro tool hmem
  cases call with
  | deny t =>
    change tool ∈ (policyDenyTool p t).2.deny at hmem
    obtain ⟨-, hsame⟩ | ⟨-, hlo, hhi, -, ⟨hsame, -⟩ | happend⟩ := policyDenyTool_cases p t
    · exact h tool (hsame ▸ hmem)
    · exact h tool (hsame ▸ hmem)
    · rw [happend, List.mem_append, List.mem_singleton] at hmem
      obtain hmem | rfl := hmem
      · exact h tool hmem
      · exact ⟨hlo, hhi⟩
  | allow t => exact h tool (List.mem_of_mem_erase hmem)

/-- The check blocks the tools of the table. -/
theorem policyToolAllow_eq_eperm_iff (g : Gateway) (p : Policy) (tool : Int) :
    policyToolAllow { g with denyTools := p.deny } tool = eperm ↔ tool ∈ p.deny := by
  have hcode : (0 : Int) ≠ eperm := by decide
  rw [policyToolAllow]
  by_cases hmem : tool ∈ p.deny
  · rw [if_neg (by rw [p.deny_tool tool hmem]; decide), if_pos (List.contains_iff_mem.mpr hmem)]
    exact iff_of_true rfl hmem
  · refine iff_of_false (fun h => ?_) hmem
    rw [if_neg (mt List.contains_iff_mem.mp hmem), ite_self] at h
    exact hcode h

/-- What the check answers depends on the table only through the tool's own entry. -/
theorem policyToolAllow_congr {g : Gateway} {p q : Policy} {tool : Int}
    (h : tool ∈ p.deny ↔ tool ∈ q.deny) :
    policyToolAllow { g with denyTools := p.deny } tool =
      policyToolAllow { g with denyTools := q.deny } tool := by
  rw [policyToolAllow, policyToolAllow]
  simp only [List.contains_iff_mem, h]

/-- **The denied tools are a set.** For any calls that deny and allow tools, from the start: the table
has no duplicates, at most 16 entries, and only numbers of tools that may be denied; the check blocks
a tool exactly if the last call for it that succeeded denied it; and a further call leaves the
decision about every other tool as it is. -/
theorem denyList_run (calls : List DenyCall) :
    let p := Runs.run Policy.afterTool policyInit calls
    p.deny.Nodup ∧ p.deny.length ≤ 16 ∧
      (∀ tool ∈ p.deny, 0 ≤ tool ∧ tool ≤ 31 ∧ policyExempt tool = false) ∧
      (∀ (g : Gateway) (tool : Int), policyToolAllow { g with denyTools := p.deny } tool = eperm ↔
        Runs.lastSet Policy.afterTool (decidesTool tool) policyInit calls = some true) ∧
      ∀ (g : Gateway) (call : DenyCall) (tool : Int), call.tool ≠ tool →
        policyToolAllow { g with denyTools := (p.afterTool call).deny } tool =
          policyToolAllow { g with denyTools := p.deny } tool := by
  intro p
  have hstart : DeniesTools policyInit := fun tool hmem => absurd hmem List.not_mem_nil
  have hrange : DeniesTools p :=
    Runs.run_invariant (fun _ call h => h.afterTool call) hstart calls
  refine ⟨p.deny_nodup, p.deny_le, fun tool hmem => ?_, fun g tool => ?_, fun g call tool hne => ?_⟩
  · exact ⟨(hrange tool hmem).1, (hrange tool hmem).2, p.deny_tool tool hmem⟩
  · let denied : Policy → Bool := fun p => decide (tool ∈ p.deny)
    have hstep : ∀ p call, denied (p.afterTool call) = (decidesTool tool p call).getD (denied p) :=
      fun p call => mem_deny_afterTool p call tool
    have hlast : decide (tool ∈ p.deny) =
        (Runs.lastSet Policy.afterTool (decidesTool tool) policyInit calls).getD false :=
      Runs.observe_run hstep policyInit calls
    rw [policyToolAllow_eq_eperm_iff, ← decide_eq_true_iff (p := tool ∈ p.deny), hlast]
    cases Runs.lastSet Policy.afterTool (decidesTool tool) policyInit calls with
    | none => exact iff_of_false Bool.false_ne_true nofun
    | some denied => exact (Option.some_inj).symm
  · refine policyToolAllow_congr ?_
    have hnone : decidesTool tool p call = none := if_neg fun h => hne h.1
    rw [← decide_eq_decide, mem_deny_afterTool, hnone]
    rfl

/-! ## Allowed destinations -/

/-- The calls that change the network part. -/
inductive NetCall where
  | add (d : Dest)
  | setRestrict (on : Int)

/-- A call, with the result and the network part afterwards. -/
def NetPolicy.netCall (p : NetPolicy) : NetCall → Int × NetPolicy
  | .add d => policyNetAddAllow p d.host d.port
  | .setRestrict on => policyNetSetRestrict p on

/-- The network part after a call. -/
def NetPolicy.afterNet (p : NetPolicy) (call : NetCall) : NetPolicy := (p.netCall call).2

/-- The call allows the destination and succeeds. -/
def Allows (d : Dest) (p : NetPolicy) (call : NetCall) : Prop :=
  call = .add d ∧ (p.netCall call).1 = 0

/-- A destination that can be allowed. -/
def Dest.Valid (d : Dest) : Prop := d.host ≠ [] ∧ d.port ≠ 0

/-- The call does not store a name that is cut: the name fits, or the call is refused. -/
def StoresWhole (p : NetPolicy) : NetCall → Prop
  | .add d => d.host.length ≤ netAllowHostMax ∨ d.port = 0 ∨ policyNetAllowMax ≤ p.allow.length
  | .setRestrict _ => True

/-- What allowing a destination does to the table. -/
theorem policyNetAddAllow_cases (p : NetPolicy) (d : Dest) :
    ((policyNetAddAllow p d.host d.port).1 ≠ 0 ∧ (policyNetAddAllow p d.host d.port).2 = p ∧
        (¬ d.Valid ∨ d ∉ p.allow ∧ policyNetAllowMax ≤ p.allow.length)) ∨
      ((policyNetAddAllow p d.host d.port).1 = 0 ∧ d.Valid ∧
        ((policyNetAddAllow p d.host d.port).2 = p ∧ d ∈ p.allow ∨
          (policyNetAddAllow p d.host d.port).2.allow =
              p.allow ++ [⟨d.host.take netAllowHostMax, d.port⟩] ∧
            p.allow.length < policyNetAllowMax)) := by
  rw [policyNetAddAllow]
  by_cases hempty : d.host = [] ∨ d.port = 0
  · rw [if_pos hempty]
    exact .inl ⟨show einval ≠ 0 by decide, rfl, .inl fun h => hempty.elim h.1 h.2⟩
  rw [if_neg hempty]
  by_cases hmem : d ∈ p.allow
  · rw [if_pos (List.contains_iff_mem.mpr hmem)]
    exact .inr ⟨rfl, not_or.mp hempty, .inl ⟨rfl, hmem⟩⟩
  rw [if_neg (mt List.contains_iff_mem.mp hmem)]
  by_cases hfull : policyNetAllowMax ≤ p.allow.length
  · rw [dif_pos hfull]
    exact .inl ⟨show enospc ≠ 0 by decide, rfl, .inr ⟨hmem, hfull⟩⟩
  · rw [dif_neg hfull]
    exact .inr ⟨rfl, not_or.mp hempty, .inr ⟨rfl, Nat.not_le.mp hfull⟩⟩

/-- **One call that stores its name whole** adds what it allows to the table. -/
theorem mem_allow_afterNet {p : NetPolicy} {call : NetCall} (hwhole : StoresWhole p call) (d : Dest) :
    d ∈ (p.afterNet call).allow ↔ d ∈ p.allow ∨ Allows d p call := by
  cases call with
  | setRestrict on => exact ⟨.inl, fun h => h.resolve_right fun hallows => nomatch hallows.1⟩
  | add d' =>
    have hallows : Allows d p (.add d') ↔ d' = d ∧ (policyNetAddAllow p d'.host d'.port).1 = 0 := by
      rw [Allows, NetCall.add.injEq]
      rfl
    rw [hallows]
    show d ∈ (policyNetAddAllow p d'.host d'.port).2.allow ↔ _
    obtain ⟨hrc, hsame, -⟩ | ⟨hrc, hvalid, ⟨hsame, hmem⟩ | ⟨happend, hroom⟩⟩ :=
      policyNetAddAllow_cases p d'
    · rw [hsame]
      exact ⟨.inl, fun h => h.resolve_right fun hallows => hrc hallows.2⟩
    · rw [hsame]
      refine ⟨.inl, ?_⟩
      rintro (h | ⟨rfl, -⟩)
      · exact h
      · exact hmem
    · -- there was room, so the name is one that fits
      have hshort : d'.host.length ≤ netAllowHostMax :=
        hwhole.resolve_right fun h => h.elim hvalid.2 (Nat.not_le.mpr hroom)
      rw [happend, List.take_of_length_le hshort, List.mem_append, List.mem_singleton]
      exact or_congr_right ⟨fun h => ⟨h.symm, hrc⟩, fun h => h.1.symm⟩

theorem mem_allow_run {calls : List NetCall} {p : NetPolicy}
    (hwhole : Runs.Along NetPolicy.afterNet StoresWhole p calls) (d : Dest) :
    d ∈ (Runs.run NetPolicy.afterNet p calls).allow ↔
      d ∈ p.allow ∨ Runs.Sometime NetPolicy.afterNet (Allows d) p calls := by
  induction calls generalizing p with
  | nil => exact (or_iff_left id).symm
  | cons call calls ih =>
    rw [Runs.run_cons, ih hwhole.2, mem_allow_afterNet hwhole.1, Runs.Sometime, or_assoc]

/-- The table stays empty until a destination that can be allowed is. -/
theorem allow_eq_nil_afterNet (p : NetPolicy) (call : NetCall) :
    (p.afterNet call).allow = [] ↔ p.allow = [] ∧ ∀ d, call = .add d → ¬ d.Valid := by
  cases call with
  | setRestrict on => exact (and_iff_left fun d h => nomatch h).symm
  | add d =>
    show (policyNetAddAllow p d.host d.port).2.allow = [] ↔ _
    have hadd : (∀ d', NetCall.add d = .add d' → ¬ d'.Valid) ↔ ¬ d.Valid :=
      ⟨fun h => h d rfl, fun h d' heq => NetCall.add.inj heq ▸ h⟩
    rw [hadd]
    obtain ⟨-, hsame, hwhy⟩ | ⟨-, hvalid, ⟨hsame, hmem⟩ | ⟨happend, -⟩⟩ := policyNetAddAllow_cases p d
    · rw [hsame]
      refine ⟨fun hnil => ⟨hnil, hwhy.resolve_right fun hfull => ?_⟩, And.left⟩
      rw [hnil] at hfull
      exact absurd hfull.2 (by decide)
    · rw [hsame]
      exact iff_of_false (List.ne_nil_of_mem hmem) fun h => h.2 hvalid
    · rw [happend]
      exact iff_of_false (by simp) fun h => h.2 hvalid

theorem allow_eq_nil_run (calls : List NetCall) (p : NetPolicy) :
    (Runs.run NetPolicy.afterNet p calls).allow = [] ↔
      p.allow = [] ∧ ∀ d, .add d ∈ calls → ¬ d.Valid := by
  induction calls generalizing p with
  | nil => exact (and_iff_left fun d h => nomatch h).symm
  | cons call calls ih =>
    rw [Runs.run_cons, ih, allow_eq_nil_afterNet, and_assoc]
    refine and_congr_right fun _ => ⟨?_, fun h => ⟨?_, ?_⟩⟩
    · rintro ⟨hfirst, hrest⟩ d hmem
      obtain heq | hmem := List.mem_cons.mp hmem
      · exact hfirst d heq.symm
      · exact hrest d hmem
    · rintro d rfl
      exact h d List.mem_cons_self
    · exact fun d hmem => h d (List.mem_cons_of_mem _ hmem)

/-- A call that allows a destination and succeeds is for one that can be allowed. -/
theorem Allows.valid {d : Dest} {p : NetPolicy} {call : NetCall} (h : Allows d p call) : d.Valid := by
  obtain ⟨rfl, hrc⟩ := h
  obtain ⟨hne, -⟩ | ⟨-, hvalid, -⟩ := policyNetAddAllow_cases p d
  · exact absurd hrc hne
  · exact hvalid

/-- A call that stores a cut name succeeds. -/
theorem allows_of_not_storesWhole {p : NetPolicy} {call : NetCall} (h : ¬ StoresWhole p call) :
    ∃ d, netAllowHostMax < d.host.length ∧ Allows d p call := by
  cases call with
  | setRestrict on => exact absurd trivial h
  | add d =>
    obtain ⟨hlong, hrest⟩ := not_or.mp h
    obtain ⟨hport, hroom⟩ := not_or.mp hrest
    refine ⟨d, Nat.not_le.mp hlong, rfl, ?_⟩
    obtain ⟨-, -, hinvalid | hfull⟩ | ⟨hrc, -, -⟩ := policyNetAddAllow_cases p d
    · refine absurd ⟨fun hnil => ?_, hport⟩ hinvalid
      rw [hnil] at hlong
      exact hlong (Nat.zero_le _)
    · exact absurd hfull.2 hroom
    · exact hrc

/-- While a restriction is on and the table is not empty, the check asks the table. -/
theorem policyNetAllow_eq_zero_iff_mem {p : NetPolicy} (hrestrict : p.restrict = true)
    (hne : p.allow ≠ []) {d : Dest} : policyNetAllow p d.host d.port = 0 ↔ d.host ≠ [] ∧ d ∈ p.allow := by
  rw [policyNetAllow_eq_zero_iff]
  exact and_congr_right fun _ => ⟨fun h => (h hrestrict).resolve_left hne, fun h _ => .inr h⟩

/-- **The check against what was allowed.** After any calls, while the restriction is on, the check
lets exactly those destinations pass that an earlier call allowed with success, if and only if some
call was for a destination that can be allowed, and no call stored a name of more than 47 bytes. -/
theorem netAllow_run_iff (calls : List NetCall)
    (hrestrict : (Runs.run NetPolicy.afterNet policyInit.net calls).restrict = true) :
    (∀ d : Dest,
        policyNetAllow (Runs.run NetPolicy.afterNet policyInit.net calls) d.host d.port = 0 ↔
          Runs.Sometime NetPolicy.afterNet (Allows d) policyInit.net calls) ↔
      (∃ d, .add d ∈ calls ∧ d.Valid) ∧
        Runs.Along NetPolicy.afterNet StoresWhole policyInit.net calls := by
  obtain ⟨p, hp⟩ : ∃ p, Runs.run NetPolicy.afterNet policyInit.net calls = p := ⟨_, rfl⟩
  have hnil : p.allow = [] ↔ ∀ d, .add d ∈ calls → ¬ d.Valid := by
    rw [← hp, allow_eq_nil_run]
    exact and_iff_right rfl
  have hvalid : ∀ d, Runs.Sometime NetPolicy.afterNet (Allows d) policyInit.net calls →
      .add d ∈ calls ∧ d.Valid := by
    intro d h
    obtain ⟨pre, call, post, rfl, hallows⟩ := Runs.sometime_iff.mp h
    exact ⟨hallows.1 ▸ List.mem_append_right _ List.mem_cons_self, hallows.valid⟩
  rw [hp] at hrestrict ⊢
  constructor
  · intro h
    have hadded : ∃ d, .add d ∈ calls ∧ d.Valid := by
      by_contra hnone
      -- the table is empty and lets everything pass
      have hempty := hnil.mpr fun d hmem hv => hnone ⟨d, hmem, hv⟩
      have hpasses : policyNetAllow p longName 1 = 0 :=
        policyNetAllow_eq_zero_iff.mpr ⟨by decide, fun _ => .inl hempty⟩
      exact hnone ⟨_, hvalid _ ((h ⟨longName, 1⟩).mp hpasses)⟩
    refine ⟨hadded, ?_⟩
    by_contra hcut
    -- the cut name was allowed, and is not on the table
    have hsome : Runs.Sometime NetPolicy.afterNet (fun p call => ¬ StoresWhole p call)
        policyInit.net calls := by
      by_contra hnever
      exact hcut ((Runs.along_not_iff.mpr hnever).imp fun _ _ => not_not.mp)
    obtain ⟨pre, call, post, heq, hnot⟩ := Runs.sometime_iff.mp hsome
    obtain ⟨d, hlong, hallows⟩ := allows_of_not_storesWhole hnot
    have hpass := (h d).mpr (Runs.sometime_iff.mpr ⟨pre, call, post, heq, hallows⟩)
    have hne : p.allow ≠ [] := by
      rw [ne_eq, hnil]
      exact fun hall => hadded.elim fun d hd => hall d hd.1 hd.2
    exact not_mem_allow_of_long p hlong d.port
      ((policyNetAllow_eq_zero_iff_mem hrestrict hne).mp hpass).2
  · rintro ⟨⟨d₀, hmem₀, hvalid₀⟩, hwhole⟩ d
    have hne : p.allow ≠ [] := fun h => hnil.mp h d₀ hmem₀ hvalid₀
    have hmem := mem_allow_run hwhole d
    rw [hp, or_iff_right (show d ∉ policyInit.net.allow from List.not_mem_nil)] at hmem
    rw [policyNetAllow_eq_zero_iff_mem hrestrict hne, hmem]
    exact ⟨And.right, fun h => ⟨(hvalid d h).2.1, h⟩⟩

theorem netAllow_run_gateway :
    let gateway : Dest := ⟨bytes "10.0.2.2", 8765⟩
    let calls : List NetCall := [.add gateway, .setRestrict 1]
    ∀ d : Dest, policyNetAllow (Runs.run NetPolicy.afterNet policyInit.net calls) d.host d.port = 0 ↔
      Runs.Sometime NetPolicy.afterNet (Allows d) policyInit.net calls :=
  (netAllow_run_iff [.add ⟨bytes "10.0.2.2", 8765⟩, .setRestrict 1] (by decide)).mpr
    ⟨⟨_, List.mem_cons_self, by decide, by decide⟩, .inl (by decide), trivial, trivial⟩

/-- A name of 48 bytes is allowed with success and stays blocked. -/
theorem not_netAllow_run :
    let d : Dest := ⟨longName, 443⟩
    let calls : List NetCall := [.setRestrict 1, .add d]
    let p := Runs.run NetPolicy.afterNet policyInit.net calls
    d.host.length = 48 ∧ p.restrict = true ∧
      Runs.Sometime NetPolicy.afterNet (Allows d) policyInit.net calls ∧
      policyNetAllow p d.host d.port = eperm :=
  ⟨by decide, by decide, .inr (.inl ⟨rfl, by decide⟩), by decide⟩

/-! ## The rules of a file -/

/-- The lines of a policy file. -/
def policyLines (content : List UInt8) : List (List UInt8) :=
  (content.splitOnP fun c => c == '\n'.toUInt8 || c == 0).filter (· ≠ [])

/-- The tool in a line `deny N`, read as `policy_parse_line` does. -/
def denyRule (line : List UInt8) : Option Int :=
  let walk := skipBlanks line
  if hasAt walk 0 (bytes "net") then none
  else if hasAt walk 0 (bytes "deny") then
    let walk := skipBlanks (walk.drop 4)
    if !isDigit (charAt walk 0) then none else some (scanInt 0 walk).1
  else none

/-- A tool that may be denied. -/
def Deniable (tool : Int) : Prop := 0 ≤ tool ∧ tool ≤ 31 ∧ policyExempt tool = false

instance (tool : Int) : Decidable (Deniable tool) := inferInstanceAs (Decidable (_ ∧ _ ∧ _))

/-- The tools that a file denies. -/
def deniedTools (content : List UInt8) : List Int :=
  ((policyLines content).filterMap denyRule).filter (Deniable ·)

/-- The name in a line `net allow host:port`, before it is cut. -/
def allowHost (line : List UInt8) : List UInt8 :=
  (skipBlanks ((skipBlanks ((skipBlanks line).drop 3)).drop 5)).takeWhile fun c =>
    c != 0 && c != ':'.toUInt8 && c != ' '.toUInt8

/-- All rules of the file are in force: the tools of its `deny` lines are blocked, and the
destinations of its `net allow` lines, where the name has at most 47 bytes, are on the table. -/
def InForce (content : List UInt8) (p : Policy) : Prop :=
  (∀ line ∈ policyLines content, ∀ tool, denyRule line = some tool → Deniable tool →
      ∀ g : Gateway, policyToolAllow { g with denyTools := p.deny } tool = eperm) ∧
    ∀ line ∈ policyLines content, ∀ d, netRule line = some (.allow d) →
      (allowHost line).length ≤ netAllowHostMax → d ∈ p.net.allow

theorem policyDenyTool_deny (p : Policy) (tool : Int) :
    (policyDenyTool p tool).2.deny =
      if Deniable tool then BoundedSet.insertNew policyDenyMax p.deny tool else p.deny := by
  rw [policyDenyTool, BoundedSet.insertNew]
  by_cases hrange : tool < 0 ∨ 31 < tool
  · rw [if_pos hrange, if_neg fun h => by have := h.1; have := h.2.1; omega]
  rw [if_neg hrange]
  by_cases hexempt : policyExempt tool = true
  · rw [dif_pos hexempt, if_neg fun h => by rw [h.2.2] at hexempt; cases hexempt]
  rw [dif_neg hexempt, if_pos ⟨by omega, by omega, Bool.not_eq_true _ ▸ hexempt⟩]
  by_cases hmem : tool ∈ p.deny
  · rw [dif_pos hmem, if_pos (.inl hmem)]
  rw [dif_neg hmem]
  by_cases hfull : policyDenyMax ≤ p.deny.length
  · rw [dif_pos hfull, if_pos (.inr hfull)]
  · rw [dif_neg hfull, if_neg (not_or.mpr ⟨hmem, hfull⟩)]

/-- **A line changes the denied tools by its rule.** -/
theorem policyParseLine_denyRule (p : Policy) (line : List UInt8) :
    (policyParseLine p line).2.deny =
      (denyRule line).elim p.deny fun tool => (policyDenyTool p tool).2.deny := by
  rw [policyParseLine, denyRule]
  dsimp only
  split_ifs
  · rfl
  · rfl
  · rfl
  · rfl

theorem foldl_policyParseLine_fill (lines : List (List UInt8)) (p : Policy) :
    (lines.foldl (fun p line => (policyParseLine p line).2) p).deny =
      BoundedSet.fill policyDenyMax p.deny ((lines.filterMap denyRule).filter (Deniable ·)) := by
  induction lines generalizing p with
  | nil => rfl
  | cons line lines ih =>
    rw [List.foldl_cons, ih, policyParseLine_denyRule, List.filterMap_cons]
    cases denyRule line with
    | none => rfl
    | some tool =>
      show BoundedSet.fill _ (policyDenyTool p tool).2.deny _ = _
      rw [policyDenyTool_deny]
      by_cases hden : Deniable tool
      · rw [if_pos hden, List.filter_cons_of_pos (by simpa using hden)]
        rfl
      · rw [if_neg hden, List.filter_cons_of_neg (by simpa using hden)]

/-- The destination of a line can be allowed, and its name is not cut when it is stored. -/
theorem netRule_allow {line : List UInt8} {d : Dest} (h : netRule line = some (.allow d)) :
    d.Valid ∧ d.host.length ≤ netAllowHostMax := by
  rw [netRule] at h
  dsimp only at h
  split_ifs at h with hnet hrest hrict hopen hallow hhost hport
  all_goals try cases h
  · -- a port was read
    cases hscan : scanPort 0 (List.drop 1 _) with
    | none =>
      rw [hscan] at h
      cases h
    | some read =>
      rw [hscan] at h
      cases h
      refine ⟨⟨hhost, ?_⟩, List.length_take_le _ _⟩
      have hle : read.1 ≤ 65535 := scanPort_le (by decide) hscan
      show UInt16.ofNat (if read.1 = 0 then 443 else read.1) ≠ 0
      by_cases hzero : read.1 = 0
      · rw [if_pos hzero]
        decide
      · rw [if_neg hzero]
        intro hcontra
        have hnat := congrArg UInt16.toNat hcontra
        rw [UInt16.toNat_ofNat_of_lt' (Nat.lt_succ_of_le hle)] at hnat
        exact hzero hnat
  · exact ⟨⟨hhost, show UInt16.ofNat 443 ≠ 0 by decide⟩, List.length_take_le _ _⟩

theorem mem_allowed {rules : List NetRule} {d : Dest} : d ∈ allowed rules ↔ .allow d ∈ rules := by
  rw [allowed, List.mem_filterMap]
  constructor
  · rintro ⟨rule, hmem, heq⟩
    cases rule with
    | restrict on => cases heq
    | allow d' => cases heq; exact hmem
  · exact fun h => ⟨_, h, rfl⟩

theorem addAll_eq_fill {ds : List Dest} (h : ∀ d ∈ ds, d.Valid ∧ d.host.length ≤ netAllowHostMax)
    (list : List Dest) : addAll list ds = BoundedSet.fill policyNetAllowMax list ds := by
  induction ds generalizing list with
  | nil => rfl
  | cons d ds ih =>
    obtain ⟨⟨⟨hhost, hport⟩, hshort⟩, hrest⟩ := List.forall_mem_cons.mp h
    have hadd : addDest list d = BoundedSet.insertNew policyNetAllowMax list d := by
      rw [addDest, BoundedSet.insertNew, List.take_of_length_le hshort]
      exact if_congr ((or_iff_right hhost).trans (or_iff_right hport)) rfl rfl
    show addAll (addDest list d) ds = _
    rw [hadd, ih hrest]
    rfl

/-- The table of destinations after the rules of a file. -/
theorem addAll_allowed (list : List Dest) (content : List UInt8) :
    addAll list (allowed (netRules content)) =
      BoundedSet.fill policyNetAllowMax list (allowed (netRules content)) := by
  refine addAll_eq_fill (fun d hd => ?_) list
  obtain ⟨line, -, hline⟩ := List.mem_filterMap.mp (mem_allowed.mp hd)
  exact netRule_allow hline

/-- **When all rules of a file are in force.** After a load that succeeds, this is so exactly if the
file denies at most 16 different tools, and the destination of each line with a name that fits was on
the table before, or is one of the first new ones for which there is room. -/
theorem policyLoad_complete_iff (fs : Ramfs) (path : Option CStr) (p : Policy) {content : List UInt8}
    (h : fs.visible (loadedPath path) = some content) :
    0 ≤ (policyLoad fs p path).1 ∧
    (InForce content (policyLoad fs p path).2 ↔
      (deniedTools content).toFinset.card ≤ 16 ∧
        ∀ line ∈ policyLines content, ∀ d, netRule line = some (.allow d) →
          (allowHost line).length ≤ netAllowHostMax →
            d ∈ p.net.allow ∨ d ∈ (BoundedSet.news p.net.allow (allowed (netRules content))).take
              (8 - p.net.allow.length)) := by
  have hdeny : (policyLoad fs p path).2.deny =
      BoundedSet.fill policyDenyMax [] (deniedTools content) := by
    rw [policyLoad_of_visible h]
    exact foldl_policyParseLine_fill _ _
  have hallow : (policyLoad fs p path).2.net.allow =
      BoundedSet.fill policyNetAllowMax p.net.allow (allowed (netRules content)) := by
    rw [policyLoad_net h, obeyAll_allow, addAll_allowed]
  constructor
  · rw [policyLoad_of_visible h]
    exact Int.natCast_nonneg _
  · rw [InForce]
    refine and_congr ?_ ?_
    · rw [← BoundedSet.subset_fill_nil_iff, ← hdeny]
      constructor
      · intro hall tool hmem
        obtain ⟨hrule, hden⟩ := List.mem_filter.mp hmem
        obtain ⟨line, hline, heq⟩ := List.mem_filterMap.mp hrule
        exact (policyToolAllow_eq_eperm_iff ⟨fs, fun _ => 0, []⟩ _ _).mp
          (hall line hline tool heq (of_decide_eq_true hden) _)
      · intro hall line hline tool heq hden g
        refine (policyToolAllow_eq_eperm_iff g _ _).mpr (hall tool ?_)
        exact List.mem_filter.mpr ⟨List.mem_filterMap.mpr ⟨line, hline, heq⟩, decide_eq_true hden⟩
    · simp only [hallow, BoundedSet.mem_fill]

theorem policyLoad_complete_seed :
    (policyFs seedPolicy).visible (loadedPath none) = some seedPolicy ∧
      InForce seedPolicy (policyLoad (policyFs seedPolicy) policyInit none).2 := by
  have hvisible : (policyFs seedPolicy).visible (loadedPath none) = some seedPolicy :=
    visible_policyFs (by decide) (by decide)
  refine ⟨hvisible, (policyLoad_complete_iff _ none policyInit hvisible).2.mpr ⟨?_, ?_⟩⟩
  · decide +kernel
  · intro line hmem d hrule
    have hnone : ∀ line ∈ policyLines seedPolicy, netRule line = none := by decide +kernel
    rw [hnone line hmem] at hrule
    cases hrule

/-- A file with a line `deny N` for each tool from 1 to 17. -/
def seventeenDenied : List UInt8 :=
  (List.range 17).flatMap fun n => bytes "deny " ++ decimal (n + 1) ++ ['\n'.toUInt8]

/-- **The seventeenth tool of a file stays allowed**, and the load succeeds. -/
theorem not_policyLoad_complete :
    let fs := policyFs seventeenDenied
    let p := (policyLoad fs policyInit none).2
    fs.visible policyActive = some seventeenDenied ∧ (policyLoad fs policyInit none).1 = 16 ∧
      bytes "deny 17" ∈ policyLines seventeenDenied ∧ Deniable 17 ∧
      policyToolAllow ⟨fs, fun _ => 0, p.deny⟩ 17 = 0 := by
  intro fs p
  have hvisible : fs.visible (loadedPath none) = some seventeenDenied :=
    visible_policyFs (by decide +kernel) (by decide +kernel)
  have hdeny : p.deny = BoundedSet.fill policyDenyMax [] (deniedTools seventeenDenied) := by
    show (policyLoad fs policyInit none).2.deny = _
    rw [policyLoad_of_visible hvisible]
    exact foldl_policyParseLine_fill _ _
  have hsixteen : BoundedSet.fill policyDenyMax [] (deniedTools seventeenDenied) =
      [1, 2, 3, 4, 5, 6, 7, 8, 9, 10, 11, 12, 13, 14, 15, 16] := by decide +kernel
  have hcount : (policyLoad fs policyInit none).1 = (p.deny.length : Int) := by
    show _ = (((policyLoad fs policyInit none).2.deny.length : Nat) : Int)
    rw [policyLoad_of_visible hvisible]
  refine ⟨hvisible, ?_, by decide +kernel, by decide, ?_⟩
  · rw [hcount, hdeny, hsixteen]
    rfl
  · rw [hdeny, hsixteen]
    decide

end OpenAgentOS
