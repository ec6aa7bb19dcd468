import OpenAgentOS.Fs.Ramfs
import OpenAgentOS.Lib.Layout
import OpenAgentOS.Vm.UserAccess

/-!
# Strings from user memory (kernel/tool.c, agent.c, catalog.c, elfload.c, ota.c)

Wherever the kernel takes a string from an agent, it asks `user_strnlen` for the length, with one
less than the size of its buffer as the limit, and copies one byte more than that.

- `StringSite`: the places where this is done, each with the size of its buffer and the codes that it
  returns.
- `StringSite.fetch`: what all of them do.
- `fetch_terminated_iff`: the buffer holds a string exactly if the agent's bytes do, within its size.
  For a longer string the buffer is filled and has no terminator (`not_fetch_terminated`).
-/

namespace OpenAgentOS

/-- The places that copy a string from user memory. -/
inductive StringSite where
  | readPathFromUser
  | runSessionAppend
  | runHttp
  | namespaceWrite
  | quotaNotify
  | fleetProbe
  | fleetIngest
  | policyLoad
  | policyNetAllow
  | meshProbe
  | catalogInstall
  | catalogRollback
  | agentCreateName
  | agentLoadPath
  | agentLoadName
  | otaChannelSet
  | otaVerifyPackage
  | otaApplyPackage
  deriving DecidableEq

namespace StringSite

/-- `sizeof` the buffer. -/
def size : StringSite → Nat
  | readPathFromUser => ramfsPathMax
  | runSessionAppend | namespaceWrite | quotaNotify | fleetProbe | fleetIngest | policyLoad => 128
  | runHttp => 256
  | policyNetAllow | meshProbe | agentLoadPath | otaVerifyPackage | otaApplyPackage => 64
  | catalogInstall | catalogRollback | agentCreateName | agentLoadName => 32
  | otaChannelSet => 16

/-- The code for a string that cannot be read. -/
def onFault : StringSite → Int
  | runHttp | catalogInstall | catalogRollback | otaChannelSet => einval
  | readPathFromUser | runSessionAppend | namespaceWrite | quotaNotify | fleetProbe | fleetIngest
  | policyLoad | policyNetAllow | meshProbe | agentCreateName | agentLoadPath | agentLoadName
  | otaVerifyPackage | otaApplyPackage => efault

/-- The code for an empty string, where it is refused. -/
def onEmpty : StringSite → Option Int
  | fleetIngest | policyLoad | policyNetAllow => none
  | agentLoadPath | otaVerifyPackage | otaApplyPackage => some efault
  | readPathFromUser | runSessionAppend | runHttp | namespaceWrite | quotaNotify | fleetProbe
  | meshProbe | catalogInstall | catalogRollback | agentCreateName | agentLoadName
  | otaChannelSet => some einval

/-- What a place does with a pointer: the code that it returns, or its buffer, with the bytes that
were copied in front of what the stack had there. -/
def fetch (site : StringSite) (u : UserSpace) (p : Nat) (stack : Buf) : Except Int Buf :=
  let len := userStrnlen u p (site.size - 1 : Nat)
  if len < 0 then .error site.onFault
  else
    match (if len = 0 then site.onEmpty else none) with
    | some e => .error e
    | none =>
      match copyFromUser u p (len.toNat + 1) with
      | .error _ => .error efault
      | .ok text => .ok (stack.write 0 text)

theorem two_le_size (site : StringSite) : 2 ≤ site.size := by
  cases site <;> decide

/-- **What is in a buffer that is used**: the string and its terminator, or as many bytes as fit. -/
theorem fetch_eq_ok {site : StringSite} {u : UserSpace} {p : Nat} {stack buf : Buf}
    (h : site.fetch u p stack = .ok buf) :
    ∃ len, len < site.size ∧ buf = stack.write 0 (u.bytesAt p (len + 1)) ∧
      (∀ i, i < len → u.byte (userAddr p i) ≠ 0) ∧
      (len + 1 < site.size → u.byte (userAddr p len) = 0) := by
  have hsize := site.two_le_size
  rw [fetch] at h
  obtain hfault | ⟨len, hlen, hle, hnonzero, hend⟩ :=
    userStrnlen_cases (u := u) (p := p) (site.size - 1)
  · rw [hfault, if_pos (by decide)] at h
    cases h
  · rw [hlen, if_neg (Int.not_lt.mpr (Int.natCast_nonneg len)), Int.toNat_natCast] at h
    cases hempty : (if (len : Int) = 0 then site.onEmpty else none) with
    | some e =>
      rw [hempty] at h
      cases h
    | none =>
      rw [hempty] at h
      dsimp only at h
      cases hcopy : copyFromUser u p (len + 1) with
      | error e =>
        rw [hcopy] at h
        cases h
      | ok text =>
        rw [hcopy] at h
        refine ⟨len, by omega, ?_, hnonzero, fun hlt => hend (by omega)⟩
        rw [← copyFromUser_eq_ok hcopy]
        exact (Except.ok.inj h).symm

/-- **A buffer that is used holds a string** exactly if the agent's bytes end within its size. -/
theorem fetch_terminated_iff (site : StringSite) {u : UserSpace} {p : Nat} {stack buf : Buf}
    (hok : site.fetch u p stack = .ok buf) :
    (∃ i, i < site.size ∧ buf i = 0) ↔ ∃ i, i < site.size ∧ u.byte (userAddr p i) = 0 := by
  obtain ⟨len, hlen, rfl, hnonzero, hend⟩ := fetch_eq_ok hok
  have hcopied : ∀ i, i ≤ len → stack.write 0 (u.bytesAt p (len + 1)) i = u.byte (userAddr p i) := by
    intro i hi
    have hlt : i < (u.bytesAt p (len + 1)).length := by
      rw [UserSpace.bytesAt, List.length_map, List.length_range]
      omega
    have hwrite := Buf.write_inside stack 0 hlt
    rw [Nat.zero_add] at hwrite
    rw [hwrite, List.getD_eq_getElem _ _ hlt]
    exact (List.getElem_map _).trans (by rw [List.getElem_range])
  by_cases hfull : len + 1 < site.size
  · -- the string ends inside the buffer
    exact iff_of_true ⟨len, hlen, (hcopied len (Nat.le_refl _)).trans (hend hfull)⟩
      ⟨len, hlen, hend hfull⟩
  · -- the buffer is full, and only its last byte can be the terminator
    constructor
    · rintro ⟨i, hi, hzero⟩
      exact ⟨i, hi, (hcopied i (by omega)).symm.trans hzero⟩
    · rintro ⟨i, hi, hzero⟩
      exact ⟨i, hi, (hcopied i (by omega)).trans hzero⟩

end StringSite

/-- An agent with one page of memory, full of the letter `a` up to a zero byte. -/
def onePage (len : Nat) : UserSpace where
  check ua n _ := decide (0x1000 ≤ ua ∧ ua + n ≤ 0x2000)
  byte ua := if ua < 0x1000 + len then 'a'.toUInt8 else 0

theorem fetch_terminated_onePage :
    ∃ buf, StringSite.otaVerifyPackage.fetch (onePage 63) 0x1000 (fun _ => 1) = .ok buf ∧
      ∃ i, i < StringSite.otaVerifyPackage.size ∧ buf i = 0 := by
  obtain ⟨buf, hok⟩ : ∃ buf, StringSite.otaVerifyPackage.fetch (onePage 63) 0x1000 (fun _ => 1) =
      .ok buf := ⟨_, rfl⟩
  exact ⟨buf, hok, (StringSite.fetch_terminated_iff .otaVerifyPackage hok).mpr ⟨63, by decide, by decide⟩⟩

/-- **A path of 64 bytes fills its buffer** and leaves no room for the terminator. -/
theorem not_fetch_terminated :
    ∃ buf, StringSite.otaVerifyPackage.fetch (onePage 64) 0x1000 (fun _ => 1) = .ok buf ∧
      ¬ ∃ i, i < StringSite.otaVerifyPackage.size ∧ buf i = 0 :=
  ⟨_, rfl, by decide +kernel⟩

end OpenAgentOS
