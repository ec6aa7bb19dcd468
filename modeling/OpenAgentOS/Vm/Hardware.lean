import OpenAgentOS.Vm.HeapCow
import OpenAgentOS.Vm.UserCheck

/-!
# The page walk of the hardware (Sv39)

`vm_user_check` follows a page table the way `vm_walk` does, and the kernel then uses the user's address
itself. Whether that access faults is up to the walk of the hardware, which looks at more of the address
and of the entries.

- `canonical`: bits 63 to 39 of the address are equal to bit 38.
- `hwWalk`, `hwPermits`: the walk, and what the supervisor may do with the page of a user. The kernel
  runs with SUM set and MXR clear.
- `PathPlain`: the entries on the way of a walk are as this kernel writes them.
- `vmUserCheck_sound_iff`: where the check has returned 0, the hardware agrees exactly on canonical
  addresses with plain entries. `not_vmUserCheck_sound`: the check accepts an address with bit 39 set.
-/

namespace OpenAgentOS

/-! ## The walk -/

abbrev pteA : Nat := 0x040
abbrev pteD : Nat := 0x080

/-- An address that the hardware translates at all. -/
def canonical (va : Nat) : Prop := va / 2 ^ 38 = 0 ∨ va / 2 ^ 38 = 2 ^ 26 - 1

/-- Entries for which a fault is raised although they are valid: reserved bits, or writable and not
readable. -/
def hwReserved (pte : Nat) : Bool := decide (2 ^ 54 ≤ pte) || (hasFlag pte pteW && !hasFlag pte pteR)

/-- The entry is for a page and not for a table. -/
def hwLeaf (pte : Nat) : Bool := hasFlag pte pteR || hasFlag pte pteX

/-- The entry for the page of `va`, from a table of the given level on. -/
def hwWalk (vm : Vm) (va : Nat) : (level pt : Nat) → Option Nat
  | 0, pt =>
    let pte := vm.mem pt (vpn 0 va)
    if !hasFlag pte pteV || hwReserved pte then none
    else if hwLeaf pte then some pte else none
  | level + 1, pt =>
    let pte := vm.mem pt (vpn (level + 1) va)
    if !hasFlag pte pteV || hwReserved pte then none
    -- a large page has to be aligned
    else if hwLeaf pte then if ptePpn pte % 512 ^ (level + 1) = 0 then some pte else none
    else hwWalk vm va level (ptePpn pte)

/-- A user's page that the kernel may read, or write. -/
def hwPermits (write : Bool) (pte : Nat) : Bool :=
  hasFlag pte pteU && hasFlag pte pteA &&
    if write then hasFlag pte pteW && hasFlag pte pteD else hasFlag pte pteR

/-- An access of the kernel to this address does not fault, and is one to a page of the user. -/
def HwUser (vm : Vm) (pt : Nat) (write : Bool) (va : Nat) : Prop :=
  canonical va ∧ ∃ pte, hwWalk vm va 2 pt = some pte ∧ hwPermits write pte = true

/-! ## Entries that both walks understand -/

/-- The last entry, beyond what the check has found in it. -/
structure LeafPlain (write : Bool) (pte : Nat) : Prop where
  bits : pte < 2 ^ 54
  readable : hasFlag pte pteR = true
  accessed : hasFlag pte pteA = true
  dirty : write = true → hasFlag pte pteD = true

/-- An entry above the last level that is for a page: the hardware goes no further. -/
structure LargePage (write : Bool) (level pte : Nat) : Prop where
  bits : pte < 2 ^ 54
  readable : hasFlag pte pteR = true
  aligned : ptePpn pte % 512 ^ level = 0
  permits : hwPermits write pte = true

/-- An entry that is for a table. -/
structure Pointer (pte : Nat) : Prop where
  bits : pte < 2 ^ 54
  flags : hasFlag pte pteR = false ∧ hasFlag pte pteW = false ∧ hasFlag pte pteX = false

/-- The entries on the way to `va`, from a table of the given level on. -/
def PathPlain (vm : Vm) (write : Bool) (va : Nat) : (level pt : Nat) → Prop
  | 0, pt => LeafPlain write (vm.mem pt (vpn 0 va))
  | level + 1, pt =>
    let pte := vm.mem pt (vpn (level + 1) va)
    LargePage write (level + 1) pte ∨ Pointer pte ∧ PathPlain vm write va level (ptePpn pte)

section

variable {l : Layout} {vm : Vm} {pt va level pte : Nat} {write : Bool}

theorem not_hwReserved_iff : hwReserved pte = false ↔
    pte < 2 ^ 54 ∧ (hasFlag pte pteW = true → hasFlag pte pteR = true) := by
  rw [hwReserved, Bool.or_eq_false_iff, decide_eq_false_iff_not, Nat.not_le]
  refine and_congr_right fun _ => ?_
  cases hasFlag pte pteW <;> cases hasFlag pte pteR <;> decide

/-- The last entry that the check has found. -/
def CheckedLeaf (write : Bool) (pte : Nat) : Prop :=
  hasFlag pte pteV = true ∧ hasFlag pte pteU = true ∧
    (if write then hasFlag pte pteW else hasFlag pte pteR || hasFlag pte pteX) = true

theorem permits_iff_leafPlain (h : CheckedLeaf write pte) :
    (hwReserved pte = false ∧ hwLeaf pte = true ∧ hwPermits write pte = true) ↔ LeafPlain write pte := by
  obtain ⟨-, huser, hkind⟩ := h
  rw [not_hwReserved_iff, hwLeaf, hwPermits, huser]
  constructor
  · rintro ⟨⟨hbits, hpair⟩, -, hpermits⟩
    cases write with
    | true =>
      obtain ⟨haccessed, hw, hd⟩ : hasFlag pte pteA = true ∧ hasFlag pte pteW = true ∧
          hasFlag pte pteD = true := by simpa using hpermits
      exact ⟨hbits, hpair hw, haccessed, fun _ => hd⟩
    | false =>
      obtain ⟨haccessed, hr⟩ : hasFlag pte pteA = true ∧ hasFlag pte pteR = true := by
        simpa using hpermits
      exact ⟨hbits, hr, haccessed, nofun⟩
  · rintro ⟨hbits, hr, haccessed, hd⟩
    refine ⟨⟨hbits, fun _ => hr⟩, by rw [hr, Bool.true_or], ?_⟩
    cases write with
    | true => simp only [haccessed, hd rfl, if_true] at hkind ⊢; simpa using hkind
    | false => simp [haccessed, hr]

/-- An entry for a large page. -/
theorem largePage_iff : (hwReserved pte = false ∧ ptePpn pte % 512 ^ level = 0 ∧
    hwPermits write pte = true) ↔ LargePage write level pte := by
  rw [not_hwReserved_iff]
  constructor
  · rintro ⟨⟨hbits, hpair⟩, haligned, hpermits⟩
    refine ⟨hbits, ?_, haligned, hpermits⟩
    rw [hwPermits] at hpermits
    cases write with
    | true =>
      obtain ⟨-, hw, -⟩ : (hasFlag pte pteU = true ∧ hasFlag pte pteA = true) ∧
          hasFlag pte pteW = true ∧ hasFlag pte pteD = true := by simpa using hpermits
      exact hpair hw
    | false =>
      obtain ⟨-, hr⟩ : (hasFlag pte pteU = true ∧ hasFlag pte pteA = true) ∧
          hasFlag pte pteR = true := by simpa using hpermits
      exact hr
  · rintro ⟨hbits, hr, haligned, hpermits⟩
    exact ⟨⟨hbits, fun _ => hr⟩, haligned, hpermits⟩

/-- An entry for a table. -/
theorem pointer_iff : (hwReserved pte = false ∧ hwLeaf pte = false) ↔ Pointer pte := by
  rw [not_hwReserved_iff, hwLeaf, Bool.or_eq_false_iff]
  constructor
  · rintro ⟨⟨hbits, hpair⟩, hr, hx⟩
    refine ⟨hbits, hr, ?_, hx⟩
    by_contra hw
    rw [hpair (Bool.not_eq_false _ ▸ hw)] at hr
    cases hr
  · rintro ⟨hbits, hr, hw, hx⟩
    refine ⟨⟨hbits, fun h => ?_⟩, hr, hx⟩
    rw [hw] at h
    cases h

/-- **One walk and the other**: with the entry that the check has found at the end of its walk. -/
theorem hwWalk_permits_iff (level : Nat) {pt : Nat} {table : Nat} {i : Fin 512}
    (hwalk : (walkFrom l false va level vm pt).1 = some (table, i))
    (hleaf : CheckedLeaf write (vm.mem table i)) :
    (∃ pte, hwWalk vm va level pt = some pte ∧ hwPermits write pte = true) ↔
      PathPlain vm write va level pt := by
  induction level generalizing pt with
  | zero =>
    obtain ⟨rfl, rfl⟩ := Prod.mk.inj (Option.some.inj hwalk)
    rw [PathPlain, ← permits_iff_leafPlain hleaf, hwWalk, hleaf.1, Bool.not_true, Bool.false_or]
    cases hwReserved (vm.mem pt (vpn 0 va)) with
    | true => exact iff_of_false (by rintro ⟨pte, h, -⟩; cases h) nofun
    | false =>
      cases hwLeaf (vm.mem pt (vpn 0 va)) with
      | false => exact iff_of_false (by rintro ⟨pte, h, -⟩; cases h) (by rintro ⟨-, h, -⟩; cases h)
      | true =>
        constructor
        · rintro ⟨pte, h, hpermits⟩
          obtain rfl := Option.some.inj h
          exact ⟨rfl, rfl, hpermits⟩
        · rintro ⟨-, -, hpermits⟩
          exact ⟨_, rfl, hpermits⟩
  | succ level ih =>
    rw [walkFrom_false_succ] at hwalk
    rw [PathPlain, hwWalk]
    generalize vm.mem pt (vpn (level + 1) va) = pte at hwalk ⊢
    split_ifs at hwalk with hvalid
    rw [← largePage_iff, ← pointer_iff, hvalid, Bool.not_true, Bool.false_or]
    cases hreserved : hwReserved pte with
    | true =>
      refine iff_of_false (by rintro ⟨_, h, -⟩; cases h) ?_
      rintro (⟨h, -⟩ | ⟨⟨h, -⟩, -⟩) <;> cases h
    | false =>
      rw [if_neg Bool.false_ne_true]
      cases hleaf' : hwLeaf pte with
      | true =>
        rw [if_pos rfl]
        constructor
        · rintro ⟨_, h, hpermits⟩
          split_ifs at h with haligned
          obtain rfl := Option.some.inj h
          exact .inl ⟨rfl, haligned, hpermits⟩
        · rintro (⟨-, haligned, hpermits⟩ | ⟨⟨-, h⟩, -⟩)
          · exact ⟨pte, if_pos haligned, hpermits⟩
          · cases h
      | false =>
        rw [if_neg Bool.false_ne_true, ih hwalk]
        constructor
        · exact fun h => .inr ⟨⟨rfl, rfl⟩, h⟩
        · rintro (⟨-, haligned, hpermits⟩ | ⟨-, h⟩)
          · have hr := (largePage_iff.mp ⟨hreserved, haligned, hpermits⟩).readable
            rw [hwLeaf, hr] at hleaf'
            cases hleaf'
          · exact h

/-- The walk does not look at the offset in the page. -/
theorem vpn_pageDown (level va : Nat) : vpn level (pageDown va) = vpn level va := by
  have hdiv : ∀ k, pageDown va / 2 ^ (12 + k) = va / 2 ^ (12 + k) := by
    intro k
    have hpage : pageDown va / pageSize = va / pageSize := Nat.mul_div_cancel _ (by decide)
    rw [Nat.pow_add, ← Nat.div_div_eq_div_mul, ← Nat.div_div_eq_div_mul]
    exact congrArg (· / 2 ^ k) hpage
  rw [vpn, vpn, Fin.mk.injEq, hdiv]

theorem walkFrom_pageDown (va n : Nat) (vm : Vm) (pt : Nat) :
    (walkFrom l false (pageDown va) n vm pt).1 = (walkFrom l false va n vm pt).1 := by
  induction n generalizing pt with
  | zero => rw [walkFrom, walkFrom, vpn_pageDown]
  | succ n ih => rw [walkFrom_false_succ, walkFrom_false_succ, vpn_pageDown, ih]

/-- What `vm_user_check` has found for a page. -/
theorem checkedLeaf_of_userPageOk (h : userPageOk l vm pt write (pageDown va) = true) :
    ∃ table i, (walkFrom l false va 2 vm pt).1 = some (table, i) ∧ CheckedLeaf write (vm.mem table i) := by
  rw [userPageOk, vmWalk, walkFrom_pageDown] at h
  cases hwalk : (walkFrom l false va 2 vm pt).1 with
  | none =>
    rw [hwalk] at h
    cases h
  | some found =>
    rw [hwalk] at h
    obtain ⟨⟨hv, hu⟩, hkind⟩ := (Bool.and_eq_true_iff.mp h).imp_left Bool.and_eq_true_iff.mp
    exact ⟨found.1, found.2, rfl, hv, hu, hkind⟩

end

/-- **`vm_user_check` and the hardware.** Where the check has returned 0, the kernel can use the
addresses of the range exactly if they are canonical and the entries on the way to them are plain. -/
theorem vmUserCheck_sound_iff (l : Layout) (vm : Vm) (pt : Nat) (ua len : UInt64) (write : Bool)
    (h : vmUserCheck l vm pt ua.toNat len.toNat write = some 0) :
    (∀ a, ua.toNat ≤ a → a < ua.toNat + len.toNat → HwUser vm pt write a) ↔
      ∀ a, ua.toNat ≤ a → a < ua.toNat + len.toNat → canonical a ∧ PathPlain vm write a 2 pt := by
  refine forall_congr' fun a => forall_congr' fun hlow => forall_congr' fun hhigh => ?_
  obtain ⟨-, hok⟩ := userCheck_eq_zero (by decide) ua.toNat_lt len.toNat_lt h hlow hhigh
  obtain ⟨table, i, hwalk, hleaf⟩ := checkedLeaf_of_userPageOk hok
  exact and_congr_right fun _ => hwWalk_permits_iff 2 hwalk hleaf

/-- The root table of agent 1 right after `agent_create`. -/
def createdRoot : Nat := 0x80808

/-- The word at the bottom of the stack of agent 1. -/
theorem vmUserCheck_sound_stack :
    (heapCreated.agents 1).pagetable = some createdRoot ∧
    vmUserCheck virtLayout heapCreated.vm createdRoot 0x40004000 8 true = some 0 ∧
    ((∀ a, 0x40004000 ≤ a → a < 0x40004000 + 8 → HwUser heapCreated.vm createdRoot true a) ↔
      ∀ a, 0x40004000 ≤ a → a < 0x40004000 + 8 →
        canonical a ∧ PathPlain heapCreated.vm true a 2 createdRoot) := by
  have hcheck : vmUserCheck virtLayout heapCreated.vm createdRoot 0x40004000 8 true = some 0 := by
    decide +kernel
  exact ⟨by decide +kernel, hcheck,
    vmUserCheck_sound_iff virtLayout heapCreated.vm createdRoot 0x40004000 8 true hcheck⟩

/-- **Bit 39.** The check looks at bits 12 to 38 only and accepts the address, and the hardware does
not translate it. -/
theorem not_vmUserCheck_sound :
    (heapCreated.agents 1).pagetable = some createdRoot ∧
    vmUserCheck virtLayout heapCreated.vm createdRoot (2 ^ 39 + 0x40004000) 8 true = some 0 ∧
    ¬ HwUser heapCreated.vm createdRoot true (2 ^ 39 + 0x40004000) := by
  refine ⟨by decide +kernel, by decide +kernel, ?_⟩
  rintro ⟨hcanonical, -⟩
  revert hcanonical
  rw [canonical]
  decide

end OpenAgentOS
