import OpenAgentOS.Abi
import OpenAgentOS.Lib.CString
import OpenAgentOS.Vm.UserCheck

/-!
# Access to user memory (kernel/uaccess.c)

The kernel reaches the memory of the running agent through four functions. They ask `vm_user_check`
and then use the address as it is.

- `UserSpace`: what the functions see of the running agent: the answers of the check, and the bytes
  at its addresses. `UserSpace.ofTable` has the answers for a page table.
- `copyFromUser`, `userStrnlen`: the functions that read.
- `userStrnlen_cases`: what a length means. A string that is longer than the limit has the limit as
  its length, as one of exactly that length has.
-/

namespace OpenAgentOS

/-- The running agent's memory as the kernel sees it. -/
structure UserSpace where
  /-- `vm_user_check` returns 0 for the range. -/
  check : Nat → Nat → Bool → Bool
  byte : Nat → UInt8

/-- The answers of `vm_user_check` for a page table. -/
def UserSpace.ofTable (l : Layout) (vm : Vm) (pagetable : Nat) (byte : Nat → UInt8) : UserSpace where
  check ua len write := vmUserCheck l vm pagetable ua len write == some 0
  byte := byte

/-- `user_access_ok` (uaccess.c:6), for a running agent with a page table. -/
def userAccessOk (u : UserSpace) (ua len : Nat) (write : Bool) : Bool := ua != 0 && u.check ua len write

/-- The address of byte `i` behind a pointer. -/
def userAddr (p i : Nat) : Nat := (p + i) % 2 ^ 64

/-- The bytes behind a pointer. -/
def UserSpace.bytesAt (u : UserSpace) (p len : Nat) : List UInt8 :=
  (List.range len).map fun i => u.byte (userAddr p i)

/-- `copy_from_user` (uaccess.c:16): the bytes that are copied, or `EFAULT`. -/
def copyFromUser (u : UserSpace) (p len : Nat) : Except Int (List UInt8) :=
  if p = 0 then .error efault
  else if len = 0 then .ok []
  else if !userAccessOk u p len false then .error efault
  else .ok (u.bytesAt p len)

/-- The loop of `user_strnlen`, from index `n` on, for at most so many rounds. -/
def userStrnlenLoop (u : UserSpace) (p : Nat) : Nat → Nat → Int
  | 0, n => n
  | rounds + 1, n =>
    if !userAccessOk u (userAddr p n) 1 false then efault
    else
      match copyFromUser u (userAddr p n) 1 with
      | .error _ => efault
      | .ok c => if CString.charAt c 0 = 0 then n else userStrnlenLoop u p rounds (n + 1)

/-- `user_strnlen` (uaccess.c:47). -/
def userStrnlen (u : UserSpace) (p : Nat) (max : Int) : Int :=
  if p = 0 ∨ max ≤ 0 then efault else userStrnlenLoop u p max.toNat 0

/-! ## Lengths -/

section

variable {u : UserSpace} {p : Nat}

/-- A copy that succeeds has the bytes behind the pointer. -/
theorem copyFromUser_eq_ok {len : Nat} {text : List UInt8} (h : copyFromUser u p len = .ok text) :
    text = u.bytesAt p len := by
  rw [copyFromUser] at h
  split_ifs at h with hnull hempty hok
  · rw [hempty, ← Except.ok.inj h]
    rfl
  · exact (Except.ok.inj h).symm

/-- One round: the byte is not readable, or it ends the string, or the loop goes on. -/
theorem userStrnlenLoop_succ (rounds n : Nat) :
    userStrnlenLoop u p (rounds + 1) n =
      if !userAccessOk u (userAddr p n) 1 false then efault
      else if u.byte (userAddr p n) = 0 then (n : Int)
      else userStrnlenLoop u p rounds (n + 1) := by
  rw [userStrnlenLoop]
  by_cases hok : userAccessOk u (userAddr p n) 1 false = true
  · have hne : userAddr p n ≠ 0 := by
      rintro hzero
      rw [userAccessOk, hzero] at hok
      exact Bool.false_ne_true hok
    have haddr : userAddr (userAddr p n) 0 = userAddr p n := by
      rw [userAddr, userAddr, Nat.add_zero, Nat.mod_mod]
    have hcopy : copyFromUser u (userAddr p n) 1 = .ok [u.byte (userAddr p n)] := by
      rw [copyFromUser, if_neg hne, if_neg Nat.one_ne_zero, hok, if_neg (by decide),
        UserSpace.bytesAt, List.range_one, List.map_singleton, haddr]
    rw [hok, hcopy]
    rfl
  · rw [Bool.not_eq_true] at hok
    rw [hok]
    rfl

/-- The loop fails, or stops at a zero byte, or comes to its end without one. -/
theorem userStrnlenLoop_cases (rounds n : Nat) :
    userStrnlenLoop u p rounds n = efault ∨
      ∃ len, userStrnlenLoop u p rounds n = ((n + len : Nat) : Int) ∧ len ≤ rounds ∧
        (∀ i, i < len → u.byte (userAddr p (n + i)) ≠ 0) ∧
        (len < rounds → u.byte (userAddr p (n + len)) = 0) := by
  induction rounds generalizing n with
  | zero => exact .inr ⟨0, rfl, Nat.le_refl 0, fun i hi => absurd hi (Nat.not_lt_zero i), nofun⟩
  | succ rounds ih =>
    rw [userStrnlenLoop_succ]
    by_cases hok : (!userAccessOk u (userAddr p n) 1 false) = true
    · rw [if_pos hok]
      exact .inl rfl
    rw [if_neg hok]
    by_cases hzero : u.byte (userAddr p n) = 0
    · rw [if_pos hzero]
      exact .inr ⟨0, rfl, Nat.zero_le _, fun i hi => absurd hi (Nat.not_lt_zero i), fun _ => hzero⟩
    rw [if_neg hzero]
    refine (ih (n + 1)).imp id ?_
    rintro ⟨len, hlen, hle, hnonzero, hend⟩
    refine ⟨len + 1, ?_, Nat.succ_le_succ hle, ?_, ?_⟩
    · rw [hlen, Nat.add_assoc, Nat.add_comm 1 len]
    · -- the byte of this round and those of the others
      rintro (_ | i) hi
      · exact hzero
      · have := hnonzero i (Nat.lt_of_succ_lt_succ hi)
        rwa [Nat.add_assoc, Nat.add_comm 1 i] at this
    · intro hlt
      have := hend (Nat.lt_of_succ_lt_succ hlt)
      rwa [Nat.add_assoc, Nat.add_comm 1 len] at this

/-- **What a length says**: the bytes in front of it are not zero, and unless it is the limit, the
string ends there. -/
theorem userStrnlen_cases (max : Nat) :
    userStrnlen u p max = efault ∨
      ∃ len : Nat, userStrnlen u p max = (len : Int) ∧ len ≤ max ∧
        (∀ i, i < len → u.byte (userAddr p i) ≠ 0) ∧ (len < max → u.byte (userAddr p len) = 0) := by
  rw [userStrnlen]
  by_cases hbad : p = 0 ∨ (max : Int) ≤ 0
  · rw [if_pos hbad]
    exact .inl rfl
  · rw [if_neg hbad, Int.toNat_natCast]
    refine (userStrnlenLoop_cases max 0).imp id ?_
    rintro ⟨len, hlen, hle, hnonzero, hend⟩
    simp only [Nat.zero_add] at hlen hnonzero hend
    exact ⟨len, hlen, hle, hnonzero, hend⟩

end

end OpenAgentOS
