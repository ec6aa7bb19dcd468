import OpenAgentOS.Vm.Sv39

/-!
# Checking user ranges (`vm_user_check` of both ports)

`vm_user_check` looks at the entry of every page of a range. Its two versions differ in the
test of an entry and in the width of addresses, and share the loop.

- `userCheckLoop`: the loop. In the last page of the address space its variable wraps around to
  0 and the loop starts over; it returns when it meets an entry that fails, and otherwise never.
- `userCheck_inside`: on a range that ends before that page the answer is that of all pages.
- `vmUserCheck`: the function for Sv39.
-/

namespace OpenAgentOS

/-- The loop of `vm_user_check` from `a` on, for at most `n` rounds. -/
def userCheckLoop (width : Nat) (ok : Nat → Bool) (stop : Nat) : Nat → Nat → Option Int
  | 0, _ => none
  | n + 1, a =>
    if a < stop then
      if ok a then userCheckLoop width ok stop n ((a + pageSize) % 2 ^ width) else some (-1)
    else some 0

/-- `vm_user_check` with the test of an entry left open. After twice the number of pages the
loop has seen all of them: `none` says that it does not end. -/
def userCheck (width : Nat) (ok : Nat → Bool) (ua len : Nat) : Option Int :=
  if len = 0 then some 0
  else
    let stop := (ua + len) % 2 ^ width
    if stop < ua then some (-1)
    else userCheckLoop width ok stop (2 * 2 ^ (width - 12) + 1) (pageDown ua)

/-- The test of `vm_user_check` (vm.c:75) for one page. -/
def userPageOk (l : Layout) (vm : Vm) (pt : Nat) (write : Bool) (a : Nat) : Bool :=
  match (vmWalk l vm pt a false).1 with
  | none => false
  | some (table, i) =>
    let pte := vm.mem table i
    hasFlag pte pteV && hasFlag pte pteU &&
      (if write then hasFlag pte pteW else hasFlag pte pteR || hasFlag pte pteX)

/-- `vm_user_check` (vm.c:75). -/
def vmUserCheck (l : Layout) (vm : Vm) (pt ua len : Nat) (write : Bool) : Option Int :=
  userCheck 64 (userPageOk l vm pt write) ua len

/-! ## Ranges that end before the last page -/

section Inside

variable {width stop : Nat} {ok : Nat → Bool}

/-- The loop visits the pages from `a` up to `stop`. -/
theorem userCheckLoop_pages (hstop : stop + pageSize ≤ 2 ^ width) :
    ∀ {n pages a}, pages < n → stop ≤ a + pages * pageSize →
      (0 < pages → a + (pages - 1) * pageSize < stop) →
      (userCheckLoop width ok stop n a = some 0 ∧ (∀ i, i < pages → ok (a + i * pageSize) = true)) ∨
        (userCheckLoop width ok stop n a = some (-1) ∧
          ∃ i, i < pages ∧ ok (a + i * pageSize) = false) := by
  intro n pages
  induction pages generalizing n with
  | zero =>
    intro a hn hend _
    obtain ⟨n, rfl⟩ := Nat.exists_eq_succ_of_ne_zero (Nat.pos_iff_ne_zero.mp hn)
    rw [Nat.zero_mul, Nat.add_zero] at hend
    left
    exact ⟨if_neg (Nat.not_lt.mpr hend), fun i hi => absurd hi (Nat.not_lt_zero i)⟩
  | succ pages ih =>
    intro a hn hend hlast
    obtain ⟨n, rfl⟩ := Nat.exists_eq_succ_of_ne_zero (Nat.pos_iff_ne_zero.mp (Nat.zero_lt_of_lt hn))
    have hlast := hlast (Nat.succ_pos pages)
    rw [Nat.succ_sub_one] at hlast
    have hlt : a < stop := Nat.lt_of_le_of_lt (Nat.le_add_right _ _) hlast
    rw [userCheckLoop, if_pos hlt]
    cases hok : ok a with
    | false =>
      right
      refine ⟨if_neg nofun, 0, Nat.succ_pos pages, ?_⟩
      rw [Nat.zero_mul, Nat.add_zero]
      exact hok
    | true =>
      -- the loop goes on behind the page, which is not the last of the address space
      have hnext : (a + pageSize) % 2 ^ width = a + pageSize := Nat.mod_eq_of_lt (by omega)
      rw [if_pos rfl, hnext]
      have hend' : stop ≤ a + pageSize + pages * pageSize := by
        rw [Nat.succ_mul] at hend
        omega
      have hlast' : 0 < pages → a + pageSize + (pages - 1) * pageSize < stop := by
        intro hpos
        obtain ⟨m, rfl⟩ := Nat.exists_eq_succ_of_ne_zero (Nat.pos_iff_ne_zero.mp hpos)
        rw [Nat.succ_mul] at hlast
        rw [Nat.succ_sub_one]
        omega
      have hshift : ∀ i, a + pageSize + i * pageSize = a + (i + 1) * pageSize := by
        intro i
        rw [Nat.succ_mul]
        omega
      rcases ih (Nat.lt_of_succ_lt_succ hn) hend' hlast' with ⟨hrc, hall⟩ | ⟨hrc, i, hi, hbad⟩
      · left
        refine ⟨hrc, fun i hi => ?_⟩
        cases i with
        | zero =>
          rw [Nat.zero_mul, Nat.add_zero]
          exact hok
        | succ i =>
          rw [← hshift i]
          exact hall i (Nat.lt_of_succ_lt_succ hi)
      · right
        refine ⟨hrc, i + 1, Nat.succ_lt_succ hi, ?_⟩
        rw [← hshift i]
        exact hbad

/-- **The answer on a range that is not empty** and ends before the last page. -/
theorem userCheck_inside {ua len : Nat} (hlen : 0 < len) (hwidth : 12 ≤ width)
    (hstop : ua + len + pageSize ≤ 2 ^ width) :
    userCheck width ok ua len = some 0 ∧ (∀ a, pageDown ua ≤ a → a < ua + len →
        a % pageSize = 0 → ok a = true) ∨
      userCheck width ok ua len = some (-1) ∧
        ∃ a, pageDown ua ≤ a ∧ a < ua + len ∧ a % pageSize = 0 ∧ ok a = false := by
  have hmod : (ua + len) % 2 ^ width = ua + len := Nat.mod_eq_of_lt (by
    have : 0 < pageSize := by decide
    omega)
  have hdown : pageDown ua ≤ ua := Nat.div_mul_le_self ua pageSize
  have haligned : pageDown ua % pageSize = 0 := Nat.mul_mod_left ..
  have hpow : 2 ^ width = 2 ^ (width - 12) * pageSize := by
    rw [show pageSize = 2 ^ 12 from rfl, ← Nat.pow_add, Nat.sub_add_cancel hwidth]
  have hcheck : userCheck width ok ua len =
      userCheckLoop width ok (ua + len) (2 * 2 ^ (width - 12) + 1) (pageDown ua) := by
    rw [userCheck, if_neg (Nat.pos_iff_ne_zero.mp hlen)]
    dsimp only
    rw [hmod, if_neg (by omega)]
  -- the number of pages that the range touches
  obtain ⟨pages, hpages⟩ : ∃ pages, pages = (ua + len - pageDown ua + (pageSize - 1)) / pageSize :=
    ⟨_, rfl⟩
  have hbound : pages < 2 * 2 ^ (width - 12) + 1 := by
    simp only [pageSize] at hpages hpow hstop
    omega
  have hend : ua + len ≤ pageDown ua + pages * pageSize := by
    simp only [pageSize] at hpages ⊢
    omega
  have hlast : 0 < pages → pageDown ua + (pages - 1) * pageSize < ua + len := by
    simp only [pageSize] at hpages ⊢
    omega
  rw [hcheck]
  rcases userCheckLoop_pages hstop hbound hend hlast with ⟨hrc, hall⟩ | ⟨hrc, i, hi, hbad⟩
  · left
    refine ⟨hrc, fun a hlow hhigh halign => ?_⟩
    have ha : a = pageDown ua + (a - pageDown ua) / pageSize * pageSize := by
      simp only [pageSize] at haligned halign ⊢
      omega
    rw [ha]
    refine hall _ ?_
    simp only [pageSize] at haligned halign ha hpages ⊢
    omega
  · right
    refine ⟨hrc, pageDown ua + i * pageSize, Nat.le_add_right _ _, ?_, ?_, hbad⟩
    · have hpos := hlast (Nat.zero_lt_of_lt hi)
      have hle : i * pageSize ≤ (pages - 1) * pageSize := 
        Nat.mul_le_mul_right _ (Nat.le_sub_one_of_lt hi)
      exact Nat.lt_of_le_of_lt (Nat.add_le_add_left hle _) hpos
    · rw [Nat.add_mul_mod_self_right]
      exact haligned

/-- In the last page of the address space the loop does not get to its end. -/
theorem userCheckLoop_ne_zero (hwidth : 12 ≤ width) (hstop : 2 ^ width < stop + pageSize) (n : Nat) {a : Nat}
    (haligned : a % pageSize = 0) (hlt : a < 2 ^ width) : userCheckLoop width ok stop n a ≠ some 0 := by
  have hpow : 2 ^ width = 2 ^ (width - 12) * pageSize := by
    rw [show pageSize = 2 ^ 12 from rfl, ← Nat.pow_add, Nat.sub_add_cancel hwidth]
  induction n generalizing a with
  | zero => exact nofun
  | succ n ih =>
    have hbelow : a < stop := by
      simp only [pageSize] at hpow haligned hstop
      omega
    rw [userCheckLoop, if_pos hbelow]
    cases ok a with
    | false => exact nofun
    | true =>
      refine ih ?_ (Nat.mod_lt _ (Nat.two_pow_pos width))
      rw [hpow, Nat.mod_mul_left_mod, Nat.add_mod_right]
      exact haligned

/-- **What the answer 0 means**: all pages of the range have passed the test. -/
theorem userCheck_eq_zero {ua len : Nat} (hwidth : 12 ≤ width) (hua : ua < 2 ^ width)
    (hlt : len < 2 ^ width) (h : userCheck width ok ua len = some 0) {a : Nat} (hlow : ua ≤ a)
    (hhigh : a < ua + len) : ua + len ≤ 2 ^ width ∧ ok (pageDown a) = true := by
  have hlen : 0 < len := by omega
  have hdown : pageDown ua ≤ ua := Nat.div_mul_le_self ua pageSize
  by_cases hend : ua + len + pageSize ≤ 2 ^ width
  · refine ⟨(Nat.le_add_right _ _).trans hend, ?_⟩
    obtain ⟨-, hall⟩ | ⟨hrc, -⟩ := @userCheck_inside width ok ua len hlen hwidth hend
    · exact hall _ (Nat.mul_le_mul_right _ (Nat.div_le_div_right hlow))
        (Nat.lt_of_le_of_lt (Nat.div_mul_le_self a pageSize) hhigh) (Nat.mul_mod_left ..)
    · rw [h] at hrc
      cases hrc
  · -- the sum wraps around, or the range ends in the last page
    exfalso
    rw [userCheck, if_neg (Nat.pos_iff_ne_zero.mp hlen)] at h
    dsimp only at h
    by_cases hwrap : (ua + len) % 2 ^ width < ua
    · rw [if_pos hwrap] at h
      cases h
    rw [if_neg hwrap] at h
    refine userCheckLoop_ne_zero hwidth ?_ _ ?_ ?_ h
    · have hmod : (ua + len) % 2 ^ width = ua + len := by
        by_contra hne
        have hover : 2 ^ width ≤ ua + len := by
          by_contra hsmall
          exact hne (Nat.mod_eq_of_lt (Nat.not_le.mp hsmall))
        rw [Nat.mod_eq_sub_mod hover, Nat.mod_eq_of_lt (by omega)] at hwrap
        omega
      rw [hmod]
      omega
    · exact Nat.mul_mod_left ..
    · omega

end Inside

end OpenAgentOS
