import OpenAgentOS.Vm.HeapPorts
import OpenAgentOS.Vm.UserAccess

/-!
# Kernel stores to the heap (kernel/uaccess.c)

A user store that the page table does not permit faults, and `vm_heap_fault` maps the page or
copies it. `copy_to_user` asks `vm_user_check`, which looks at the page table as it is, and
returns `EFAULT` where the user's store would have been served.

- `copyToUser`: the function, on the machine of `Vm/HeapCow`.
- `machineInv_step`: every operation keeps the heap pages sound, also where memory is short.
- `access_store_iff`: a store is made iff the memory that it needs can be had.
- `copyToUser_agrees_iff`: on a range of the heap the kernel's copy and the user's stores agree
  iff every page of the range is mapped for writing, or the user cannot store there either.
-/

namespace OpenAgentOS

open Function

/-- The memory of the agent, as its page table has it now. -/
def HeapMachine.space (l : Layout) (pt : Nat) (m : HeapMachine) : UserSpace :=
  UserSpace.ofTable l m.k.vm pt fun va =>
    match userFrame l m.k.vm pt va false with
    | none => 0
    | some f => m.data f (Fin.ofNat pageSize va)

/-- `*d = byte` in the kernel, with the page table of the agent. -/
def HeapMachine.putByte (l : Layout) (pt : Nat) (m : HeapMachine) (va : Nat) (byte : UInt8) :
    HeapMachine :=
  match userFrame l m.k.vm pt va true with
  | none => m
  | some f => m.poke f (Fin.ofNat pageSize va) byte

/-- The loop of `copy_to_user`. -/
def HeapMachine.putBytes (l : Layout) (pt : Nat) : HeapMachine → Nat → List UInt8 → HeapMachine
  | m, _, [] => m
  | m, va, byte :: src => HeapMachine.putBytes l pt (m.putByte l pt va byte) (userAddr va 1) src

/-- `copy_to_user` (uaccess.c:31), for agent `id`. -/
def copyToUser (l : Layout) (id : Fin maxAgents) (m : HeapMachine) (userDst : Nat)
    (src : List UInt8) : Int × HeapMachine :=
  if userDst = 0 then (efault, m)
  else if src.length = 0 then (0, m)
  else
    match (m.k.agents id).pagetable with
    | none => (efault, m)
    | some pt =>
      if !userAccessOk (m.space l pt) userDst src.length true then (efault, m)
      else (src.length, m.putBytes l pt userDst src)

/-! ## Bytes of the heap -/

/-- The page of byte `x` of the heap. -/
def heapPageOf (x : Nat) : HeapPage := Fin.ofNat 16 (x / pageSize)

/-- The place of byte `x` in its page. -/
def heapByteOf (x : Nat) : Fin pageSize := Fin.ofNat pageSize x

/-- A store of the user to each byte of the range would be made. -/
def UserStores (l : Layout) (id : Fin maxAgents) (m : HeapMachine) (start len : Nat) : Prop :=
  ∀ x, start ≤ x → x < start + len →
    (m.access l id (heapPageOf x) (heapByteOf x) true).1 ≠ none

/-- The user reads these bytes. -/
def UserReads (l : Layout) (id : Fin maxAgents) (m : HeapMachine) (start : Nat)
    (bytes : List UInt8) : Prop :=
  ∀ i, i < bytes.length →
    m.loaded l id (heapPageOf (start + i)) (heapByteOf (start + i)) = bytes[i]?

/-- `copy_to_user` to the bytes from `start` on succeeds iff the user's stores do, and the user
reads what was copied. -/
def CopyAgrees (l : Layout) (id : Fin maxAgents) (m : HeapMachine) (start : Nat)
    (src : List UInt8) : Prop :=
  ((copyToUser l id m (heapVa id 0 + start) src).1 = src.length ↔
    UserStores l id m start src.length) ∧
  ((copyToUser l id m (heapVa id 0 + start) src).1 = src.length →
    UserReads l id (copyToUser l id m (heapVa id 0 + start) src).2 start src)

/-- Every page of the range is mapped for writing. -/
def RangeWritable (l : Layout) (id : Fin maxAgents) (m : HeapMachine) (start len : Nat) : Prop :=
  ∀ x, start ≤ x → x < start + len → ∃ f, m.entries l id (heapPageOf x) = some (f, true)

/-- For some byte of the range, a store needs memory that cannot be had. -/
def RangeStarved (l : Layout) (id : Fin maxAgents) (m : HeapMachine) (start len : Nat) : Prop :=
  ∃ x, start ≤ x ∧ x < start + len ∧
    ¬ AllocOk l id m (.store (heapPageOf x) (heapByteOf x) 0)

variable {l : Layout} {id : Fin maxAgents} {pt : Nat} {k : VmKernel} {m : HeapMachine}
  {p : HeapPage} {off : Fin pageSize} {extra start x : Nat} {src : List UInt8}

/-! ## When tables run out -/

/-- Without tables nothing is mapped. -/
theorem vmMapPage_no_tables {vm : Vm} {va : Nat} (h : (vmWalk l vm pt va true).1 = none)
    (pa perm : Nat) : (vmMapPage l vm pt va pa perm).1 ≠ 0 := by
  rw [vmMapPage]
  rcases hwalk : vmWalk l vm pt va true with ⟨slot, vm'⟩
  rw [hwalk] at h
  obtain rfl : slot = none := h
  split_ifs
  · exact minus_one_ne_zero
  · exact minus_one_ne_zero

/-- Mapping a page that fails leaves the heap as it was. -/
theorem HeapInv.map_failed {ok : Prop} (hinv : HeapInv l id pt k) (hok : ¬ ok) {heapPtr va pa perm : Nat}
    (hle : k.vm.heapPtr ≤ heapPtr)
    (hfail : (vmMapPage l (k.vm.setHeap heapPtr) pt va pa perm).1 ≠ 0) :
    HeapRefines l id pt ok { k with vm := (vmMapPage l (k.vm.setHeap heapPtr) pt va pa perm).2 }
      (false, k.heap l id pt) := by
  obtain ⟨place, htables⟩ := hinv.tables
  have hheap := htables.setHeap hle
  obtain ⟨place', htree, hkeeps, hptr, hmapped⟩ := hheap.tree.heapMapped_vmMapPage hheap.root id
    va pa perm
  have hleaf : heapLeaf l (vmMapPage l (k.vm.setHeap heapPtr) pt va pa perm).2 pt id =
      heapLeaf l (k.vm.setHeap heapPtr) pt id := by
    cases hmapped with
    | same hleaf => exact hleaf
    | mapped _ hrc => exact absurd hrc hfail
  refine ⟨iff_of_false hok nofun, ?_, hinv.pagetable, hinv.base, hinv.max,
    ⟨place', htree, hkeeps _ _ hheap.root, ?_⟩⟩
  · rw [VmKernel.heap, VmKernel.heap]
    refine congrArg (AgentHeap.mk · _) (congrArg (pteEntry ∘ ·) ?_)
    rw [hleaf, heapLeaf_setHeap]
  · rw [hleaf, hptr]
    exact hheap.sound

/-- `vm_heap_map_page`, if no tables can be had for the page. -/
theorem refines_map_no_tables (hinv : HeapInv l id pt k) {va : Nat} (hva : heapPageAt id va = some p)
    (hfree : heapEntry l k.vm pt id p = none) (htables : ¬ TablesFor l k.vm pt id p) :
    HeapRefines l id pt ((vmHeapMapPage l k id va).1 = 0) (vmHeapMapPage l k id va).2
      (false, k.heap l id pt) := by
  obtain ⟨hpage, -, -⟩ := heapPageAt_some hva
  rw [vmHeapMapPage]
  simp only [hinv.pagetable]
  rw [if_neg (by rw [hinv.range, hva]; exact Option.some_ne_none _), hpage, vmPageMapped_heapVa, hfree,
    if_neg (by decide), hinv.max]
  by_cases hfull : 16 ≤ (k.agents id).heapMapped
  · rw [if_pos hfull]
    exact hinv.refused minus_one_ne_zero
  rw [if_neg hfull]
  by_cases hnone : (kallocPage l k.vm).1 = 0
  · obtain ⟨heapPtr, hle, hheap⟩ := kallocPage_le l k.vm
    rw [if_pos hnone, hheap]
    exact hinv.setHeap minus_one_ne_zero hle
  rw [if_neg hnone]
  obtain ⟨-, hle, hheap⟩ := kallocPage_pos hnone
  have hwalk : (vmWalk l (k.vm.setHeap ((kallocPage l k.vm).1 + pageSize)) pt (heapVa id p)
      true).1 = none := by
    rw [vmWalk, walkFrom_setHeap]
    exact not_not.mp htables
  have hfail := vmMapPage_no_tables hwalk (kallocPage l k.vm).1 (pteU ||| pteR ||| pteW)
  rw [hheap, if_pos hfail]
  exact hinv.map_failed minus_one_ne_zero (by omega) hfail

/-- `vm_heap_cow_alias`, if no tables can be had for the target. -/
theorem refines_cow_no_tables {dst src : HeapPage} (hinv : HeapInv l id pt k) (hne : dst ≠ src)
    (hsrc : heapEntry l k.vm pt id src ≠ none) (hdst : heapEntry l k.vm pt id dst = none)
    (htables : ¬ TablesFor l k.vm pt id dst) :
    HeapRefines l id pt (0 ≤ (vmHeapCowAlias l k id (dst : Nat) (src : Nat)).1)
      (vmHeapCowAlias l k id (dst : Nat) (src : Nat)).2 (false, k.heap l id pt) := by
  have hnospc : ¬ 0 ≤ enospc := by decide
  have hoff : ¬ ((dst : Nat) : Int) = ((src : Nat) : Int) := fun h => hne (Fin.ext (by omega))
  obtain ⟨⟨f, w⟩, hentry⟩ := Option.ne_none_iff_exists'.mp hsrc
  obtain ⟨table, i, hslot, hword⟩ := walk_of_heapEntry hentry
  obtain ⟨hvalid, hppn, -⟩ := pteEntry_eq_some hentry
  have hfail := vmMapPage_no_tables (not_not.mp htables) (f * pageSize) (pteU ||| pteR)
  rw [vmHeapCowAlias]
  simp only [hinv.pagetable, hinv.base, hinv.max]
  rw [if_neg hoff, if_neg (natCast_in_heap src), if_neg (natCast_in_heap dst),
    heapVa_natCast, heapVa_natCast, vmPageMapped_heapVa,
    vmPageMapped_heapVa, hentry, hdst, if_neg (by simp), hslot]
  dsimp only
  rw [hword, hppn, hvalid, if_neg (by decide), if_neg (by decide)]
  by_cases hfull : 16 ≤ (k.agents id).heapMapped
  · rw [if_pos hfull]
    exact hinv.refused hnospc
  · rw [if_neg hfull, if_pos hfail]
    exact hinv.map_failed hnospc (Nat.le_refl k.vm.heapPtr) hfail

/-- A call has answered as the abstract heap does, or it was refused for want of tables. -/
def HeapServed (l : Layout) (id : Fin maxAgents) (pt : Nat) (k : VmKernel) (ok : Prop)
    (k' : VmKernel) (c : HeapCall) : Prop :=
  HeapRefines l id pt ok k' ((k.heap l id pt).call (newFrame l k.vm) c) ∨
    HeapRefines l id pt ok k' (false, k.heap l id pt)

theorem served_map (hinv : HeapInv l id pt k) (va : Nat) :
    HeapServed l id pt k ((vmHeapMapPage l k id va).1 = 0) (vmHeapMapPage l k id va).2
      (.map (heapPageAt id va)) := by
  by_cases h : ∀ p, heapPageAt id va = some p → heapEntry l k.vm pt id p = none →
      TablesFor l k.vm pt id p
  · exact .inl (refines_map hinv va h)
  · push Not at h
    obtain ⟨p, hva, hfree, htables⟩ := h
    exact .inr (refines_map_no_tables hinv hva hfree htables)

/-- A fault on a page that is not mapped maps it. -/
theorem vmHeapFault_unmapped (hinv : HeapInv l id pt k) {va : Nat} (hva : heapPageAt id va = some p)
    (hfree : heapEntry l k.vm pt id p = none) (write : Bool) :
    vmHeapFault l k id va write =
      (decide ((vmHeapMapPage l k id va).1 = 0), (vmHeapMapPage l k id va).2) := by
  obtain ⟨hpage, -, -⟩ := heapPageAt_some hva
  rw [vmHeapFault]
  simp only [hinv.pagetable]
  rw [if_neg (by rw [hinv.range, hva]; exact Option.some_ne_none _), hpage, vmPageMapped_heapVa, hfree,
    if_neg (by decide)]

theorem served_fault (hinv : HeapInv l id pt k) (va : Nat) (write : Bool) :
    HeapServed l id pt k ((vmHeapFault l k id va write).1 = true) (vmHeapFault l k id va write).2
      (.fault (heapPageAt id va) write) := by
  by_cases h : ∀ p, heapPageAt id va = some p → heapEntry l k.vm pt id p = none →
      TablesFor l k.vm pt id p
  · exact .inl (refines_fault hinv va write h)
  · push Not at h
    obtain ⟨p, hva, hfree, htables⟩ := h
    rw [vmHeapFault_unmapped hinv hva hfree]
    exact .inr (refines_map_no_tables hinv hva hfree htables).decided

theorem served_cow (hinv : HeapInv l id pt k) (dstOff srcOff : Int) :
    HeapServed l id pt k (0 ≤ (vmHeapCowAlias l k id dstOff srcOff).1)
      (vmHeapCowAlias l k id dstOff srcOff).2
      (.cow (heapPageOff dstOff) (heapPageOff srcOff)) := by
  by_cases h : ∀ dst src, heapPageOff dstOff = some dst → heapPageOff srcOff = some src →
      heapEntry l k.vm pt id src ≠ none → heapEntry l k.vm pt id dst = none →
      TablesFor l k.vm pt id dst
  · exact .inl (refines_cow hinv dstOff srcOff h)
  · push Not at h
    obtain ⟨dst, src, hdstOff, hsrcOff, hsrc, hdst, htables⟩ := h
    obtain ⟨-, hdstEq⟩ := heapPageOff_some hdstOff
    obtain ⟨-, hsrcEq⟩ := heapPageOff_some hsrcOff
    have hne : dst ≠ src := by
      rintro rfl
      exact hsrc hdst
    rw [hdstEq, hsrcEq]
    exact .inr (refines_cow_no_tables hinv hne hsrc hdst htables)

/-- **Every call keeps the invariant**, with the same pages missing from the count. -/
theorem HeapServed.inv {ok : Prop} {k' : VmKernel} {c : HeapCall}
    (h : HeapServed l id pt k ok k' c) (hcounted : (k.heap l id pt).Counted extra) :
    HeapInv l id pt k' ∧ (k'.heap l id pt).Counted extra := by
  rcases h with hcall | hrefused
  · exact ⟨hcall.inv, by rw [hcall.heap]; exact hcounted.call _ c⟩
  · exact ⟨hrefused.inv, by rw [hrefused.heap]; exact hcounted⟩

/-! ## Reachable heaps -/

theorem MachineInv.fault (h : MachineInv l id pt extra m) (va : Nat) (write : Bool) :
    MachineInv l id pt extra (m.fault l id va write) := by
  obtain ⟨hinv, hcounted⟩ := (served_fault h.heap va write).inv h.counted
  exact ⟨hinv, hcounted⟩

theorem MachineInv.access (h : MachineInv l id pt extra m) (p : HeapPage) (off : Fin pageSize)
    (write : Bool) : MachineInv l id pt extra (m.access l id p off write).2 := by
  rw [HeapMachine.access]
  simp only [h.heap.pagetable]
  cases userFrame l m.k.vm pt (heapVa id p + off) write with
  | some f => exact h
  | none =>
    dsimp only
    split_ifs
    · exact h.fault _ write
    · exact h.fault _ write

/-- **Every operation keeps the invariant**, also one that fails. -/
theorem machineInv_step (h : MachineInv l id pt extra m) (e : HeapEvent) :
    MachineInv l id pt extra (m.step l id e) := by
  cases e with
  | map pageOff =>
    rw [HeapMachine.step, agentHeapMap_snd h.heap]
    cases heapPageOff pageOff with
    | none => exact h
    | some p =>
      obtain ⟨hinv, hcounted⟩ := (served_map h.heap (heapVa id p)).inv h.counted
      exact ⟨hinv, hcounted⟩
  | cow dstOff srcOff =>
    obtain ⟨hinv, hcounted⟩ := (served_cow h.heap dstOff srcOff).inv h.counted
    exact ⟨hinv, hcounted⟩
  | load p off => exact h.access p off false
  | store p off byte =>
    have haccess := h.access p off true
    rw [HeapMachine.step]
    rcases hout : m.access l id p off true with ⟨_ | f, m'⟩
    · rw [hout] at haccess
      exact haccess
    · rw [hout] at haccess
      exact ⟨haccess.heap, haccess.counted⟩

/-! ## Stores of the user -/

/-- Without a new frame a fault is not served. -/
theorem AgentHeap.fault_no_frame {F : Type*} (h : AgentHeap F) (p : HeapPage) (write : Bool) :
    (h.fault p write none).1 = false := by
  cases hp : h.entry p with
  | none =>
    rw [h.fault_none hp, AgentHeap.mapPage, hp, if_neg nofun]
    split_ifs
    · rfl
    · rfl
  | some e =>
    rw [AgentHeap.fault, hp]
    dsimp only
    split_ifs
    · rfl
    · rfl

/-- A fault for which there is no memory is not served. -/
theorem fault_starved (h : HeapInv l id pt m.k)
    (hentry : (heapEntry l m.k.vm pt id p = none ∧
        ¬ (newFrame l m.k.vm ≠ none ∧ TablesFor l m.k.vm pt id p)) ∨
      ∃ f, heapEntry l m.k.vm pt id p = some (f, false) ∧ newFrame l m.k.vm = none) :
    (vmHeapFault l m.k id (heapVa id p + off) true).1 ≠ true := by
  have hat := heapPageAt_heapVa id p off
  by_cases htables : heapEntry l m.k.vm pt id p = none → TablesFor l m.k.vm pt id p
  · -- what is missing is the frame
    have hnone : newFrame l m.k.vm = none := by
      rcases hentry with ⟨hfree, hshort⟩ | ⟨-, -, hnone⟩
      · by_contra hsome
        exact hshort ⟨hsome, htables hfree⟩
      · exact hnone
    have hrefines := refines_fault h (heapVa id p + off) true fun q hq hfree => by
      rw [hat] at hq
      obtain rfl := Option.some.inj hq
      exact htables hfree
    rw [hat, hnone] at hrefines
    intro hok
    have hfault : ((m.k.heap l id pt).fault p true none).1 = true := hrefines.answer.mp hok
    rw [AgentHeap.fault_no_frame] at hfault
    exact Bool.false_ne_true hfault
  · obtain ⟨hfree, hmissing⟩ := Classical.not_imp.mp htables
    rw [vmHeapFault_unmapped h hat hfree]
    exact fun hok =>
      Bool.false_ne_true ((refines_map_no_tables h hat hfree hmissing).decided.answer.mp hok)

/-- **A store is made iff the memory that it needs can be had.** -/
theorem access_store_iff (h : MachineInv l id pt extra m) (p : HeapPage) (off : Fin pageSize)
    (byte : UInt8) :
    (m.access l id p off true).1 ≠ none ↔ AllocOk l id m (.store p off byte) := by
  constructor
  · intro hmade pt' hpt'
    obtain rfl := Option.some.inj (h.heap.pagetable.symm.trans hpt')
    by_contra hshort
    have hentry : (heapEntry l m.k.vm pt id p = none ∧
        ¬ (newFrame l m.k.vm ≠ none ∧ TablesFor l m.k.vm pt id p)) ∨
        ∃ f, heapEntry l m.k.vm pt id p = some (f, false) ∧ newFrame l m.k.vm = none := by
      rw [not_and_or] at hshort
      rcases hshort with hmap | hcopy
      · exact .inl (Classical.not_imp.mp hmap)
      · push Not at hcopy
        exact .inr hcopy
    have hframe : userFrame l m.k.vm pt (heapVa id p + off) true = none := by
      rw [userFrame_heapVa h.heap]
      rcases hentry with ⟨hfree, -⟩ | ⟨f, hshared, -⟩
      · rw [hfree]
      · rw [hshared]
        rfl
    refine hmade ?_
    rw [HeapMachine.access]
    simp only [h.heap.pagetable, hframe]
    rw [if_neg (fault_starved h.heap hentry)]
  · intro hok
    obtain ⟨hmap, hcopy⟩ := hok pt h.heap.pagetable
    obtain ⟨hacc, -⟩ := access_accessed h p off true hmap fun _ => hcopy
    obtain ⟨f, hframe, -⟩ := hacc.spec h
    rw [hframe]
    exact Option.some_ne_none _

/-! ## The copy of the kernel -/

/-- Bytes of the heap and their addresses. -/
theorem heapVa_of (hx : x < 16 * pageSize) :
    heapVa id (heapPageOf x) + heapByteOf x = heapVa id 0 + x := by
  simp only [heapVa_eq, heapPageOf, heapByteOf, Fin.val_ofNat, Fin.val_zero, pageSize] at hx ⊢
  omega

theorem heapByteOf_va (id : Fin maxAgents) (x : Nat) :
    Fin.ofNat pageSize (heapVa id 0 + x) = heapByteOf x := by
  refine Fin.ext ?_
  simp only [heapVa_eq, heapByteOf, Fin.val_ofNat, Fin.val_zero, pageSize]
  omega

theorem heapOf_injective {y : Nat} (hx : x < 16 * pageSize) (hy : y < 16 * pageSize)
    (hpage : heapPageOf x = heapPageOf y) (hbyte : heapByteOf x = heapByteOf y) : x = y := by
  rw [heapPageOf, heapPageOf, Fin.ext_iff, Fin.val_ofNat, Fin.val_ofNat] at hpage
  rw [heapByteOf, heapByteOf, Fin.ext_iff, Fin.val_ofNat, Fin.val_ofNat] at hbyte
  simp only [pageSize] at hx hy hpage hbyte
  omega

theorem MachineInv.entries (h : MachineInv l id pt extra m) (p : HeapPage) :
    m.entries l id p = heapEntry l m.k.vm pt id p := by
  rw [HeapMachine.entries, h.heap.pagetable]

theorem MachineInv.pageOk_iff (h : MachineInv l id pt extra m) (p : HeapPage) :
    (m.k.heap l id pt).pageOk true p = true ↔ ∃ f, m.entries l id p = some (f, true) := by
  have hperm : (m.k.heap l id pt).perm p = (heapEntry l m.k.vm pt id p).map Prod.snd := rfl
  rw [AgentHeap.pageOk, hperm, h.entries]
  rcases heapEntry l m.k.vm pt id p with _ | ⟨f, w⟩
  · exact iff_of_false Bool.false_ne_true (by simp)
  · cases w with
    | false => exact iff_of_false Bool.false_ne_true (by simp)
    | true => exact iff_of_true rfl ⟨f, rfl⟩

/-- The pages that the check looks at are the pages of the bytes. -/
theorem rangePages_iff {len : Nat} (hlen : len ≠ 0) (hrange : start + len ≤ 16 * pageSize)
    {ok : HeapPage → Prop} :
    (∀ p, pageDown (heapVa id 0 + start) ≤ heapVa id p → heapVa id p < heapVa id 0 + start + len →
        ok p) ↔
      ∀ x, start ≤ x → x < start + len → ok (heapPageOf x) := by
  constructor
  · intro hall x hlow hhigh
    have hva := @heapVa_of id x (by omega)
    refine hall _ ?_ (by omega)
    simp only [heapVa_eq, heapPageOf, Fin.val_ofNat, Fin.val_zero, pageDown, pageSize] at hrange ⊢
    omega
  · intro hall p hlow hhigh
    -- the first byte of the range that lies in the page
    have hp := p.isLt
    simp only [heapVa_eq, Fin.val_zero, pageDown, pageSize] at hlow hhigh hrange
    have hpage : heapPageOf (max start (p * pageSize)) = p := by
      refine Fin.ext ?_
      rw [heapPageOf, Fin.val_ofNat]
      simp only [pageSize]
      omega
    rw [← hpage]
    refine hall _ (Nat.le_max_left _ _) ?_
    simp only [pageSize]
    omega

/-- **The check of the copy**: it passes iff all pages of the range are mapped for writing. -/
theorem copyToUser_ok_iff (h : MachineInv l id pt extra m)
    (hrange : start + src.length ≤ 16 * pageSize) :
    (copyToUser l id m (heapVa id 0 + start) src).1 = src.length ↔
      RangeWritable l id m start src.length := by
  have hne : heapVa id 0 + start ≠ 0 := by
    rw [heapVa_eq]
    omega
  rw [copyToUser, if_neg hne]
  by_cases hempty : src.length = 0
  · rw [if_pos hempty, hempty]
    exact iff_of_true rfl fun x hlow hhigh => absurd hhigh (by omega)
  rw [if_neg hempty]
  simp only [h.heap.pagetable]
  have hcheck : userAccessOk (m.space l pt) (heapVa id 0 + start) src.length true = true ↔
      RangeWritable l id m start src.length := by
    have hpages := @userCheck_heap id true _ _ 64 (heapVa id 0 + start) src.length _
      (fun p => h.heap.userPageOk true p) (by decide) (Nat.le_add_right _ _) (by omega)
    rw [userAccessOk, Bool.and_eq_true, bne_iff_ne, and_iff_right hne]
    show (vmUserCheck l m.k.vm pt (heapVa id 0 + start) src.length true == some 0) = true ↔ _
    rw [beq_iff_eq, vmUserCheck, hpages, or_iff_right hempty]
    simp only [h.pageOk_iff]
    exact rangePages_iff hempty hrange
  by_cases hok : userAccessOk (m.space l pt) (heapVa id 0 + start) src.length true = true
  · rw [hok]
    exact iff_of_true rfl (hcheck.mp hok)
  · rw [Bool.not_eq_true] at hok
    rw [hok] at hcheck ⊢
    refine iff_of_false ?_ fun hall => Bool.false_ne_true (hcheck.mpr hall)
    show efault ≠ (src.length : Int)
    simp only [efault]
    omega

/-! ## The bytes after the copy -/

/-- Byte `x` of the heap, if its page is mapped. -/
def HeapMachine.byteAt (l : Layout) (id : Fin maxAgents) (pt : Nat) (m : HeapMachine) (x : Nat) :
    Option UInt8 :=
  (m.view l id pt (heapPageOf x)).map fun c => c (heapByteOf x)

/-- A load of a mapped page shows its byte. -/
theorem loaded_of_entry (h : MachineInv l id pt extra m)
    (hentry : (m.entries l id (heapPageOf x)).isSome = true) :
    m.loaded l id (heapPageOf x) (heapByteOf x) = m.byteAt l id pt x := by
  obtain ⟨⟨f, w⟩, hf⟩ := Option.isSome_iff_exists.mp hentry
  rw [h.entries] at hf
  have hframe : userFrame l m.k.vm pt (heapVa id (heapPageOf x) + heapByteOf x) false = some f := by
    rw [userFrame_heapVa h.heap, hf]
    rfl
  have hview : m.view l id pt (heapPageOf x) = some (m.data f) := Cow.view_of_entry (w := w) hf
  rw [HeapMachine.loaded, access_direct h.heap.pagetable hframe, HeapMachine.byteAt, hview]
  rfl

/-- What a store to a page that may be written changes. -/
theorem MachineInv.poke (h : MachineInv l id pt extra m) (f : Nat) (off : Fin pageSize)
    (byte : UInt8) : MachineInv l id pt extra (m.poke f off byte) :=
  ⟨h.heap, h.counted⟩

theorem byteAt_poke (h : MachineInv l id pt extra m) {f : Nat}
    (hf : heapEntry l m.k.vm pt id (heapPageOf x) = some (f, true)) (byte : UInt8) {y : Nat}
    (hx : x < 16 * pageSize) (hy : y < 16 * pageSize) :
    (m.poke f (heapByteOf x) byte).byteAt l id pt y =
      if y = x then some byte else m.byteAt l id pt y := by
  have hview : (m.poke f (heapByteOf x) byte).view l id pt =
      update (m.view l id pt) (heapPageOf x)
        (some (update (m.data f) (heapByteOf x) byte)) :=
    Cow.view_write h.exclusive hf _
  have hold : m.view l id pt (heapPageOf x) = some (m.data f) := Cow.view_of_entry (w := true) hf
  rw [HeapMachine.byteAt, hview]
  by_cases hpage : heapPageOf y = heapPageOf x
  · rw [hpage, update_self, Option.map_some]
    by_cases hbyte : heapByteOf y = heapByteOf x
    · rw [if_pos (heapOf_injective hy hx hpage hbyte), hbyte, update_self]
    · have hne : y ≠ x := by
        rintro rfl
        exact hbyte rfl
      rw [if_neg hne, update_of_ne hbyte, HeapMachine.byteAt, hpage, hold]
      rfl
  · have hne : y ≠ x := by
      rintro rfl
      exact hpage rfl
    rw [update_of_ne hpage, if_neg hne]
    rfl

/-- A store of the kernel to a page that may be written. -/
theorem putByte_heap (h : MachineInv l id pt extra m) {f : Nat}
    (hf : heapEntry l m.k.vm pt id (heapPageOf x) = some (f, true)) (hx : x < 16 * pageSize)
    (byte : UInt8) :
    m.putByte l pt (heapVa id 0 + x) byte = m.poke f (heapByteOf x) byte := by
  have hframe : userFrame l m.k.vm pt (heapVa id 0 + x) true = some f := by
    rw [← heapVa_of hx, userFrame_heapVa h.heap, hf]
    rfl
  rw [HeapMachine.putByte, hframe]
  dsimp only
  rw [heapByteOf_va]

/-- **What the copy leaves**: its bytes in the range, and all others as they were. -/
theorem putBytes_heap (src : List UInt8) : ∀ {m : HeapMachine} {start : Nat},
    MachineInv l id pt extra m → start + src.length ≤ 16 * pageSize →
    RangeWritable l id m start src.length →
    (m.putBytes l pt (heapVa id 0 + start) src).k = m.k ∧
      ∀ y, y < 16 * pageSize → (m.putBytes l pt (heapVa id 0 + start) src).byteAt l id pt y =
        if start ≤ y ∧ y < start + src.length then src[y - start]? else m.byteAt l id pt y := by
  induction src with
  | nil =>
    intro m start h hrange hwritable
    refine ⟨rfl, fun y hy => ?_⟩
    rw [if_neg (by rw [List.length_nil]; omega)]
    rfl
  | cons byte src ih =>
    intro m start h hrange hwritable
    rw [List.length_cons] at hrange hwritable ⊢
    obtain ⟨f, hf⟩ := hwritable start (Nat.le_refl _) (by omega)
    rw [h.entries] at hf
    have hstart : start < 16 * pageSize := by omega
    have hnext : userAddr (heapVa id 0 + start) 1 = heapVa id 0 + (start + 1) := by
      have := heapVa_lt id 0
      rw [userAddr, Nat.mod_eq_of_lt]
      · omega
      · simp only [pageSize] at hstart
        omega
    rw [HeapMachine.putBytes, putByte_heap h hf hstart, hnext]
    -- the store changes no entry, so the rest of the range may still be written
    obtain ⟨hk, hbytes⟩ := ih (h.poke f (heapByteOf start) byte) (by omega : start + 1 + src.length ≤ 16 * pageSize)
      fun x hlow hhigh => hwritable x (by omega) (by omega)
    refine ⟨hk, fun y hy => ?_⟩
    rw [hbytes y hy, byteAt_poke h hf byte hstart hy]
    by_cases hfirst : y = start
    · rw [if_neg (by omega), if_pos hfirst, if_pos (by omega), hfirst, Nat.sub_self,
        List.getElem?_cons_zero]
    · rw [if_neg hfirst]
      by_cases hrest : start + 1 ≤ y ∧ y < start + 1 + src.length
      · rw [if_pos hrest, if_pos (by omega),
          show y - start = y - (start + 1) + 1 by omega, List.getElem?_cons_succ]
      · rw [if_neg hrest, if_neg (by omega)]

/-- **A copy that succeeds is read back by the user.** -/
theorem copyToUser_reads (h : MachineInv l id pt extra m)
    (hrange : start + src.length ≤ 16 * pageSize)
    (hwritable : RangeWritable l id m start src.length) :
    UserReads l id (copyToUser l id m (heapVa id 0 + start) src).2 start src := by
  intro i hi
  have hne : heapVa id 0 + start ≠ 0 := by
    rw [heapVa_eq]
    omega
  have hcopied : (copyToUser l id m (heapVa id 0 + start) src).2 =
      m.putBytes l pt (heapVa id 0 + start) src := by
    have hok := (copyToUser_ok_iff h hrange).mpr hwritable
    rw [copyToUser, if_neg hne, if_neg (by omega)] at hok ⊢
    simp only [h.heap.pagetable] at hok ⊢
    by_cases hcheck : (!userAccessOk (m.space l pt) (heapVa id 0 + start) src.length true) = true
    · rw [if_pos hcheck] at hok
      simp only [efault] at hok
      omega
    · rw [if_neg hcheck]
  obtain ⟨hk, hbytes⟩ := putBytes_heap src h hrange hwritable
  have hinv : MachineInv l id pt extra (m.putBytes l pt (heapVa id 0 + start) src) :=
    ⟨by rw [hk]; exact h.heap, by rw [hk]; exact h.counted⟩
  obtain ⟨f, hf⟩ := hwritable (start + i) (Nat.le_add_right _ _) (by omega)
  rw [hcopied, loaded_of_entry hinv, hbytes _ (by omega), if_pos (by omega), Nat.add_sub_cancel_left]
  rw [hinv.entries, hk, ← h.entries, hf]
  rfl

/-- Pages that may be written need no memory for a store. -/
theorem RangeWritable.stores (h : MachineInv l id pt extra m) {len : Nat}
    (hwritable : RangeWritable l id m start len) : UserStores l id m start len := by
  intro x hlow hhigh
  obtain ⟨f, hf⟩ := hwritable x hlow hhigh
  rw [h.entries] at hf
  rw [access_store_iff h _ _ 0]
  intro pt' hpt'
  obtain rfl := Option.some.inj (h.heap.pagetable.symm.trans hpt')
  refine ⟨fun hnone => ?_, fun g hshared => ?_⟩
  · rw [hf] at hnone
    cases hnone
  · rw [hf] at hshared
    cases hshared

/-- The kernel and the user on a range of a sound heap. -/
theorem MachineInv.copyAgrees_iff (h : MachineInv l id pt extra m)
    (hrange : start + src.length ≤ 16 * pageSize) :
    CopyAgrees l id m start src ↔
      RangeWritable l id m start src.length ∨ RangeStarved l id m start src.length := by
  have hstores : ¬ UserStores l id m start src.length ↔ RangeStarved l id m start src.length := by
    rw [UserStores, RangeStarved]
    push Not
    refine exists_congr fun x => and_congr_right fun _ => and_congr_right fun _ => ?_
    rw [← access_store_iff h, not_not]
  rw [CopyAgrees, copyToUser_ok_iff h hrange]
  constructor
  · rintro ⟨hiff, -⟩
    by_cases hwritable : RangeWritable l id m start src.length
    · exact .inl hwritable
    · exact .inr (hstores.mp fun hok => hwritable (hiff.mpr hok))
  · intro hcases
    refine ⟨⟨fun hwritable => hwritable.stores h, fun hok => ?_⟩, copyToUser_reads h hrange⟩
    exact hcases.resolve_right fun hstarved => hstores.mpr hstarved hok

/-- **`copy_to_user` agrees with the user's stores** in a heap that an agent has reached by any
operations, iff the range is mapped for writing or the user cannot store there either. -/
theorem copyToUser_agrees_iff (l : Layout) (mem : Nat → Fin 512 → Nat)
    (hgig : hasFlag ((vmInit l mem).mem l.kernelPt 1) pteV = false) (ops : List VmOp)
    (id : Fin maxAgents) (file : Option ElfFile) (k : VmKernel)
    (hstart : Started l ((vmBoot l mem).run l ops) id file k) (data : Nat → PageBytes)
    (es : List HeapEvent) (m : HeapMachine)
    (hrun : m = Runs.run (HeapMachine.step l id) ⟨k, data⟩ es) (start : Nat) (src : List UInt8)
    (hrange : start + src.length ≤ 16 * pageSize) :
    CopyAgrees l id m start src ↔
      RangeWritable l id m start src.length ∨ RangeStarved l id m start src.length := by
  obtain ⟨place, hinv⟩ := treeInv_run ops (treeInv_vmBoot l mem hgig)
  obtain ⟨pt, extra, hm, -⟩ := machineInv_started hinv hstart data
  have hreached : MachineInv l id pt extra m := by
    have hstep : ∀ m e, MachineInv l id pt extra m → MachineInv l id pt extra (m.step l id e) :=
      fun m e h => machineInv_step h e
    rw [hrun]
    exact Runs.run_invariant hstep hm es
  exact hreached.copyAgrees_iff hrange

/-- Agent 1 after it has mapped its first heap page. -/
def heapMapped : HeapMachine := HeapMachine.step virtLayout 1 ⟨heapCreated, fun _ _ => 0⟩ (.map 0)

/-- Both agree on the page that the agent has mapped. -/
theorem copyToUser_agrees_mapped : CopyAgrees virtLayout 1 heapMapped 0 [7] := by
  have hentry : (heapMapped.entries virtLayout 1 0).map Prod.snd = some true := by decide +kernel
  refine (copyToUser_agrees_iff virtLayout _ virtLayout_gigabyte [] 1 none _ started_heapCreated _ [.map 0] heapMapped rfl 0 [7]
    (by decide)).mpr (.inl fun x _ hx => ?_)
  obtain rfl : x = 0 := by
    rw [List.length_singleton] at hx
    omega
  obtain ⟨⟨f, w⟩, hf, rfl⟩ := Option.map_eq_some_iff.mp hentry
  exact ⟨f, hf⟩

/-- The first heap page of a new agent is not mapped. A store of the agent is served, and
`copy_to_user` returns `EFAULT`. -/
theorem not_copyToUser_agrees :
    Started virtLayout ((vmBoot virtLayout fun _ _ => 0).run virtLayout []) 1 none heapCreated ∧
    (copyToUser virtLayout 1 ⟨heapCreated, fun _ _ => 0⟩ (heapVa 1 0) [7]).1 = efault ∧
    ((⟨heapCreated, fun _ _ => 0⟩ : HeapMachine).access virtLayout 1 0 0 true).1 ≠ none ∧
    ¬ CopyAgrees virtLayout 1 ⟨heapCreated, fun _ _ => 0⟩ 0 [7] := by
  have hcopy : (copyToUser virtLayout 1 ⟨heapCreated, fun _ _ => 0⟩ (heapVa 1 0) [7]).1 = efault := by
    decide +kernel
  have hstore : ((⟨heapCreated, fun _ _ => 0⟩ : HeapMachine).access virtLayout 1 0 0 true).1 ≠
      none := by
    decide +kernel
  refine ⟨?_, hcopy, hstore, fun h => ?_⟩
  · rw [vmBoot_virtLayout]
    refine Prod.ext ?_ rfl
    show (agentSetupStack virtLayout virtKernel 1).1 = true
    decide +kernel
  · have hmade : UserStores virtLayout 1 ⟨heapCreated, fun _ _ => 0⟩ 0 1 := by
      intro x _ hx
      obtain rfl : x = 0 := by omega
      exact hstore
    have hok := h.1.mpr hmade
    rw [Nat.add_zero, hcopy] at hok
    exact absurd hok (by decide)

end OpenAgentOS
