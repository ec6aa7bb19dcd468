import OpenAgentOS.Vm.HeapPages

/-!
# The RISC-V heap functions

Each heap function of vm.c, on the page table of an agent with sound heap pages, does what
the machine of `HeapSpec` does, as long as tables can be had for the pages it maps.

- `VmKernel.heap`: the heap that a page table and `heap_mapped` stand for.
- `HeapInv`: the agent has its root and its heap fields, and its heap pages are sound.
- `HeapRefines`: a call answers and leaves the heap as the abstract one does, and keeps the
  invariant.
- `refines_map`, `refines_fault`, `refines_cow`: the functions.
-/

namespace OpenAgentOS

open Function

/-- The heap of the agent with root `pt`. -/
def VmKernel.heap (l : Layout) (id : Fin maxAgents) (pt : Nat) (k : VmKernel) : AgentHeap Nat where
  entry := heapEntry l k.vm pt id
  mapped := (k.agents id).heapMapped

/-- The frame that `kalloc_page` would hand out. -/
def newFrame (l : Layout) (vm : Vm) : Option Nat :=
  if (kallocPage l vm).1 = 0 then none else some ((kallocPage l vm).1 / pageSize)

/-- Tables can be had for a page. -/
def TablesFor (l : Layout) (vm : Vm) (pt : Nat) (id : Fin maxAgents) (p : HeapPage) : Prop :=
  (vmWalk l vm pt (heapVa id p) true).1 ≠ none

/-- The heap page of an address. -/
def heapPageAt (id : Fin maxAgents) (va : Nat) : Option HeapPage :=
  if h : heapVa id 0 ≤ va ∧ va < heapVa id 0 + 16 * pageSize then
    some ⟨(va - heapVa id 0) / pageSize, by simp only [pageSize] at h ⊢; omega⟩
  else none

/-- The heap page with a number. -/
def heapPageOff (off : Int) : Option HeapPage :=
  if h : 0 ≤ off ∧ off < 16 then some ⟨off.toNat, by omega⟩ else none

/-- The agent has a root and a heap, whose pages are sound. -/
structure HeapInv (l : Layout) (id : Fin maxAgents) (pt : Nat) (k : VmKernel) : Prop where
  pagetable : (k.agents id).pagetable = some pt
  base : (k.agents id).heapBase = heapVa id 0
  max : (k.agents id).heapMaxPages = 16
  tables : ∃ place, HeapTables l id pt k.vm place

variable {l : Layout} {id : Fin maxAgents} {pt va : Nat} {k k' : VmKernel} {p : HeapPage}
  {vm vm' : Vm} {place : Places}

/-- A call has answered and left the heap as the abstract one has. -/
structure HeapRefines (l : Layout) (id : Fin maxAgents) (pt : Nat) (ok : Prop) (k' : VmKernel)
    (out : Bool × AgentHeap Nat) : Prop where
  answer : ok ↔ out.1 = true
  heap : k'.heap l id pt = out.2
  inv : HeapInv l id pt k'

theorem HeapRefines.decided {P : Prop} [Decidable P] {out : Bool × AgentHeap Nat}
    (h : HeapRefines l id pt P k' out) : HeapRefines l id pt (decide P = true) k' out :=
  ⟨by rw [decide_eq_true_iff]; exact h.answer, h.heap, h.inv⟩

theorem minus_one_ne_zero : ¬ (-1 : Int) = 0 := by decide

/-! ## Addresses -/

theorem heapPageAt_some (h : heapPageAt id va = some p) :
    pageDown va = heapVa id p ∧ heapVa id 0 ≤ va ∧ va < heapVa id 0 + 16 * pageSize := by
  rw [heapPageAt] at h
  by_cases hrange : heapVa id 0 ≤ va ∧ va < heapVa id 0 + 16 * pageSize
  · rw [dif_pos hrange] at h
    obtain rfl := Option.some.inj h
    refine ⟨?_, hrange⟩
    rw [heapVa_eq, pageSize] at hrange
    rw [heapVa_eq]
    simp only [pageDown, heapVa_eq, pageSize, Fin.val_zero] at hrange ⊢
    omega
  · rw [dif_neg hrange] at h
    cases h

theorem heapPageAt_none (h : heapPageAt id va = none) :
    va < heapVa id 0 ∨ heapVa id 0 + 16 * pageSize ≤ va := by
  rw [heapPageAt] at h
  by_cases hrange : heapVa id 0 ≤ va ∧ va < heapVa id 0 + 16 * pageSize
  · rw [dif_pos hrange] at h
    exact absurd h nofun
  · omega

theorem heapPageOff_some {off : Int} (h : heapPageOff off = some p) :
    (0 ≤ off ∧ off < 16) ∧ off = ((p : Nat) : Int) := by
  rw [heapPageOff] at h
  by_cases hrange : 0 ≤ off ∧ off < 16
  · rw [dif_pos hrange] at h
    obtain rfl := Option.some.inj h
    exact ⟨hrange, (Int.toNat_of_nonneg hrange.1).symm⟩
  · rw [dif_neg hrange] at h
    exact absurd h nofun

theorem heapPageOff_none {off : Int} (h : heapPageOff off = none) :
    off < 0 ∨ ((16 : Nat) : Int) ≤ off := by
  rw [heapPageOff] at h
  by_cases hrange : 0 ≤ off ∧ off < 16
  · rw [dif_pos hrange] at h
    exact absurd h nofun
  · omega

/-- The address of a page by its number. -/
theorem heapVa_natCast (id : Fin maxAgents) (p : HeapPage) :
    heapVa id 0 + ((p : Nat) : Int).toNat * pageSize = heapVa id p := by
  simp only [heapVa_eq, pageSize, Fin.val_zero, Int.toNat_natCast]
  omega

theorem natCast_in_heap (p : HeapPage) :
    ¬ (((p : Nat) : Int) < 0 ∨ ((16 : Nat) : Int) ≤ ((p : Nat) : Int)) := by
  have := p.isLt
  omega

/-! ## Mapping a page -/

theorem walkLevel_setHeap (l : Layout) (alloc : Bool) (vm : Vm) (pt : Nat) (i : Fin 512)
    (heapPtr : Nat) :
    walkLevel l alloc (vm.setHeap heapPtr) pt i =
      ((walkLevel l alloc vm pt i).1, (walkLevel l alloc vm pt i).2.setHeap heapPtr) := by
  have hmem : (vm.setHeap heapPtr).mem = vm.mem := rfl
  have hnext : (vm.setHeap heapPtr).ptNext = vm.ptNext := rfl
  simp only [walkLevel, ptAlloc, hmem, hnext]
  split_ifs
  · rfl
  · rfl
  · rfl
  · rfl

/-- Walks do not look at the kernel heap. -/
theorem walkFrom_setHeap (l : Layout) (alloc : Bool) (va heapPtr n : Nat) : ∀ vm pt,
    walkFrom l alloc va n (vm.setHeap heapPtr) pt =
      ((walkFrom l alloc va n vm pt).1, (walkFrom l alloc va n vm pt).2.setHeap heapPtr) := by
  induction n with
  | zero => exact fun _ _ => rfl
  | succ n ih =>
    intro vm pt
    rw [walkFrom, walkFrom, walkLevel_setHeap]
    rcases walkLevel l alloc vm pt (vpn (n + 1) va) with ⟨_ | child, vm'⟩
    · rfl
    · exact ih vm' child

theorem TablesFor.setHeap (h : TablesFor l vm pt id p) (heapPtr : Nat) :
    TablesFor l (vm.setHeap heapPtr) pt id p := by
  rw [TablesFor, vmWalk, walkFrom_setHeap]
  exact h

/-- **A heap page gets a new frame.** -/
theorem HeapTables.mapHeapPage (h : HeapTables l id pt vm place) (hpage : (kallocPage l vm).1 ≠ 0)
    (hfree : heapEntry l vm pt id p = none) (htables : TablesFor l vm pt id p) :
    (vmMapPage l (kallocPage l vm).2 pt (heapVa id p) (kallocPage l vm).1
        (pteU ||| pteR ||| pteW)).1 = 0 ∧
      (∃ place', HeapTables l id pt (vmMapPage l (kallocPage l vm).2 pt (heapVa id p)
        (kallocPage l vm).1 (pteU ||| pteR ||| pteW)).2 place') ∧
      heapEntry l (vmMapPage l (kallocPage l vm).2 pt (heapVa id p) (kallocPage l vm).1
          (pteU ||| pteR ||| pteW)).2 pt id =
        update (heapEntry l vm pt id) p (some ((kallocPage l vm).1 / pageSize, true)) := by
  have hflags : UserFlags ((pteU ||| pteR ||| pteW) ||| pteV ||| pteStd) :=
    ⟨by decide, by decide, by decide, by decide⟩
  obtain ⟨haligned, hle, hheap⟩ := kallocPage_pos hpage
  obtain ⟨place', htables', hmapped⟩ := h.mapFrame hpage hflags (heapVa id p)
  have hrc : (vmMapPage l (kallocPage l vm).2 pt (heapVa id p) (kallocPage l vm).1
      (pteU ||| pteR ||| pteW)).1 = 0 := by
    rw [hheap]
    refine (h.tree.setHeap _).vmMapPage_ok h.root (heapVa_lt id p)
      ⟨heapVa_mod id p, haligned⟩ ?_ (htables.setHeap _) _
    rw [leafFrom_setHeap]
    exact pteEntry_eq_none.mp hfree
  refine ⟨hrc, ⟨place', htables'⟩, ?_⟩
  have hmod : heapVa id p % 2 ^ 39 = heapVa id p := Nat.mod_eq_of_lt (heapVa_lt id p)
  cases hmapped with
  | same _ hother => exact absurd (by rw [hmod]) (hother hrc p)
  | mapped q _ hq _ hleaf =>
    rw [hmod] at hq
    obtain rfl := heapVa_page_injective hq
    show pteEntry ∘ heapLeaf l _ pt id = _
    rw [hleaf, comp_update, mappedEntry, pteEntry_mkPte hflags.lt hflags.valid]
    rfl

section Map

variable (hinv : HeapInv l id pt k)

include hinv

/-- The address check of the heap functions. -/
theorem HeapInv.range :
    (va < (k.agents id).heapBase ∨
      (k.agents id).heapBase + (k.agents id).heapMaxPages * pageSize ≤ va) ↔
        heapPageAt id va = none := by
  rw [hinv.base, hinv.max]
  constructor
  · intro hrange
    rw [heapPageAt, dif_neg (by omega)]
  · exact heapPageAt_none

theorem HeapInv.refused {ok : Prop} (hok : ¬ ok) :
    HeapRefines l id pt ok k (false, k.heap l id pt) :=
  ⟨iff_of_false hok nofun, rfl, hinv⟩

/-- Memory was taken from the kernel heap, and nothing else has happened. -/
theorem HeapInv.setHeap {ok : Prop} (hok : ¬ ok) {heapPtr : Nat} (hle : k.vm.heapPtr ≤ heapPtr) :
    HeapRefines l id pt ok { k with vm := k.vm.setHeap heapPtr } (false, k.heap l id pt) := by
  obtain ⟨place, htables⟩ := hinv.tables
  refine ⟨iff_of_false hok nofun, ?_, hinv.pagetable, hinv.base, hinv.max, ⟨place, htables.setHeap hle⟩⟩
  rw [VmKernel.heap, VmKernel.heap]
  exact congrArg (AgentHeap.mk · _) (congrArg (pteEntry ∘ ·) (heapLeaf_setHeap ..))

/-- **`vm_heap_map_page`.** -/
theorem refines_map (va : Nat) (htables : ∀ p, heapPageAt id va = some p →
      heapEntry l k.vm pt id p = none → TablesFor l k.vm pt id p) :
    HeapRefines l id pt ((vmHeapMapPage l k id va).1 = 0) (vmHeapMapPage l k id va).2
      ((k.heap l id pt).call (newFrame l k.vm) (.map (heapPageAt id va))) := by
  rw [vmHeapMapPage]
  simp only [hinv.pagetable]
  cases hva : heapPageAt id va with
  | none =>
    rw [if_pos (hinv.range.mpr hva)]
    exact hinv.refused minus_one_ne_zero
  | some p =>
    rw [if_neg (by rw [hinv.range, hva]; exact Option.some_ne_none _)]
    obtain ⟨hpage, -, -⟩ := heapPageAt_some hva
    rw [hpage, vmPageMapped_heapVa]
    show HeapRefines l id pt _ _ ((k.heap l id pt).mapPage p (newFrame l k.vm))
    unfold AgentHeap.mapPage
    have hentry : (k.heap l id pt).entry p = heapEntry l k.vm pt id p := rfl
    have hcount : (k.heap l id pt).mapped = (k.agents id).heapMapped := rfl
    rw [hentry, hcount, hinv.max]
    by_cases hmapped : (heapEntry l k.vm pt id p).isSome = true
    · rw [if_pos hmapped, if_pos hmapped]
      exact ⟨iff_of_true rfl rfl, rfl, hinv⟩
    rw [if_neg hmapped, if_neg hmapped]
    by_cases hfull : 16 ≤ (k.agents id).heapMapped
    · rw [if_pos hfull, if_pos hfull]
      exact hinv.refused minus_one_ne_zero
    rw [if_neg hfull, if_neg hfull, newFrame]
    by_cases hnone : (kallocPage l k.vm).1 = 0
    · obtain ⟨heapPtr, hle, hheap⟩ := kallocPage_le l k.vm
      rw [if_pos hnone, if_pos hnone, hheap]
      exact hinv.setHeap minus_one_ne_zero hle
    rw [if_neg hnone, if_neg hnone]
    obtain ⟨place, hheap⟩ := hinv.tables
    have hfree := Option.not_isSome_iff_eq_none.mp hmapped
    obtain ⟨hrc, htree, hupdate⟩ := hheap.mapHeapPage hnone hfree (htables p hva hfree)
    rw [if_neg (by rw [hrc]; exact fun h => h rfl)]
    refine ⟨iff_of_true rfl rfl, ?_, ?_, ?_, ?_, htree⟩
    · rw [VmKernel.heap]
      simp only [VmKernel.setAgent_vm, VmKernel.setAgent_self]
      rw [hupdate]
      rfl
    · simp only [VmKernel.setAgent_self]
    · simp only [VmKernel.setAgent_self, hinv.base]
    · simp only [VmKernel.setAgent_self]

/-! ## Faults -/

/-- Writing the entry of a page that is mapped, with a new frame. -/
theorem HeapInv.entry_write {table : Nat} {i : Fin 512} {f heapPtr flags : Nat}
    (hslot : (vmWalk l k.vm pt (heapVa id p) false).1 = some (table, i))
    (hflags : UserFlags flags) (hf : k.vm.heapPtr ≤ f * pageSize)
    (hend : (f + 1) * pageSize ≤ heapPtr) :
    (∃ place, HeapTables l id pt ((k.vm.setHeap heapPtr).write table i (mkPte f flags)) place) ∧
      heapEntry l ((k.vm.setHeap heapPtr).write table i (mkPte f flags)) pt id =
        update (heapEntry l k.vm pt id) p (some (f, hasFlag flags pteW)) := by
  obtain ⟨place, htables⟩ := hinv.tables
  have hslot' : (vmWalk l (k.vm.setHeap heapPtr) pt (heapVa id p) false).1 = some (table, i) := by
    rw [vmWalk, walkFrom_setHeap]
    exact hslot
  have hleaf := (htables.tree.setHeap heapPtr).heapLeaf_write htables.root hslot' (mkPte f flags)
  rw [heapLeaf_setHeap] at hleaf
  obtain ⟨htable, -⟩ := htables.tree.vmWalk_place htables.root hslot
  refine ⟨⟨place, (htables.tree.setHeap heapPtr).write htable i _, htables.root, ?_⟩, ?_⟩
  · rw [hleaf]
    exact htables.sound.put hf hend hflags p
  · show pteEntry ∘ heapLeaf l _ pt id = _
    rw [hleaf, comp_update, pteEntry_mkPte hflags.lt hflags.valid]
    rfl

/-- `vm_cow_break`, on a page that may not be written. -/
theorem refines_cowBreak {f : Nat} (hentry : heapEntry l k.vm pt id p = some (f, false)) :
    HeapRefines l id pt ((vmCowBreak l k pt (heapVa id p)).1 = 0)
      (vmCowBreak l k pt (heapVa id p)).2
      ((k.heap l id pt).fault p true (newFrame l k.vm)) := by
  have hentry' : (k.heap l id pt).entry p = some (f, false) := hentry
  unfold AgentHeap.fault
  rw [hentry']
  dsimp only
  rw [if_pos (by decide)]
  obtain ⟨table, i, hslot, hword⟩ := walk_of_heapEntry hentry
  obtain ⟨hvalid, -, hwrite⟩ := pteEntry_eq_some hentry
  rw [vmCowBreak, pageDown_heapVa, hslot]
  dsimp only
  rw [hword, hvalid, hwrite, newFrame, if_neg (by decide), if_neg (by decide)]
  by_cases hnone : (kallocPage l k.vm).1 = 0
  · obtain ⟨heapPtr, hle, hheap⟩ := kallocPage_le l k.vm
    rw [if_pos hnone, if_pos hnone, hheap]
    exact hinv.setHeap minus_one_ne_zero hle
  · obtain ⟨-, -, hheap⟩ := kallocPage_pos hnone
    obtain ⟨hf, hend⟩ := frame_of_kallocPage hnone
    have hflags : UserFlags (pteU ||| pteR ||| pteW ||| pteV ||| pteStd) :=
      ⟨by decide, by decide, by decide, by decide⟩
    obtain ⟨htables, hupdate⟩ := hinv.entry_write hslot hflags hf (Nat.le_of_eq hend)
    rw [if_neg hnone, if_neg hnone, hheap]
    refine ⟨iff_of_true rfl rfl, ?_, hinv.pagetable, hinv.base, hinv.max, htables⟩
    exact congrArg (AgentHeap.mk · _) hupdate

/-- **`vm_heap_fault`.** -/
theorem refines_fault (va : Nat) (write : Bool) (htables : ∀ p, heapPageAt id va = some p →
      heapEntry l k.vm pt id p = none → TablesFor l k.vm pt id p) :
    HeapRefines l id pt ((vmHeapFault l k id va write).1 = true) (vmHeapFault l k id va write).2
      ((k.heap l id pt).call (newFrame l k.vm) (.fault (heapPageAt id va) write)) := by
  rw [vmHeapFault]
  simp only [hinv.pagetable]
  cases hva : heapPageAt id va with
  | none =>
    rw [if_pos (hinv.range.mpr hva)]
    exact hinv.refused Bool.false_ne_true
  | some p =>
    rw [if_neg (by rw [hinv.range, hva]; exact Option.some_ne_none _)]
    obtain ⟨hpage, -, -⟩ := heapPageAt_some hva
    have hmap := refines_map hinv va htables
    rw [hva] at hmap
    rw [hpage, vmPageMapped_heapVa]
    show HeapRefines l id pt _ _ ((k.heap l id pt).fault p write (newFrame l k.vm))
    cases hp : heapEntry l k.vm pt id p with
    | none =>
      rw [if_neg (by decide), (k.heap l id pt).fault_none hp]
      exact hmap.decided
    | some e =>
      obtain ⟨f, w⟩ := e
      obtain ⟨table, i, hslot, hword⟩ := walk_of_heapEntry hp
      obtain ⟨hvalid, -, hwrite⟩ := pteEntry_eq_some hp
      rw [hslot]
      dsimp only [Option.isSome_some]
      rw [if_pos rfl, hword, hvalid, hwrite]
      by_cases hcow : (write && !w) = true
      · -- a store to a page that may not be written
        obtain ⟨rfl, hw⟩ := Bool.and_eq_true_iff.mp hcow
        obtain rfl : w = false := by simpa using hw
        rw [if_neg (by decide), if_pos (by decide)]
        exact (refines_cowBreak hinv hp).decided
      · rw [(k.heap l id pt).fault_some hp hcow]
        cases write with
        | false => exact hinv.refused Bool.false_ne_true
        | true =>
          obtain rfl : w = true := by simpa using hcow
          exact hinv.refused Bool.false_ne_true

end Map

/-! ## Sharing a page -/

/-- A walk that allocates keeps the entries that were followed before. -/
theorem PageTree.walk_alloc_keeps {q level pre : Nat} {i : Fin 512} (va n : Nat) :
    ∀ (vm : Vm) (place : Places) (pt : Nat), PageTree l vm place →
      place pt = some (n, tablePrefix n va) → place q = some (level + 1, pre) →
      hasFlag (vm.mem q i) pteV = true → (walkFrom l true va n vm pt).2.mem q i = vm.mem q i := by
  induction n with
  | zero => exact fun _ _ _ _ _ _ _ => rfl
  | succ n ih =>
    intro vm place pt h hpt hq hvalid
    by_cases hv : hasFlag (vm.mem pt (vpn (n + 1) va)) pteV = true
    · rw [walkFrom, walkLevel, if_pos hv]
      exact ih vm place _ h (h.child hpt hv) hq hvalid
    by_cases hpool : ptPages ≤ vm.ptNext
    · rw [walkFrom, walkLevel, if_neg hv, if_pos rfl, ptAlloc, if_pos hpool]
    have hpool' := Nat.not_le.mp hpool
    rw [Bool.not_eq_true] at hv
    rw [walkFrom, walkLevel_linked hv hpool']
    dsimp only
    have hlink := h.grows_linked hpool' hpt hv
    have hnew : update place (l.poolPage vm.ptNext)
        (some (n, tablePrefix (n + 1) va * 512 + vpn (n + 1) va)) (l.poolPage vm.ptNext) =
        some (n, tablePrefix n va) := by
      rw [update_self, tablePrefix_succ n va]
    -- the entry that gets the new table was not valid
    have hsame : (OpenAgentOS.linked l vm pt (vpn (n + 1) va)).mem q i = vm.mem q i := by
      by_cases hqpt : q = pt
      · subst hqpt
        have hi : i ≠ vpn (n + 1) va := by
          rintro rfl
          rw [hv] at hvalid
          exact absurd hvalid (by decide)
        rw [linked_mem_self (h.ne_next hpool' hpt), update_of_ne hi]
      · rw [linked_mem_of_ne hqpt (h.ne_next hpool' hq)]
    rw [ih _ _ _ hlink.tree hnew (hlink.keeps _ _ hq) (by rw [hsame]; exact hvalid), hsame]

theorem PageTree.vmMapPage_keeps (h : PageTree l vm place) (hroot : place pt = some (2, 0))
    {q level pre : Nat} {i : Fin 512} (hq : place q = some (level + 1, pre))
    (hvalid : hasFlag (vm.mem q i) pteV = true) (va pa perm : Nat) :
    (vmMapPage l vm pt va pa perm).2.mem q i = vm.mem q i := by
  have hplace := root_place hroot va
  rw [← vmMapPage_mod, vmMapPage, vmWalk]
  have hkeeps := PageTree.walk_alloc_keeps (va % 2 ^ 39) 2 vm place pt h hplace hq hvalid
  obtain ⟨place', hgrows, -, hwalk⟩ := PageTree.walk_alloc (va % 2 ^ 39) 2 vm place pt h hplace
  rcases hout : walkFrom l true (va % 2 ^ 39) 2 vm pt with ⟨_ | ⟨table, j⟩, vm'⟩
  · rw [hout] at hkeeps
    split_ifs
    · rfl
    · exact hkeeps
  · rw [hout] at hgrows hwalk hkeeps
    obtain ⟨htable, -⟩ := hgrows.tree.walk_place 2 pt (hgrows.keeps pt _ hplace) (hwalk _ rfl)
    have hne : q ≠ table := by
      rintro rfl
      exact absurd ((hgrows.keeps _ _ hq).symm.trans htable) (by simp)
    dsimp only
    split_ifs
    · rfl
    · exact hkeeps
    · rw [Vm.write_of_ne hne]
      exact hkeeps

/-- Walks end where they have ended, if the entries on the way are the same. -/
theorem PageTree.walkFrom_keeps (h : PageTree l vm place)
    (hkeep : ∀ q level pre i, place q = some (level + 1, pre) → hasFlag (vm.mem q i) pteV = true →
      vm'.mem q i = vm.mem q i) {slot : Nat × Fin 512} (n : Nat) :
    ∀ q, place q = some (n, tablePrefix n va) → (walkFrom l false va n vm q).1 = some slot →
      (walkFrom l false va n vm' q).1 = some slot := by
  induction n with
  | zero => exact fun _ _ hslot => hslot
  | succ n ih =>
    intro q hq hslot
    rw [walkFrom_false_succ] at hslot
    by_cases hv : hasFlag (vm.mem q (vpn (n + 1) va)) pteV = true
    · rw [if_pos hv] at hslot
      rw [walkFrom_false_succ, hkeep q n _ _ hq hv, if_pos hv]
      exact ih _ (h.child hq hv) hslot
    · rw [if_neg hv] at hslot
      exact absurd hslot nofun

/-- **The end of `vm_heap_cow_alias`**: both pages become read-only. -/
theorem PageTree.heapLeaf_cowProtect (h : PageTree l vm place) (hroot : place pt = some (2, 0))
    {src dst : HeapPage} {slot : Nat × Fin 512} {f : Nat} (hne : dst ≠ src)
    (hslot : (vmWalk l vm pt (heapVa id src) false).1 = some slot)
    (hdst : (heapEntry l vm pt id dst).isSome = true) :
    (cowProtect l vm pt (heapVa id dst) slot f).1 = heapVa id dst ∧
      PageTree l (cowProtect l vm pt (heapVa id dst) slot f).2 place ∧
      (cowProtect l vm pt (heapVa id dst) slot f).2.heapPtr = vm.heapPtr ∧
      heapLeaf l (cowProtect l vm pt (heapVa id dst) slot f).2 pt id =
        update (update (heapLeaf l vm pt id) src (HeapSound.readOnly f)) dst
          (HeapSound.readOnly f) := by
  obtain ⟨hsrcTable, -⟩ := h.vmWalk_place hroot hslot
  obtain ⟨⟨g, w⟩, hg⟩ := Option.isSome_iff_exists.mp hdst
  obtain ⟨table, i, hdstSlot, hword⟩ := walk_of_heapEntry hg
  obtain ⟨hdstTable, -⟩ := h.vmWalk_place hroot hdstSlot
  have htree := h.write hsrcTable slot.2 (HeapSound.readOnly f)
  have hleaf := h.heapLeaf_write hroot hslot (HeapSound.readOnly f)
  -- the walk to `dst` is the same after the entry of `src` has changed
  have hdstSlot' : (vmWalk l (vm.write slot.1 slot.2 (HeapSound.readOnly f)) pt (heapVa id dst)
      false).1 = some (table, i) := by
    rw [← hdstSlot]
    exact h.walkFrom_write hsrcTable slot.2 _ 2 pt (heapVa_place hroot id dst)
  have hvalid : hasFlag ((vm.write slot.1 slot.2 (HeapSound.readOnly f)).mem table i) pteV = true := by
    have hdstLeaf : heapLeaf l (vm.write slot.1 slot.2 (HeapSound.readOnly f)) pt id dst =
        (vm.write slot.1 slot.2 (HeapSound.readOnly f)).mem table i := by
      rw [heapLeaf, leafFrom]
      rw [vmWalk] at hdstSlot'
      rw [hdstSlot']
    rw [← hdstLeaf, hleaf, update_of_ne hne]
    exact (pteEntry_eq_some hg).1
  have hresult : cowProtect l vm pt (heapVa id dst) slot f = ((heapVa id dst : Int),
      (vm.write slot.1 slot.2 (HeapSound.readOnly f)).write table i (HeapSound.readOnly f)) := by
    rw [cowProtect, ← HeapSound.readOnly, hdstSlot']
    dsimp only
    rw [hvalid]
    rfl
  rw [hresult]
  refine ⟨rfl, htree.write hdstTable i _, rfl, ?_⟩
  rw [htree.heapLeaf_write hroot hdstSlot' (HeapSound.readOnly f), hleaf]

/-- The entries after both pages have become read-only. -/
theorem heapEntry_share {src dst : HeapPage} {f : Nat}
    (hleaf : heapLeaf l vm' pt id = update
      (update (heapLeaf l vm pt id) src (HeapSound.readOnly f)) dst
        (HeapSound.readOnly f)) (n : Nat) :
    heapEntry l vm' pt id = AgentHeap.share ⟨heapEntry l vm pt id, n⟩ dst src f := by
  show pteEntry ∘ heapLeaf l vm' pt id = _
  rw [hleaf, comp_update, comp_update, HeapSound.pteEntry_readOnly]
  rfl

section Cow

variable {src dst : HeapPage} {table f : Nat} {i : Fin 512} {w : Bool} (hinv : HeapInv l id pt k)
  (hne : dst ≠ src) (hslot : (vmWalk l k.vm pt (heapVa id src) false).1 = some (table, i))
  (hsrc : heapEntry l k.vm pt id src = some (f, w))

include hinv hne hslot hsrc

/-- The target shares the frame already. -/
theorem refines_cow_again (hdst : (heapEntry l k.vm pt id dst).isSome = true) :
    HeapRefines l id pt (0 ≤ (cowProtect l k.vm pt (heapVa id dst) (table, i) f).1)
      { k with vm := (cowProtect l k.vm pt (heapVa id dst) (table, i) f).2 }
      (true, { k.heap l id pt with entry := (k.heap l id pt).share dst src f }) := by
  obtain ⟨place, htables⟩ := hinv.tables
  obtain ⟨hrc, htree, hptr, hleaf⟩ := htables.tree.heapLeaf_cowProtect (f := f) htables.root hne
    hslot hdst
  refine ⟨iff_of_true ?_ rfl, ?_, hinv.pagetable, hinv.base, hinv.max,
    ⟨place, htree, htables.root, ?_⟩⟩
  · rw [hrc]
    exact Int.natCast_nonneg _
  · exact congrArg (AgentHeap.mk · _) (heapEntry_share hleaf _)
  · rw [hptr, hleaf]
    exact htables.sound.share hsrc dst

/-- The target is mapped to the frame of the source. -/
theorem refines_cow_map (hdst : heapEntry l k.vm pt id dst = none)
    (htables : TablesFor l k.vm pt id dst) {mapped : Int × Vm}
    (hmapped : vmMapPage l k.vm pt (heapVa id dst) (f * pageSize) (pteU ||| pteR) = mapped) :
    mapped.1 = 0 ∧
      HeapRefines l id pt (0 ≤ (cowProtect l mapped.2 pt (heapVa id dst) (table, i) f).1)
        (({ k with vm := (cowProtect l mapped.2 pt (heapVa id dst) (table, i) f).2 } :
          VmKernel).setAgent id ⟨some pt, heapVa id 0, 16, (k.agents id).heapMapped + 1⟩)
        (true, ⟨(k.heap l id pt).share dst src f, (k.heap l id pt).mapped + 1⟩) := by
  obtain ⟨place, hheap⟩ := hinv.tables
  have haligned : heapVa id dst % pageSize = 0 ∧ f * pageSize % pageSize = 0 :=
    ⟨heapVa_mod id dst, Nat.mul_mod_left _ _⟩
  have hrc : mapped.1 = 0 := by
    rw [← hmapped]
    exact hheap.tree.vmMapPage_ok hheap.root (heapVa_lt id dst) haligned
      (pteEntry_eq_none.mp hdst) htables _
  have hmod : heapVa id dst % 2 ^ 39 = heapVa id dst := Nat.mod_eq_of_lt (heapVa_lt id dst)
  obtain ⟨place', htree, hkeeps, hptr, heffect⟩ := hheap.tree.heapMapped_vmMapPage hheap.root id
    (heapVa id dst) (f * pageSize) (pteU ||| pteR)
  have hslot' : (vmWalk l mapped.2 pt (heapVa id src) false).1 = some (table, i) := by
    rw [← hmapped]
    exact hheap.tree.walkFrom_keeps
      (fun q level pre j hq hv => hheap.tree.vmMapPage_keeps hheap.root hq hv ..) 2 pt
      (heapVa_place hheap.root id src) hslot
  rw [hmapped] at htree hptr heffect
  have hleaf : heapLeaf l mapped.2 pt id =
      update (heapLeaf l k.vm pt id) dst (mappedEntry (f * pageSize) (pteU ||| pteR)) := by
    cases heffect with
    | same _ hother => exact absurd (by rw [hmod]) (hother hrc dst)
    | mapped q _ hq _ hleaf =>
      rw [hmod] at hq
      obtain rfl := heapVa_page_injective hq
      exact hleaf
  have hdst' : (heapEntry l mapped.2 pt id dst).isSome = true := by
    rw [heapEntry, pteEntry_isSome, hleaf, update_self, hasFlag_mappedEntry]
  have hroot' := hkeeps _ _ hheap.root
  obtain ⟨hva, htree', hptr', hleaf'⟩ := htree.heapLeaf_cowProtect (f := f) hroot' hne hslot' hdst'
  -- what was written for `dst` first is overwritten
  have hshare : heapLeaf l (cowProtect l mapped.2 pt (heapVa id dst) (table, i) f).2 pt id =
      update (update (heapLeaf l k.vm pt id) src (HeapSound.readOnly f)) dst
        (HeapSound.readOnly f) := by
    rw [hleaf', hleaf, update_comm hne, update_idem]
  refine ⟨hrc, iff_of_true ?_ rfl, ?_, ?_, ?_, ?_, ⟨place', htree', hroot', ?_⟩⟩
  · rw [hva]
    exact Int.natCast_nonneg _
  · rw [VmKernel.heap]
    simp only [VmKernel.setAgent_vm, VmKernel.setAgent_self]
    exact congrArg (AgentHeap.mk · _) (heapEntry_share hshare _)
  · rw [VmKernel.setAgent_self]
  · rw [VmKernel.setAgent_self]
  · rw [VmKernel.setAgent_self]
  · rw [VmKernel.setAgent_vm, hptr', hptr, hshare]
    exact hheap.sound.share hsrc dst

end Cow

/-- What remains of `vm_heap_cow_alias` after the checks of its arguments. -/
theorem refines_cow_pages {src dst : HeapPage} (hinv : HeapInv l id pt k) (hne : dst ≠ src)
    (htables : heapEntry l k.vm pt id src ≠ none → heapEntry l k.vm pt id dst = none →
      TablesFor l k.vm pt id dst) :
    HeapRefines l id pt (0 ≤ (vmHeapCowAlias l k id (dst : Nat) (src : Nat)).1)
      (vmHeapCowAlias l k id (dst : Nat) (src : Nat)).2 ((k.heap l id pt).cowAlias dst src) := by
  have hinval : ¬ 0 ≤ einval := by decide
  have hnospc : ¬ 0 ≤ enospc := by decide
  have hoff : ¬ ((dst : Nat) : Int) = ((src : Nat) : Int) := fun h => hne (Fin.ext (by omega))
  rw [vmHeapCowAlias]
  simp only [hinv.pagetable, hinv.base, hinv.max]
  rw [if_neg hoff, if_neg (natCast_in_heap src), if_neg (natCast_in_heap dst),
    heapVa_natCast, heapVa_natCast, vmPageMapped_heapVa, vmPageMapped_heapVa]
  cases hsrc : heapEntry l k.vm pt id src with
  | none =>
    rw [(k.heap l id pt).cowAlias_unmapped hne hsrc, if_pos (by decide)]
    exact hinv.refused hinval
  | some e =>
    obtain ⟨f, w⟩ := e
    obtain ⟨table, i, hslot, hword⟩ := walk_of_heapEntry hsrc
    obtain ⟨hvalid, hppn, -⟩ := pteEntry_eq_some hsrc
    rw [if_neg (by simp), hslot]
    dsimp only
    rw [hword, hppn, hvalid, if_neg (by decide)]
    cases hdst : heapEntry l k.vm pt id dst with
    | some e =>
      obtain ⟨g, w'⟩ := e
      obtain ⟨table', i', hslot', hword'⟩ := walk_of_heapEntry hdst
      obtain ⟨hvalid', hppn', -⟩ := pteEntry_eq_some hdst
      rw [if_pos (Option.isSome_some), hslot']
      dsimp only
      rw [hword', hppn', hvalid', if_neg (by decide), (k.heap l id pt).cowAlias_mapped hne hsrc hdst]
      by_cases hgf : g = f
      · rw [if_neg (not_not.mpr hgf), if_pos hgf]
        exact refines_cow_again hinv hne hslot hsrc (by rw [hdst]; rfl)
      · rw [if_pos hgf, if_neg hgf]
        exact hinv.refused hinval
    | none =>
      rw [if_neg (by decide), (k.heap l id pt).cowAlias_new hne hsrc hdst]
      have hcount : (k.heap l id pt).mapped = (k.agents id).heapMapped := rfl
      rw [hcount]
      by_cases hfull : 16 ≤ (k.agents id).heapMapped
      · rw [if_pos hfull, if_pos hfull]
        exact hinv.refused hnospc
      · obtain ⟨hrc, hrefines⟩ := refines_cow_map hinv hne hslot hsrc hdst
          (htables (by rw [hsrc]; exact Option.some_ne_none _) hdst) rfl
        rw [if_neg hfull, if_neg hfull, if_neg (by rw [hrc]; exact fun h => h rfl)]
        exact hrefines

/-- **`vm_heap_cow_alias`.** -/
theorem refines_cow (hinv : HeapInv l id pt k) (dstOff srcOff : Int)
    (htables : ∀ dst src, heapPageOff dstOff = some dst → heapPageOff srcOff = some src →
      heapEntry l k.vm pt id src ≠ none → heapEntry l k.vm pt id dst = none →
      TablesFor l k.vm pt id dst) :
    HeapRefines l id pt (0 ≤ (vmHeapCowAlias l k id dstOff srcOff).1)
      (vmHeapCowAlias l k id dstOff srcOff).2
      ((k.heap l id pt).call (newFrame l k.vm)
        (.cow (heapPageOff dstOff) (heapPageOff srcOff))) := by
  have hrefused : HeapRefines l id pt (0 ≤ einval) k (false, k.heap l id pt) :=
    hinv.refused (by decide)
  by_cases hsame : dstOff = srcOff
  · rw [vmHeapCowAlias, AgentHeap.call_cow_same _ _ (congrArg heapPageOff hsame)]
    simp only [hinv.pagetable]
    rw [if_pos hsame]
    exact hrefused
  cases hsrcOff : heapPageOff srcOff with
  | none =>
    rw [vmHeapCowAlias, AgentHeap.call_cow_none]
    simp only [hinv.pagetable, hinv.max]
    rw [if_neg hsame, if_pos (heapPageOff_none hsrcOff)]
    exact hrefused
  | some src =>
    obtain ⟨hsrcRange, hsrcEq⟩ := heapPageOff_some hsrcOff
    cases hdstOff : heapPageOff dstOff with
    | none =>
      rw [vmHeapCowAlias]
      simp only [hinv.pagetable, hinv.max]
      rw [if_neg hsame, if_neg (by omega), if_pos (heapPageOff_none hdstOff)]
      exact hrefused
    | some dst =>
      obtain ⟨-, hdstEq⟩ := heapPageOff_some hdstOff
      have hne : dst ≠ src := by
        rintro rfl
        exact hsame (hdstEq.trans hsrcEq.symm)
      have hpages := refines_cow_pages hinv hne (htables dst src hdstOff hsrcOff)
      rw [← hdstEq, ← hsrcEq] at hpages
      exact hpages

end OpenAgentOS
