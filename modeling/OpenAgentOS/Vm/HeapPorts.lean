import OpenAgentOS.Vm.HeapCow
import OpenAgentOS.Vm.X86Heap

/-!
# The two ports of the agent heap agree

The heap functions are written twice, for Sv39 (kernel/vm.c) and for x86 (arch/x86/vm.c). Both
refine the machine of `HeapSpec`, and that machine does not depend on the names of frames.

- `PortCall`: a call of a heap function. It has the same arguments on both ports, so addresses
  have 32 bits.
- `riscvCall`, `x86Call`: the call on each port, with success or failure as the answer.
- `SameAlloc`: `kalloc_page` would succeed on both ports or on none, and there are tables.
- `heaps_agree`: from empty heaps both ports give the same answers, and map the same pages with
  the same permissions, the same sharing of frames and the same `heap_mapped` after every call.
-/

namespace OpenAgentOS

open Function

/-- A call of the heap functions. -/
inductive PortCall where
  /-- `vm_heap_map_page`. -/
  | mapPage (va : UInt32)
  /-- `vm_heap_cow_alias`. -/
  | cowAlias (dstOff srcOff : Int)
  /-- `vm_heap_fault`. -/
  | fault (va : UInt32) (write : Bool)
  /-- `vm_user_check`. -/
  | userCheck (ua len : UInt32) (write : Bool)

/-- A range that is checked lies in the heap of the agent. -/
def PortCall.InHeap (id : Fin maxAgents) : PortCall → Prop
  | .userCheck ua len _ =>
    heapVa id 0 ≤ ua.toNat ∧ ua.toNat + len.toNat ≤ heapVa id 0 + 16 * pageSize
  | _ => True

/-- The call on RISC-V: whether it succeeds, and the state after it. -/
def riscvCall (l : Layout) (id : Fin maxAgents) (k : VmKernel) : PortCall → Bool × VmKernel
  | .mapPage va =>
    let out := vmHeapMapPage l k id va.toNat
    (decide (out.1 = 0), out.2)
  | .cowAlias dstOff srcOff =>
    let out := vmHeapCowAlias l k id dstOff srcOff
    (decide (0 ≤ out.1), out.2)
  | .fault va write => vmHeapFault l k id va.toNat write
  | .userCheck ua len write =>
    match (k.agents id).pagetable with
    | none => (false, k)
    | some pt => (decide (vmUserCheck l k.vm pt ua.toNat len.toNat write = some 0), k)

/-- The call on x86. -/
def x86Call (l : X86.Layout) (id : Fin maxAgents) (k : X86.Kernel) : PortCall → Bool × X86.Kernel
  | .mapPage va =>
    let out := X86.vmHeapMapPage l k id va.toNat
    (decide (out.1 = 0), out.2)
  | .cowAlias dstOff srcOff =>
    let out := X86.vmHeapCowAlias l k id dstOff srcOff
    (decide (0 ≤ out.1), out.2)
  | .fault va write => X86.vmHeapFault l k id va.toNat write
  | .userCheck ua len write =>
    match (k.agents id).pagetable with
    | none => (false, k)
    | some pt => (decide (X86.vmUserCheck l k.vm pt ua.toNat len.toNat write = some 0), k)

/-- A call on both machines. -/
def portStep (l : Layout) (l' : X86.Layout) (id : Fin maxAgents) (x : VmKernel × X86.Kernel)
    (c : PortCall) : VmKernel × X86.Kernel :=
  ((riscvCall l id x.1 c).2, (x86Call l' id x.2 c).2)

/-- `kalloc_page` has the same outcome on both machines, and pages for tables are available. -/
def SameAlloc (l : Layout) (l' : X86.Layout) (id : Fin maxAgents) (x : VmKernel × X86.Kernel) :
    Prop :=
  (newFrame l x.1.vm).isSome = (X86.newFrame l' x.2.vm).isSome ∧
  (∀ pt, (x.1.agents id).pagetable = some pt → ∀ p, TablesFor l x.1.vm pt id p) ∧
  ∀ pt, (x.2.agents id).pagetable = some pt → ∀ p, X86.TablesFor l' x.2.vm pt id p

/-- The heaps of the agent have one shape. -/
def SameHeaps (l : Layout) (l' : X86.Layout) (id : Fin maxAgents) (x : VmKernel × X86.Kernel) :
    Prop :=
  ∀ pt pt', (x.1.agents id).pagetable = some pt → (x.2.agents id).pagetable = some pt' →
    SameShape (x.1.heap l id pt) (x.2.heap l' id pt')

/-- The call answers alike and leaves heaps of one shape. -/
def CallAgrees (l : Layout) (l' : X86.Layout) (id : Fin maxAgents) (x : VmKernel × X86.Kernel)
    (c : PortCall) : Prop :=
  (riscvCall l id x.1 c).1 = (x86Call l' id x.2 c).1 ∧ SameHeaps l l' id (portStep l l' id x c)

variable {l : Layout} {l' : X86.Layout} {id : Fin maxAgents} {k : VmKernel} {k' : X86.Kernel}
  {pt pt' : Nat} {p : HeapPage} {write : Bool}

/-! ## Checking a range of the heap -/

/-- **`vm_user_check` in the heap**: the answer is that of the pages of the range. -/
theorem userCheck_heap {F : Type*} {h : AgentHeap F} {width ua len : Nat} {ok : Nat → Bool}
    (hok : ∀ p, ok (heapVa id p) = h.pageOk write p) (hwidth : 32 ≤ width)
    (hlow : heapVa id 0 ≤ ua) (hhigh : ua + len ≤ heapVa id 0 + 16 * pageSize) :
    userCheck width ok ua len = some 0 ↔
      len = 0 ∨ ∀ p, pageDown ua ≤ heapVa id p → heapVa id p < ua + len → h.pageOk write p = true := by
  have hbounds := heapVa_bounds id 15
  have hpow : 2 ^ 32 ≤ 2 ^ width := Nat.pow_le_pow_right (by decide) hwidth
  rcases Nat.eq_zero_or_pos len with rfl | hlen
  · exact iff_of_true rfl (.inl rfl)
  have hstop : ua + len + pageSize ≤ 2 ^ width := by
    have hlast : heapVa id 15 = heapVa id 0 + 15 * pageSize := by
      simp only [heapVa_eq, pageSize]
      omega
    simp only [pageSize] at hhigh hlast ⊢
    omega
  -- the pages of the range are heap pages
  have hpages : ∀ a, pageDown ua ≤ a → a < ua + len → a % pageSize = 0 → ∃ p, a = heapVa id p := by
    intro a hfirst hlast haligned
    have hdown : heapVa id 0 ≤ pageDown ua := by
      rw [heapVa_eq] at hlow ⊢
      simp only [pageDown, pageSize, Fin.val_zero] at hlow ⊢
      omega
    refine ⟨⟨(a - heapVa id 0) / pageSize, ?_⟩, ?_⟩
    · simp only [pageSize] at hhigh ⊢
      omega
    · have hzero := heapVa_mod id 0
      simp only [heapVa_eq, pageSize, Fin.val_zero] at hdown hzero haligned hfirst ⊢
      omega
  rcases @userCheck_inside width ok ua len hlen (by omega) hstop with
    ⟨hrc, hall⟩ | ⟨hrc, a, hfirst, hlast, haligned, hbad⟩
  · rw [hrc]
    refine iff_of_true rfl (.inr fun p hfirst hlast => ?_)
    rw [← hok p]
    exact hall _ hfirst hlast (heapVa_mod id p)
  · rw [hrc]
    refine iff_of_false (by decide) ?_
    rintro (hzero | hall)
    · omega
    · obtain ⟨p, rfl⟩ := hpages a hfirst hlast haligned
      rw [hok p, hall p hfirst hlast] at hbad
      cases hbad

/-- The test of a heap page on RISC-V. -/
theorem HeapInv.userPageOk (hinv : HeapInv l id pt k) (write : Bool) (p : HeapPage) :
    userPageOk l k.vm pt write (heapVa id p) = (k.heap l id pt).pageOk write p := by
  obtain ⟨place, htables⟩ := hinv.tables
  have hperm : (k.heap l id pt).perm p = (heapEntry l k.vm pt id p).map Prod.snd := rfl
  rw [AgentHeap.pageOk, hperm]
  cases hp : heapEntry l k.vm pt id p with
  | none =>
    have hinvalid : hasFlag (heapLeaf l k.vm pt id p) pteV = false := pteEntry_eq_none.mp hp
    rw [heapLeaf, leafFrom] at hinvalid
    rw [OpenAgentOS.userPageOk, vmWalk]
    cases hslot : (walkFrom l false (heapVa id p) 2 k.vm pt).1 with
    | none => rfl
    | some slot =>
      rw [hslot] at hinvalid
      dsimp only
      rw [hinvalid]
      rfl
  | some e =>
    obtain ⟨f, w⟩ := e
    obtain ⟨table, i, hslot, hword⟩ := walk_of_heapEntry hp
    obtain ⟨hvalid, -, hwrite⟩ := pteEntry_eq_some hp
    obtain ⟨huser, hread⟩ := htables.sound.user p hvalid
    rw [OpenAgentOS.userPageOk, hslot]
    dsimp only
    rw [hword, hvalid, huser, hwrite, hread]
    cases write with
    | false => rfl
    | true => rfl

/-- The test of a heap page on x86. -/
theorem X86.HeapInv.userPageOk (hinv : X86.HeapInv l' id pt' k') (write : Bool) (p : HeapPage) :
    X86.userPageOk l' k'.vm pt' write (heapVa id p) = (k'.heap l' id pt').pageOk write p := by
  have hperm : (k'.heap l' id pt').perm p = (X86.heapEntry l' k'.vm pt' id p).map Prod.snd := rfl
  rw [AgentHeap.pageOk, hperm]
  cases hp : X86.heapEntry l' k'.vm pt' id p with
  | none =>
    have hinvalid : hasFlag (X86.heapLeaf l' k'.vm pt' id p) pteV = false := by
      rw [← X86.pteEntry_isSome, ← X86.heapEntry, hp]
      rfl
    rw [X86.heapLeaf] at hinvalid
    rw [X86.userPageOk]
    cases hslot : (X86.vmWalk l' k'.vm pt' (heapVa id p) false).1 with
    | none => rfl
    | some slot =>
      rw [hslot] at hinvalid
      dsimp only
      rw [hinvalid]
      rfl
  | some e =>
    obtain ⟨f, w⟩ := e
    obtain ⟨-, hslot, hword⟩ := X86.walk_of_heapEntry hp
    obtain ⟨hvalid, -, hwrite⟩ := X86.pteEntry_eq_some hp
    rw [X86.userPageOk, hslot]
    dsimp only
    rw [hword, hvalid, hinv.sound.user p hvalid, hwrite]
    cases write with
    | false => rfl
    | true => exact Bool.not_not w

/-! ## Runs -/

/-- Frames that `kalloc_page` hands out are new on both machines. -/
theorem newFrames (hinv : HeapInv l id pt k) (hinv' : X86.HeapInv l' id pt' k')
    (hsame : (newFrame l k.vm).isSome = (X86.newFrame l' k'.vm).isSome) :
    SameShape.NewFrames (k.heap l id pt) (k'.heap l' id pt') (newFrame l k.vm)
      (X86.newFrame l' k'.vm) where
  isSome := hsame
  left f hnew p hframe := by
    obtain ⟨⟨g, w⟩, hentry, rfl⟩ := Option.map_eq_some_iff.mp hframe
    exact hinv.unused hnew (fun _ => ()) p w hentry
  right f hnew := hinv'.unused hnew

/-- Both agents are sound, and their heaps have one shape. -/
structure PortInv (l : Layout) (l' : X86.Layout) (id : Fin maxAgents) (pt pt' : Nat)
    (x : VmKernel × X86.Kernel) : Prop where
  riscv : HeapInv l id pt x.1
  x86 : X86.HeapInv l' id pt' x.2
  shape : SameShape (x.1.heap l id pt) (x.2.heap l' id pt')

theorem PortInv.sameHeaps {x : VmKernel × X86.Kernel} (h : PortInv l l' id pt pt' x) :
    SameHeaps l l' id x := by
  intro qt qt' hqt hqt'
  obtain rfl := Option.some.inj (hqt.symm.trans h.riscv.pagetable)
  obtain rfl := Option.some.inj (hqt'.symm.trans h.x86.pagetable)
  exact h.shape

/-- Two functions that refine one abstract call. -/
theorem PortInv.refined {x y : VmKernel × X86.Kernel} {ok ok' : Prop} [Decidable ok]
    [Decidable ok'] {c : HeapCall} (h : PortInv l l' id pt pt' x) (halloc : SameAlloc l l' id x)
    (hriscv : HeapRefines l id pt ok y.1 ((x.1.heap l id pt).call (newFrame l x.1.vm) c))
    (hx86 : X86.HeapRefines l' id pt' ok' y.2
      ((x.2.heap l' id pt').call (X86.newFrame l' x.2.vm) c)) :
    decide ok = decide ok' ∧ PortInv l l' id pt pt' y := by
  obtain ⟨hanswer, hshape⟩ := h.shape.call (newFrames h.riscv h.x86 halloc.1) c
  refine ⟨decide_eq_decide.mpr ?_, hriscv.inv, hx86.inv, ?_⟩
  · rw [hriscv.answer, hx86.answer, hanswer]
  · rw [hriscv.heap, hx86.heap]
    exact hshape

/-- **One call on both machines.** -/
theorem PortInv.step {x : VmKernel × X86.Kernel} {c : PortCall} (h : PortInv l l' id pt pt' x)
    (halloc : SameAlloc l l' id x) (hheap : c.InHeap id) :
    (riscvCall l id x.1 c).1 = (x86Call l' id x.2 c).1 ∧
      PortInv l l' id pt pt' (portStep l l' id x c) := by
  have htables := halloc.2.1 pt h.riscv.pagetable
  have htables' := halloc.2.2 pt' h.x86.pagetable
  cases c with
  | mapPage va =>
    exact h.refined halloc (refines_map h.riscv va.toNat fun p _ _ => htables p)
      (X86.refines_map h.x86 va.toNat fun p _ _ => htables' p)
  | cowAlias dstOff srcOff =>
    exact h.refined halloc (refines_cow h.riscv dstOff srcOff fun dst _ _ _ _ _ => htables dst)
      (X86.refines_cow h.x86 dstOff srcOff fun dst _ _ _ _ _ => htables' dst)
  | fault va write =>
    obtain ⟨hanswer, hinv⟩ := h.refined (y := portStep l l' id x (.fault va write)) halloc
      (refines_fault h.riscv va.toNat write fun p _ _ => htables p)
      (X86.refines_fault h.x86 va.toNat write fun p _ _ => htables' p)
    rw [Bool.decide_eq_true, Bool.decide_eq_true] at hanswer
    exact ⟨hanswer, hinv⟩
  | userCheck ua len write =>
    have hriscv : riscvCall l id x.1 (.userCheck ua len write) =
        (decide (vmUserCheck l x.1.vm pt ua.toNat len.toNat write = some 0), x.1) := by
      rw [riscvCall, h.riscv.pagetable]
    have hx86 : x86Call l' id x.2 (.userCheck ua len write) =
        (decide (X86.vmUserCheck l' x.2.vm pt' ua.toNat len.toNat write = some 0), x.2) := by
      rw [x86Call, h.x86.pagetable]
    have hpages : ∀ p, (x.1.heap l id pt).pageOk write p = (x.2.heap l' id pt').pageOk write p := by
      intro p
      rw [AgentHeap.pageOk, AgentHeap.pageOk, h.shape.perm p]
    refine ⟨?_, ?_⟩
    · rw [hriscv, hx86]
      refine decide_eq_decide.mpr ?_
      rw [vmUserCheck, X86.vmUserCheck,
        userCheck_heap (h.riscv.userPageOk write) (by decide) hheap.1 hheap.2,
        userCheck_heap (h.x86.userPageOk write) (by decide) hheap.1 hheap.2]
      simp only [hpages]
    · rw [portStep, hriscv, hx86]
      exact h

/-- **A run on both machines.** -/
theorem PortInv.run {cs : List PortCall} : ∀ {x : VmKernel × X86.Kernel},
    PortInv l l' id pt pt' x → (∀ c ∈ cs, c.InHeap id) →
      Runs.Along (portStep l l' id) (fun x _ => SameAlloc l l' id x) x cs →
      Runs.Along (portStep l l' id) (CallAgrees l l' id) x cs := by
  induction cs with
  | nil => exact fun _ _ _ => trivial
  | cons c cs ih =>
    intro x h hheap halloc
    obtain ⟨hanswer, hnext⟩ := h.step halloc.1 (hheap c List.mem_cons_self)
    exact ⟨⟨hanswer, hnext.sameHeaps⟩,
      ih hnext (fun c' hc' => hheap c' (List.mem_cons_of_mem c hc')) halloc.2⟩

/-! ## Agents -/

/-- No heap page of the agent is mapped. -/
def RiscvHeapEmpty (l : Layout) (id : Fin maxAgents) (k : VmKernel) : Prop :=
  ∀ pt, (k.agents id).pagetable = some pt → ∀ p, heapEntry l k.vm pt id p = none

/-- The same on x86. -/
def X86HeapEmpty (l : X86.Layout) (id : Fin maxAgents) (k : X86.Kernel) : Prop :=
  ∀ pt, (k.agents id).pagetable = some pt → ∀ p, X86.heapEntry l k.vm pt id p = none

theorem heapInv_started {k₀ : VmKernel} {place : Places} (htree : TreeInv l k₀ place)
    {file : Option ElfFile} (h : Started l k₀ id file k) (hempty : RiscvHeapEmpty l id k) :
    ∃ pt, HeapInv l id pt k ∧ k.heap l id pt = AgentHeap.empty := by
  obtain ⟨pt, extra, hinv, -⟩ := machineInv_started htree h fun _ _ => 0
  have hnone : heapEntry l k.vm pt id = fun _ => none := funext (hempty pt hinv.heap.pagetable)
  have hcounted : (k.agents id).heapMapped + extra =
      slotCount fun p => (heapEntry l k.vm pt id p).isSome := hinv.counted
  have hzero : (k.agents id).heapMapped = 0 := by
    rw [hnone] at hcounted
    have hslots : (slotCount fun _ : HeapPage => (none : Option (Nat × Bool)).isSome) = 0 := by
      decide
    exact (Nat.add_eq_zero_iff.mp (hcounted.trans hslots)).1
  refine ⟨pt, hinv.heap, ?_⟩
  rw [VmKernel.heap, hnone, hzero]
  rfl

/-- **The two ports agree** on every sequence of calls, made for a new agent on each of them. -/
theorem heaps_agree (l : Layout) (mem : Nat → Fin 512 → Nat)
    (hgig : hasFlag ((vmInit l mem).mem l.kernelPt 1) pteV = false) (ops : List VmOp)
    (id : Fin maxAgents) (file : Option ElfFile) (k : VmKernel)
    (hstart : Started l ((vmBoot l mem).run l ops) id file k) (hempty : RiscvHeapEmpty l id k)
    (l' : X86.Layout) (k₀ k' : X86.Kernel) (hstart' : X86.agentSetupStack l' k₀ id = (true, k'))
    (hempty' : X86HeapEmpty l' id k') (cs : List PortCall) (hheap : ∀ c ∈ cs, c.InHeap id)
    (halloc : Runs.Along (portStep l l' id) (fun x _ => SameAlloc l l' id x) (k, k') cs) :
    SameHeaps l l' id (k, k') ∧ Runs.Along (portStep l l' id) (CallAgrees l l' id) (k, k') cs := by
  obtain ⟨place, htree⟩ := treeInv_run ops (treeInv_vmBoot l mem hgig)
  obtain ⟨pt, hinv, hnone⟩ := heapInv_started htree hstart hempty
  obtain ⟨pt', hinv', hnone'⟩ := X86.heapInv_created hstart' hempty'
  have hports : PortInv l l' id pt pt' (k, k') := by
    refine ⟨hinv, hinv', ?_⟩
    show SameShape (k.heap l id pt) (k'.heap l' id pt')
    rw [hnone, hnone']
    exact SameShape.empty
  exact ⟨hports.sameHeaps, hports.run hheap halloc⟩

/-! ## A machine of each kind -/

namespace X86

/-- Entries `i`, ..., `i + n - 1` of table `t` point to consecutive pages. -/
def Vm.fill (vm : Vm) (t i n pa flags : Nat) : Vm :=
  vm.writePage t fun j =>
    if i ≤ j.val ∧ j.val < i + n then mkPte (pa + (j.val - i) * pageSize) flags else vm.mem t j

theorem Vm.fill_zero (vm : Vm) (t i pa flags : Nat) : vm.fill t i 0 pa flags = vm := by
  have hsame : (fun j : Fin 1024 => if i ≤ j.val ∧ j.val < i + 0 then
      mkPte (pa + (j.val - i) * pageSize) flags else vm.mem t j) = vm.mem t := by
    funext j
    rw [if_neg (by omega)]
  rw [Vm.fill, hsame, Vm.writePage, update_eq_self]

/-- Storing the first entry and filling the rest. -/
theorem Vm.fill_write (vm : Vm) {t n pa flags : Nat} {i : Fin 1024} :
    (vm.write t i (mkPte pa flags)).fill t (i.val + 1) n (pa + pageSize) flags
      = vm.fill t i.val (n + 1) pa flags := by
  have hwords : (fun j : Fin 1024 => if i.val + 1 ≤ j.val ∧ j.val < i.val + 1 + n then
        mkPte (pa + pageSize + (j.val - (i.val + 1)) * pageSize) flags
      else (vm.write t i (mkPte pa flags)).mem t j)
      = fun j : Fin 1024 => if i.val ≤ j.val ∧ j.val < i.val + (n + 1) then
        mkPte (pa + (j.val - i.val) * pageSize) flags else vm.mem t j := by
    funext j
    rw [Vm.write_self]
    by_cases hji : j = i
    · rw [hji, if_neg (by omega), update_self, if_pos (by omega), Nat.sub_self,
        Nat.zero_mul, Nat.add_zero]
    · have hne : j.val ≠ i.val := fun h => hji (Fin.ext h)
      rw [update_of_ne hji]
      by_cases hin : i.val + 1 ≤ j.val ∧ j.val < i.val + 1 + n
      · rw [if_pos hin, if_pos (by omega)]
        congr 1
        simp only [pageSize]
        omega
      · rw [if_neg hin, if_neg (by omega)]
  rw [Vm.fill, hwords, Vm.fill, Vm.writePage, Vm.write, Vm.writePage]
  simp only [update_idem]

/-- **Kernel pages of one table**: the loop fills a range of entries. -/
theorem vmMapPages_fill {l : Layout} {pt t perm : Nat} (hne : pt ≠ t)
    (hperm : hasFlag perm pteU = false) {d : Fin 1024} :
    ∀ (n va pa i : Nat) (vm : Vm), va % pageSize = 0 → pa % pageSize = 0 →
      pa + n * pageSize < 2 ^ 32 →
      hasFlag (vm.mem pt d) pteV = true → ptePage (vm.mem pt d) = t →
      (∀ j, j < n → dirIndex (va + j * pageSize) = d ∧
        (tableIndex (va + j * pageSize)).val = i + j) →
      (∀ j : Fin 1024, i ≤ j.val → j.val < i + n → hasFlag (vm.mem t j) pteV = false) →
      vmMapPages l pt perm n va pa vm = (0, vm.fill t i n pa (x86PteFlags perm)) := by
  intro n
  induction n with
  | zero =>
    intro va pa i vm _ _ _ _ _ _ _
    rw [vmMapPages, Vm.fill_zero]
  | succ n ih =>
    intro va pa i vm hva hpa hbound hdir htable hindex hfree
    obtain ⟨hd, hi⟩ := hindex 0 (Nat.succ_pos n)
    rw [Nat.zero_mul, Nat.add_zero] at hd hi
    have hi : (tableIndex va).val = i := hi
    -- the first page
    have hwalk : vmWalk l vm pt va true = (some (t, tableIndex va), vm) := by
      rw [vmWalk_valid l pt va true (by rw [hd]; exact hdir), hd, htable]
    have hentry := hfree (tableIndex va) (by omega) (by omega)
    have hpage : vmMapPage l vm pt va pa perm =
        (0, vm.write t (tableIndex va) (mkPte pa (x86PteFlags perm))) := by
      rw [vmMapPage, if_neg (by omega), hwalk]
      dsimp only
      rw [if_neg (by rw [hentry]; decide), openDir, if_neg (by rw [hperm]; decide)]
    rw [vmMapPages, hpage, if_neg (fun h => h rfl),
      Nat.mod_eq_of_lt (by simp only [pageSize] at *; omega)]
    rw [ih (va + pageSize) (pa + pageSize) (i + 1) _ (by simp only [pageSize] at *; omega)
      (by simp only [pageSize] at *; omega) (by simp only [pageSize] at *; omega)
      (by rw [Vm.write_of_ne _ hne]; exact hdir) (by rw [Vm.write_of_ne _ hne]; exact htable)]
    · rw [← hi, Vm.fill_write]
    · intro j hj
      have h := hindex (j + 1) (Nat.succ_lt_succ hj)
      rw [show va + (j + 1) * pageSize = va + pageSize + j * pageSize by
        rw [Nat.succ_mul]; omega] at h
      exact ⟨h.1, by rw [h.2]; omega⟩
    · intro j hlow hhigh
      have hj : j ≠ tableIndex va := fun h => by rw [h] at hlow; omega
      rw [Vm.write_self, update_of_ne hj]
      exact hfree j (by omega) (by omega)

/-- A layout with all of the kernel in the second block of four megabytes. -/
def pcLayout : Layout where
  start := 0x400000
  erodata := 0x402000
  end_ := 0x402000
  userTextStart := 0x404000
  userEnd := 0x406000
  ptpoolStart := 0x680000
  ptpoolEnd := 0x6c0000
  heapStart := 0x440000
  pool_aligned := by decide +kernel
  pool_below := by decide
  heap_below := by decide

/-- The machine before the first agent. -/
def pcBoot : Kernel := ⟨⟨fun _ _ => 0, 0, 0x440000⟩, fun _ => ⟨none, 0, 0, 0⟩⟩

/-- Its memory after the guard page and the stack of agent 1 have been allocated. -/
def pcBase : Vm := (kalloc pcLayout (kallocPage pcLayout pcBoot.vm).2 agentStackSize).2

/-- The tables of the first agent with text and user pages, before the kernel heap is mapped. -/
def pcText : Vm :=
  (vmMapRegion pcLayout (vmMapRegion pcLayout (ptAlloc pcLayout pcBase).2 0x680
    0x400000 0x400000 0x2000 (pteR ||| pteX)).2 0x680 0x404000 0x404000 0x2000
      (pteU ||| pteR ||| pteW)).2

/-- The tables with the kernel heap. -/
def pcHeap : Vm := pcText.fill 0x681 0x40 512 0x440000 (x86PteFlags (pteR ||| pteW))

/-- The tables that `vm_create_agent_pt` returns. -/
def pcVm : Vm := (vmMapRegion pcLayout pcHeap 0x680 0x680000 0x680000 0x40000 (pteR ||| pteW)).2

theorem vmMapRegions_cons {l : Layout} {vm : Vm} {pt va pa size perm : Nat}
    {regions : List (Nat × Nat × Nat × Nat)} (h : (vmMapRegion l vm pt va pa size perm).1 = 0) :
    vmMapRegions l pt ((va, pa, size, perm) :: regions) vm =
      vmMapRegions l pt regions (vmMapRegion l vm pt va pa size perm).2 := by
  rw [vmMapRegions, if_neg (fun hne => hne h)]

theorem vmMapRegion_pcHeap :
    vmMapRegion pcLayout pcText 0x680 0x440000 0x440000 heapSize (pteR ||| pteW) = (0, pcHeap) := by
  have hpages : vmMapRegion pcLayout pcText 0x680 0x440000 0x440000 heapSize (pteR ||| pteW) =
      vmMapPages pcLayout 0x680 (pteR ||| pteW) 512 0x440000 0x440000 pcText := by
    rw [vmMapRegion]
    rfl
  have hfree : ∀ j : Fin 1024, 0x40 ≤ j.val → j.val < 0x40 + 512 →
      hasFlag (pcText.mem 0x681 j) pteV = false := by decide +kernel
  rw [hpages]
  refine vmMapPages_fill (by decide) (by decide) (d := 1) 512 _ _ 0x40 pcText (by decide)
    (by decide) (by decide) (by decide +kernel) (by decide +kernel) ?_ hfree
  intro j hj
  constructor
  · refine Fin.ext ?_
    show (0x440000 + j * 4096) / 2 ^ 22 % 1024 = 1
    omega
  · show (0x440000 + j * 4096) / 2 ^ 12 % 1024 = 0x40 + j
    omega

theorem vmCreateAgentPt_pc :
    vmCreateAgentPt pcLayout pcBase = (some 0x680, pcVm) := by
  have hregions : pcLayout.kernelRegions =
      [(0x400000, 0x400000, 0x2000, pteR ||| pteX),
        (0x404000, 0x404000, 0x2000, pteU ||| pteR ||| pteW),
        (0x440000, 0x440000, heapSize, pteR ||| pteW),
        (0x680000, 0x680000, 0x40000, pteR ||| pteW)] := by decide
  have htext : (vmMapRegion pcLayout (ptAlloc pcLayout pcBase).2 0x680
      0x400000 0x400000 0x2000 (pteR ||| pteX)).1 = 0 := by decide +kernel
  have huser : (vmMapRegion pcLayout (vmMapRegion pcLayout
      (ptAlloc pcLayout pcBase).2 0x680 0x400000 0x400000 0x2000
        (pteR ||| pteX)).2 0x680 0x404000 0x404000 0x2000 (pteU ||| pteR ||| pteW)).1 = 0 := by
    decide +kernel
  have hpool : (vmMapRegion pcLayout pcHeap 0x680 0x680000 0x680000 0x40000
      (pteR ||| pteW)).1 = 0 := by decide +kernel
  have hmapped : vmMapRegions pcLayout 0x680 pcLayout.kernelRegions
      (ptAlloc pcLayout pcBase).2 = (0, pcVm) := by
    have hheap : (vmMapRegion pcLayout pcText 0x680 0x440000 0x440000 heapSize
        (pteR ||| pteW)).1 = 0 := by rw [vmMapRegion_pcHeap]
    rw [hregions, vmMapRegions_cons htext, vmMapRegions_cons huser, ← pcText,
      vmMapRegions_cons hheap, vmMapRegion_pcHeap, vmMapRegions_cons hpool, vmMapRegions, ← pcVm]
  have hroot : (ptAlloc pcLayout pcBase).1 = some 0x680 := by decide +kernel
  have halloc : ptAlloc pcLayout pcBase = (some 0x680, (ptAlloc pcLayout pcBase).2) :=
    Prod.ext hroot rfl
  rw [vmCreateAgentPt, halloc]
  dsimp only
  rw [hmapped, if_neg (fun h => h rfl)]

/-- The machine with agent 1. -/
def pcCreated : Kernel := (finishStack pcLayout (pcBoot.setAgent 1 ⟨none, 0, 0, 0⟩) 1 0x680
  (vmMapRegion pcLayout pcVm 0x680 0x441000 0x441000 agentStackSize (pteU ||| pteR ||| pteW))).2

theorem agentSetupStack_pc : agentSetupStack pcLayout pcBoot 1 = (true, pcCreated) := by
  have hguard : ¬ (kallocPage pcLayout pcBoot.vm).1 = 0 := by decide +kernel
  have hstack : (kalloc pcLayout (kallocPage pcLayout pcBoot.vm).2 agentStackSize).1 = 0x441000 := by
    decide +kernel
  have haligned : pageUp 0x441000 = 0x441000 := by decide
  have hfinish : (finishStack pcLayout (pcBoot.setAgent 1 ⟨none, 0, 0, 0⟩) 1 0x680
      (vmMapRegion pcLayout pcVm 0x680 0x441000 0x441000 agentStackSize
        (pteU ||| pteR ||| pteW))).1 = true := by decide +kernel
  have hagent : pcBoot.agents 1 = ⟨none, 0, 0, 0⟩ := rfl
  have hvm : (pcBoot.setAgent 1 ⟨none, 0, 0, 0⟩).vm = pcBoot.vm := rfl
  have hcreate : vmCreateAgentPt pcLayout
      (kalloc pcLayout (kallocPage pcLayout pcBoot.vm).2 agentStackSize).2 = (some 0x680, pcVm) :=
    vmCreateAgentPt_pc
  rw [agentSetupStack]
  simp only [hagent, hvm, hcreate, hstack, haligned]
  rw [if_neg hguard, if_neg (by decide), pcCreated]
  have heta : ∀ out : Bool × Kernel, out.1 = true → out = (true, out.2) := fun _ h => Prod.ext h rfl
  exact heta _ hfinish

end X86

/-- Agent 1 is created on both machines, and maps its first heap page. -/
theorem heaps_agree_created :
    CallAgrees virtLayout X86.pcLayout 1 (heapCreated, X86.pcCreated) (.mapPage 0x60010000) := by
  have hroot : (heapCreated.agents 1).pagetable = some 526344 := by decide +kernel
  have hroot' : (X86.pcCreated.agents 1).pagetable = some 0x680 := by decide +kernel
  have hempty : RiscvHeapEmpty virtLayout 1 heapCreated := by
    intro pt hpt
    obtain rfl := Option.some.inj (hpt.symm.trans hroot)
    decide +kernel
  have hempty' : X86HeapEmpty X86.pcLayout 1 X86.pcCreated := by
    intro pt hpt
    obtain rfl := Option.some.inj (hpt.symm.trans hroot')
    decide +kernel
  have halloc : SameAlloc virtLayout X86.pcLayout 1 (heapCreated, X86.pcCreated) := by
    refine ⟨by decide +kernel, fun pt hpt => ?_, fun pt hpt => ?_⟩
    · obtain rfl := Option.some.inj (hpt.symm.trans hroot)
      show ∀ p, (vmWalk virtLayout heapCreated.vm 526344 (heapVa 1 p) true).1 ≠ none
      decide +kernel
    · dsimp only at hpt
      obtain rfl := Option.some.inj (hpt.symm.trans hroot')
      show ∀ p, (X86.vmWalk X86.pcLayout X86.pcCreated.vm 0x680 (heapVa 1 p) true).1 ≠ none
      decide +kernel
  exact (heaps_agree virtLayout _ virtLayout_gigabyte [] 1 none _ started_heapCreated hempty
    X86.pcLayout X86.pcBoot _
    X86.agentSetupStack_pc hempty' [.mapPage 0x60010000] (fun c hc => by
      rw [List.mem_singleton.mp hc]
      trivial) ⟨halloc, trivial⟩).2.1

end OpenAgentOS
