import OpenAgentOS.Vm.TableRules
import OpenAgentOS.Vm.PageMap

/-!
# Page tables stay trees

Every operation of the kernel on page tables keeps the shape that `PageTree` describes,
also where it fails half-way, and whatever addresses a loaded file asks for: a walk uses
39 bits of an address, so a page beyond them is mapped where its low bits lead
(`vmMapPage_mod`).

- `TreeUnder`: what a change below one root does. Tables keep their places, and other
  roots are untouched.
- `TreeInv`: the invariant. The tables are trees, the kernel's root has no entry for the
  second gigabyte, and agents' roots are roots of their own.
- `treeInv_run`: it holds in every run from boot.
-/

namespace OpenAgentOS

open Function

variable {l : Layout} {vm vm' vm'' : Vm} {place place' place'' : Places} {root va : Nat}

/-! ## The bits that a walk uses -/

theorem vpn_mod (va : Nat) {level : Nat} (h : level ≤ 2) :
    vpn level (va % 2 ^ 39) = vpn level va := by
  refine Fin.ext ?_
  show va % 2 ^ 39 / 2 ^ (12 + 9 * level) % 512 = va / 2 ^ (12 + 9 * level) % 512
  obtain rfl | rfl | rfl : level = 0 ∨ level = 1 ∨ level = 2 := by omega
  · omega
  · omega
  · omega

theorem walkFrom_mod (l : Layout) (alloc : Bool) (va : Nat) {n : Nat} (hn : n ≤ 2) :
    ∀ vm pt, walkFrom l alloc (va % 2 ^ 39) n vm pt = walkFrom l alloc va n vm pt := by
  induction n with
  | zero =>
    intro vm pt
    rw [walkFrom, walkFrom, vpn_mod va (by decide)]
  | succ n ih =>
    intro vm pt
    rw [walkFrom, walkFrom, vpn_mod va hn]
    simp only [ih (by omega)]

theorem vmWalk_mod (l : Layout) (vm : Vm) (pt va : Nat) (alloc : Bool) :
    vmWalk l vm pt (va % 2 ^ 39) alloc = vmWalk l vm pt va alloc :=
  walkFrom_mod l alloc va (Nat.le_refl 2) vm pt

/-- **A page beyond 39 bits is mapped where its low bits lead.** -/
theorem vmMapPage_mod (l : Layout) (vm : Vm) (pt va pa perm : Nat) :
    vmMapPage l vm pt (va % 2 ^ 39) pa perm = vmMapPage l vm pt va pa perm := by
  have haligned : va % 2 ^ 39 % pageSize = va % pageSize := Nat.mod_mod_of_dvd _ (by decide)
  rw [vmMapPage, vmMapPage, haligned, vmWalk_mod]

theorem mod_lt_39 (va : Nat) : va % 2 ^ 39 < 2 ^ 39 := Nat.mod_lt _ (by decide)

/-- The entry of a root for an address. -/
theorem root_place (hroot : place root = some (2, 0)) (va : Nat) :
    place root = some (2, tablePrefix 2 (va % 2 ^ 39)) := by
  rw [tablePrefix_two (mod_lt_39 va), hroot]

/-- Where a walk from a root ends. -/
theorem PageTree.vmWalk_place (h : PageTree l vm place) (hroot : place root = some (2, 0))
    {slot : Nat × Fin 512} (hslot : (vmWalk l vm root va false).1 = some slot) :
    place slot.1 = some (0, tablePrefix 0 (va % 2 ^ 39)) ∧ slot.2 = vpn 0 (va % 2 ^ 39) := by
  rw [← vmWalk_mod] at hslot
  exact h.walk_place 2 root (root_place hroot va) hslot

/-! ## Changes below one root -/

/-- Tables have been added below `root` or entries of the last level have changed. -/
structure TreeUnder (l : Layout) (root : Nat) (vm : Vm) (place : Places) (vm' : Vm)
    (place' : Places) : Prop where
  tree : PageTree l vm' place'
  keeps : ∀ p x, place p = some x → place' p = some x
  beside : ∀ p pre, p ≠ root → place p = some (2, pre) → vm'.mem p = vm.mem p

/-- The same, with places for the new tables. -/
def GrowsUnder (l : Layout) (root : Nat) (vm : Vm) (place : Places) (vm' : Vm) : Prop :=
  ∃ place', TreeUnder l root vm place vm' place'

theorem TreeUnder.refl (h : PageTree l vm place) (root : Nat) : TreeUnder l root vm place vm place :=
  ⟨h, fun _ _ hp => hp, fun _ _ _ _ => rfl⟩

theorem TreeUnder.trans (h : TreeUnder l root vm place vm' place')
    (h' : TreeUnder l root vm' place' vm'' place'') : TreeUnder l root vm place vm'' place'' where
  tree := h'.tree
  keeps p x hp := h'.keeps p x (h.keeps p x hp)
  beside p pre hne hp := (h'.beside p pre hne (h.keeps p _ hp)).trans (h.beside p pre hne hp)

theorem GrowsUnder.refl (h : PageTree l vm place) (root : Nat) : GrowsUnder l root vm place vm :=
  ⟨place, .refl h root⟩

theorem GrowsUnder.trans (h : GrowsUnder l root vm place vm')
    (h' : ∀ place', TreeUnder l root vm place vm' place' → GrowsUnder l root vm' place' vm'') :
    GrowsUnder l root vm place vm'' := by
  obtain ⟨place', hunder⟩ := h
  obtain ⟨place'', hunder'⟩ := h' place' hunder
  exact ⟨place'', hunder.trans hunder'⟩

theorem PageTree.setHeap (h : PageTree l vm place) (heapPtr : Nat) :
    PageTree l (vm.setHeap heapPtr) place := ⟨h.fresh, h.link⟩

theorem PageTree.under_setHeap (h : PageTree l vm place) (root heapPtr : Nat) :
    TreeUnder l root vm place (vm.setHeap heapPtr) place :=
  ⟨h.setHeap heapPtr, fun _ _ hp => hp, fun _ _ _ _ => rfl⟩

/-- An entry of the last level is no entry of a root. -/
theorem PageTree.under_write (h : PageTree l vm place) {table pre : Nat}
    (htable : place table = some (0, pre)) (root : Nat) (i : Fin 512) (word : Nat) :
    TreeUnder l root vm place (vm.write table i word) place where
  tree := h.write htable i word
  keeps _ _ hp := hp
  beside p pre' _ hp := by
    refine Vm.write_of_ne ?_
    rintro rfl
    exact absurd (hp.symm.trans htable) (by simp)

/-- A walk that allocates leaves other roots alone. -/
theorem PageTree.walk_beside (h : PageTree l vm place)
    (hroot : place root = some (2, tablePrefix 2 va)) {p pre : Nat} (hne : p ≠ root)
    (hp : place p = some (2, pre)) : (walkFrom l true va 2 vm root).2.mem p = vm.mem p := by
  by_cases hv : hasFlag (vm.mem root (vpn 2 va)) pteV = true
  · rw [walkFrom, walkLevel, if_pos hv]
    obtain ⟨_, hwalk⟩ := PageTree.walk_alloc va 1 vm place _ h (h.child hroot hv)
    exact hwalk.above p 2 pre hp (by decide)
  by_cases hpool : ptPages ≤ vm.ptNext
  · rw [walkFrom, walkLevel, if_neg hv, if_pos rfl, ptAlloc, if_pos hpool]
  have hpool' := Nat.not_le.mp hpool
  rw [Bool.not_eq_true] at hv
  rw [walkFrom, walkLevel_linked hv hpool']
  dsimp only
  -- the root gets a new entry, and the rest happens below it
  have hlink := h.grows_linked hpool' hroot hv
  have hnew : update place (l.poolPage vm.ptNext)
      (some (1, tablePrefix 2 va * 512 + vpn 2 va)) (l.poolPage vm.ptNext) =
      some (1, tablePrefix 1 va) := by
    rw [update_self, tablePrefix_succ 1 va]
  obtain ⟨_, hwalk⟩ := PageTree.walk_alloc va 1 _ _ _ hlink.tree hnew
  rw [hwalk.above p 2 pre (hlink.keeps p _ hp) (by decide)]
  exact linked_mem_of_ne hne (h.ne_next hpool' hp)

/-- **`vm_map_page` changes one root at most.** -/
theorem PageTree.under_vmMapPage (h : PageTree l vm place) (hroot : place root = some (2, 0))
    (va pa perm : Nat) : GrowsUnder l root vm place (vmMapPage l vm root va pa perm).2 := by
  have hplace := root_place hroot va
  rw [← vmMapPage_mod, vmMapPage]
  by_cases haligned : va % 2 ^ 39 % pageSize ≠ 0 ∨ pa % pageSize ≠ 0
  · rw [if_pos haligned]
    exact .refl h root
  rw [if_neg haligned, vmWalk]
  obtain ⟨place', hgrows, -, hwalk⟩ := PageTree.walk_alloc (va % 2 ^ 39) 2 vm place root h hplace
  have hbeside : ∀ p pre, p ≠ root → place p = some (2, pre) →
      (walkFrom l true (va % 2 ^ 39) 2 vm root).2.mem p = vm.mem p :=
    fun p pre hne hp => h.walk_beside hplace hne hp
  rcases hout : walkFrom l true (va % 2 ^ 39) 2 vm root with ⟨_ | ⟨table, i⟩, vm'⟩
  · rw [hout] at hgrows hbeside
    exact ⟨place', hgrows.tree, hgrows.keeps, hbeside⟩
  rw [hout] at hgrows hwalk hbeside
  obtain ⟨htable, -⟩ := hgrows.tree.walk_place 2 root (hgrows.keeps root _ hplace) (hwalk _ rfl)
  have hunder : TreeUnder l root vm place vm' place' := ⟨hgrows.tree, hgrows.keeps, hbeside⟩
  dsimp only
  split_ifs
  · exact ⟨place', hunder⟩
  · exact ⟨place', hunder.trans (hgrows.tree.under_write htable root i _)⟩

/-! ## The loops -/

section Loops

variable (h : PageTree l vm place) (hroot : place root = some (2, 0))

include h hroot

theorem PageTree.under_vmMapPages (perm n va pa : Nat) :
    GrowsUnder l root vm place (vmMapPages l root perm n va pa vm).2 := by
  induction n generalizing va pa vm place with
  | zero => exact .refl h root
  | succ n ih =>
    rw [vmMapPages]
    have hpage := h.under_vmMapPage hroot va pa perm
    split_ifs
    · exact hpage
    · exact hpage.trans fun _ hunder => ih hunder.tree (hunder.keeps _ _ hroot) _ _

omit hroot in
theorem PageTree.under_kallocPage : TreeUnder l root vm place (kallocPage l vm).2 place := by
  obtain ⟨heapPtr, hheap⟩ := kallocPage_snd l vm
  rw [hheap]
  exact h.under_setHeap root heapPtr

theorem PageTree.under_vmMapRegions (regions : List (Nat × Nat × Nat × Nat)) :
    GrowsUnder l root vm place (vmMapRegions l root regions vm).2 := by
  induction regions generalizing vm place with
  | nil => exact .refl h root
  | cons region regions ih =>
    obtain ⟨va, pa, size, perm⟩ := region
    have hregion : GrowsUnder l root vm place (vmMapRegion l vm root va pa size perm).2 :=
      h.under_vmMapPages hroot ..
    rw [vmMapRegions]
    split_ifs
    · exact hregion
    · exact hregion.trans fun _ hunder => ih hunder.tree (hunder.keeps _ _ hroot)

end Loops

/-! ## New roots -/

/-- A new root, a copy of the kernel's, and what has grown below it since. -/
structure NewTree (l : Layout) (pt : Nat) (vm : Vm) (place : Places) (vm' : Vm)
    (place' : Places) : Prop where
  under : TreeUnder l pt vm place vm' place'
  root : place' pt = some (2, 0)
  ne_kernel : pt ≠ l.kernelPt

/-- **A copy of a root is a root**: the tables below it have the same places. -/
theorem PageTree.newRoot (h : PageTree l vm place) (hkernel : place l.kernelPt = some (2, 0))
    (hpool : vm.ptNext < ptPages) :
    NewTree l (l.poolPage vm.ptNext) vm place (OpenAgentOS.newRoot l vm)
      (update place (l.poolPage vm.ptNext) (some (2, 0))) := by
  have hkeeps : ∀ p x, place p = some x →
      update place (l.poolPage vm.ptNext) (some (2, 0)) p = some x := fun p x hp => by
    rwa [update_of_ne (h.ne_next hpool hp)]
  refine ⟨⟨⟨fun k hk hlt => ?_, fun p level pre i hp hv => ?_⟩, hkeeps, fun p _ hne _ => ?_⟩,
    update_self .., poolPage_ne_kernelPt hpool⟩
  · have hk' : vm.ptNext + 1 ≤ k := hk
    rw [update_of_ne fun heq => by have := poolPage_injective heq; omega]
    exact h.fresh k (by omega) hlt
  · by_cases hnew : p = l.poolPage vm.ptNext
    · subst hnew
      rw [update_self] at hp
      obtain ⟨hlevel, rfl⟩ := Prod.mk.inj (Option.some.inj hp)
      obtain rfl := Nat.succ.inj hlevel
      rw [newRoot_self] at hv ⊢
      exact hkeeps _ _ (h.link _ 1 0 i hkernel hv)
    · rw [update_of_ne hnew] at hp
      rw [newRoot_of_ne hnew] at hv ⊢
      exact hkeeps _ _ (h.link p level pre i hp hv)
  · exact newRoot_of_ne hne

/-- `vm_create_agent_pt`, and what is mapped into the new tree. -/
theorem PageTree.newTree (h : PageTree l vm place) (hkernel : place l.kernelPt = some (2, 0))
    {pt : Nat} (hcreate : vmCreateAgentPt l vm = (some pt, vm')) :
    NewTree l pt vm place vm' (update place pt (some (2, 0))) := by
  obtain ⟨hpool, rfl, rfl⟩ := vmCreateAgentPt_some hcreate
  exact h.newRoot hkernel hpool

/-! ## The invariant -/

/-- The page tables of the kernel and of all agents are trees. -/
structure TreeInv (l : Layout) (k : VmKernel) (place : Places) : Prop where
  tree : PageTree l k.vm place
  kernel : place l.kernelPt = some (2, 0)
  /-- The gigabyte of stacks and heaps is free in the kernel's root. -/
  gigabyte : hasFlag (k.vm.mem l.kernelPt 1) pteV = false
  roots : ∀ a pt, (k.agents a).pagetable = some pt → place pt = some (2, 0) ∧ pt ≠ l.kernelPt

/-- The memory of an agent with root `pt` whose stack has been mapped, where `k` is the
state before. Creating and loading an agent both come to this point. -/
def Stacked (l : Layout) (k : VmKernel) (id : Fin maxAgents) (pt : Nat) (vm' : Vm) : Prop :=
  ∃ heapPtr vm stackPa heapPtr', vmCreateAgentPt l (k.vm.setHeap heapPtr) = (some pt, vm) ∧
    vm' = (vmMapUserStack l vm pt id stackPa).2.setHeap heapPtr'

section Stack

variable {k k' : VmKernel} {id : Fin maxAgents}

/-- An agent that was created. -/
theorem agentSetupStack_true (h : agentSetupStack l k id = (true, k')) :
    ∃ pt, Stacked l k id pt k'.vm ∧ k'.agents id = freshHeap id (some pt) := by
  obtain ⟨h₁, hguard⟩ := kallocPage_snd l k.vm
  obtain ⟨h₂, hstack⟩ := kalloc_snd l (k.vm.setHeap h₁) agentStackSize
  simp only [agentSetupStack, VmKernel.setAgent_vm, hguard, hstack] at h
  split_ifs at h
  · cases (Prod.mk.inj h).1
  · cases (Prod.mk.inj h).1
  split at h
  · cases (Prod.mk.inj h).1
  rename_i pt vm hcreate
  obtain ⟨h₃, htf⟩ := kalloc_snd l (vmMapUserStack l vm pt id
    (pageUp (kalloc l (k.vm.setHeap h₁) agentStackSize).1)).2 trapframeSize
  simp only [finishStack, htf] at h
  split_ifs at h
  · cases (Prod.mk.inj h).1
  · cases (Prod.mk.inj h).1
  · obtain rfl := (Prod.mk.inj h).2
    exact ⟨pt, ⟨h₂, vm, _, h₃, hcreate, rfl⟩, VmKernel.setAgent_self ..⟩

/-- `agent_setup_loaded`: failure, or an agent with a stack. -/
theorem agentSetupLoaded_stacked (l : Layout) (k : VmKernel) (id : Fin maxAgents) :
    (agentSetupLoaded l k id).1 = enospc ∨
      ∃ pt vm', Stacked l k id pt vm' ∧ agentSetupLoaded l k id =
        (0, { k with vm := vm' }.setAgent id (freshHeap id (some pt))) := by
  obtain ⟨h₁, hguard⟩ := kallocPage_snd l k.vm
  obtain ⟨h₂, hstack⟩ := kalloc_snd l (k.vm.setHeap h₁) agentStackSize
  simp only [agentSetupLoaded, hguard, hstack]
  split_ifs
  · exact .inl rfl
  · exact .inl rfl
  split
  · exact .inl rfl
  rename_i pt vm hcreate
  obtain ⟨h₃, htf⟩ := kalloc_snd l (vmMapUserStack l vm pt id
    (pageUp (kalloc l (k.vm.setHeap h₁) agentStackSize).1)).2 trapframeSize
  simp only [finishLoaded, htf]
  split_ifs
  · exact .inl rfl
  · exact .inl rfl
  · exact .inr ⟨pt, _, ⟨h₂, vm, _, h₃, hcreate, rfl⟩, rfl⟩

end Stack

/-! ## Every operation keeps the invariant -/

/-- The invariant with these roots and these tables of the lowest level. -/
def TreesWith (l : Layout) (R T : Pages) (vm : Vm) : Prop :=
  ∃ place : Places, PageTree l vm place ∧ place l.kernelPt = some (2, 0) ∧
    hasFlag (vm.mem l.kernelPt 1) pteV = false ∧
    (∀ pt, R pt → place pt = some (2, 0) ∧ pt ≠ l.kernelPt) ∧ ∀ t, T t → ∃ pre, place t = some (0, pre)

theorem treesWith_roots {k : VmKernel} :
    k.Keeps (TreesWith l) ↔ ∃ place, TreeInv l k place := by
  constructor
  · rintro ⟨place, htree, hkernel, hgig, hroots, -⟩
    exact ⟨place, htree, hkernel, hgig, fun a pt ha => hroots pt ⟨a, ha⟩⟩
  · rintro ⟨place, htree, hkernel, hgig, hroots⟩
    exact ⟨place, htree, hkernel, hgig, fun pt ⟨a, ha⟩ => hroots a pt ha, nofun⟩

/-- A change below a root that is not the kernel's. -/
theorem TreeUnder.treesWith {R T : Pages} (h : TreeUnder l root vm place vm' place')
    (hne : root ≠ l.kernelPt) (hkernel : place l.kernelPt = some (2, 0))
    (hgig : hasFlag (vm.mem l.kernelPt 1) pteV = false)
    (hroots : ∀ pt, R pt → place' pt = some (2, 0) ∧ pt ≠ l.kernelPt)
    (htables : ∀ t, T t → ∃ pre, place t = some (0, pre)) : TreesWith l R T vm' := by
  refine ⟨place', h.tree, h.keeps _ _ hkernel, ?_, hroots, fun t ht => ?_⟩
  · rw [h.beside _ _ hne.symm hkernel]
    exact hgig
  · obtain ⟨pre, hpre⟩ := htables t ht
    exact ⟨pre, h.keeps _ _ hpre⟩

theorem treeRules (l : Layout) : TableRules l (fun _ => True) (TreesWith l) where
  heap heapPtr h := by
    obtain ⟨place, htree, hrest⟩ := h
    exact ⟨place, htree.setHeap heapPtr, hrest⟩
  fewer h hR hT := by
    obtain ⟨place, htree, hkernel, hgig, hroots, htables⟩ := h
    exact ⟨place, htree, hkernel, hgig, fun pt hpt => hroots pt (hR pt hpt),
      fun t ht => htables t (hT t ht)⟩
  walk h hroot hslot := by
    obtain ⟨place, htree, hkernel, hgig, hroots, htables⟩ := h
    refine ⟨place, htree, hkernel, hgig, hroots, ?_⟩
    rintro t (rfl | ht)
    · exact ⟨_, (htree.vmWalk_place (hroots _ hroot).1 hslot).1⟩
    · exact htables t ht
  map va pa h hroot _ := by
    obtain ⟨place, htree, hkernel, hgig, hroots, htables⟩ := h
    obtain ⟨place', hunder⟩ := htree.under_vmMapPage (hroots _ hroot).1 va pa _
    exact hunder.treesWith (hroots _ hroot).2 hkernel hgig
      (fun pt hpt => ⟨hunder.keeps _ _ (hroots pt hpt).1, (hroots pt hpt).2⟩) htables
  store i f h ht _ := by
    obtain ⟨place, htree, hkernel, hgig, hroots, htables⟩ := h
    obtain ⟨pre, hpre⟩ := htables _ ht
    -- an entry of the last level is below no root
    exact (htree.under_write hpre (l.kernelPt + 1) i _).treesWith (Nat.succ_ne_self _) hkernel hgig
      hroots htables
  create h hcreate := by
    obtain ⟨place, htree, hkernel, hgig, hroots, htables⟩ := h
    have hnew := htree.newTree hkernel hcreate
    refine hnew.under.treesWith hnew.ne_kernel hkernel hgig ?_ htables
    rintro pt (rfl | hpt)
    · exact ⟨hnew.root, hnew.ne_kernel⟩
    · exact ⟨hnew.under.keeps _ _ (hroots pt hpt).1, (hroots pt hpt).2⟩

/-- **Boot**: the kernel's table is a tree. -/
theorem treeInv_vmBoot (l : Layout) (mem : Nat → Fin 512 → Nat)
    (hgig : hasFlag ((vmInit l mem).mem l.kernelPt 1) pteV = false) :
    ∃ place, TreeInv l (vmBoot l mem) place := by
  let place : Places := fun p => if p = l.kernelPt then some (2, 0) else none
  have hroot : place l.kernelPt = some (2, 0) := if_pos rfl
  have htree : PageTree l (({ mem := mem, ptNext := 0, heapPtr := l.heapStart } : Vm).writePage
      l.kernelPt fun _ => 0) place := by
    refine ⟨fun k _ hk => if_neg (poolPage_ne_kernelPt hk), fun p level pre i hp hv => ?_⟩
    by_cases hpk : p = l.kernelPt
    · rw [hpk, Vm.writePage_self, hasFlag_zero] at hv
      exact absurd hv (by decide)
    · rw [show place p = none from if_neg hpk] at hp
      exact absurd hp nofun
  obtain ⟨place', hunder⟩ := htree.under_vmMapRegions hroot (l.kernelRegions ++ l.userRegions)
  exact ⟨place', hunder.tree, hunder.keeps _ _ hroot, hgig, fun _ _ ha => absurd ha nofun⟩

/-- **Page tables are trees in every run from boot.** -/
theorem treeInv_run {k : VmKernel} (ops : List VmOp) (h : ∃ place, TreeInv l k place) :
    ∃ place, TreeInv l (k.run l ops) place := by
  have hflags : ∀ op : VmOp, op.FlagsOk fun _ => True := by
    rintro (_ | _) <;> first | trivial | exact fun _ _ _ => trivial
  exact treesWith_roots.mp ((treeRules l).run (treesWith_roots.mpr h) trivial trivial ops fun op _ => hflags op)

end OpenAgentOS
