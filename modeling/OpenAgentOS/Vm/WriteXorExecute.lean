import OpenAgentOS.Vm.ElfImage

/-!
# Write xor execute

No entry of an agent's page table should let the agent both write and execute a page
(docs/SYSCALL.md). Permissions come from the linked text and bss, from stacks, from heaps and
copy-on-write, and from the headers of loaded files, which are taken as they are.

- `TableOf`: the tables of a page table, reached from its root by valid entries.
- `CleanTables`: the invariant on memory. Each table has a level, valid entries lead one level down,
  and no entry of a table is writable and executable. New tables are cleared pages of the pool, which
  have had no level before.
- `CleanKernel`: the same with the roots of the kernel and of the agents.
- `writeXorExecute_run`: it holds in every run that loads no file with a segment that is both.
  `not_writeXorExecute_run`: such a file is loaded.
-/

namespace OpenAgentOS

open Function

/-! ## Entries and tables -/

/-- The entry does not let the user both write and execute. -/
def WriteXorExecute (pte : Nat) : Prop :=
  ¬ (hasFlag pte pteU = true ∧ hasFlag pte pteW = true ∧ hasFlag pte pteX = true)

instance (pte : Nat) : Decidable (WriteXorExecute pte) := inferInstanceAs (Decidable (¬ _))

theorem writeXorExecute_zero : WriteXorExecute 0 := by decide

/-- It is a matter of the flags. -/
theorem writeXorExecute_mkPte {flags : Nat} (h : WriteXorExecute flags) (ppn : Nat) :
    WriteXorExecute (mkPte ppn flags) := by
  rw [WriteXorExecute, hasFlag_mkPte _ _ (by decide), hasFlag_mkPte _ _ (by decide),
    hasFlag_mkPte _ _ (by decide)]
  exact h

/-- `p` is a table of the page table with this root, at the given level. -/
inductive TableOf (vm : Vm) (root : Nat) : Nat → Nat → Prop
  | root : TableOf vm root 2 root
  | child {level p : Nat} (i : Fin 512) (h : TableOf vm root (level + 1) p)
      (hvalid : hasFlag (vm.mem p i) pteV = true) : TableOf vm root level (ptePpn (vm.mem p i))

/-- No entry of the page table is writable and executable. -/
def CleanRoot (vm : Vm) (root : Nat) : Prop :=
  ∀ level p, TableOf vm root level p → ∀ i, WriteXorExecute (vm.mem p i)

/-- The levels of the tables. -/
abbrev Levels := Nat → Option Nat

/-- Tables lead to tables one level down, and their entries are not writable and executable. -/
structure CleanTables (l : Layout) (vm : Vm) (level : Levels) : Prop where
  fresh : ∀ k, vm.ptNext ≤ k → k < ptPages → level (l.poolPage k) = none
  link : ∀ p n i, level p = some (n + 1) → hasFlag (vm.mem p i) pteV = true →
    level (ptePpn (vm.mem p i)) = some n
  clean : ∀ p n i, level p = some n → WriteXorExecute (vm.mem p i)

/-- Tables keep their levels. -/
def Extends (level level' : Levels) : Prop := ∀ p n, level p = some n → level' p = some n

/-- The memory is clean with these tables, and possibly more. -/
def GrowsClean (l : Layout) (level : Levels) (vm' : Vm) : Prop :=
  ∃ level', CleanTables l vm' level' ∧ Extends level level'

variable {l : Layout} {vm vm' : Vm} {level level' : Levels} {root va : Nat}

/-- The tables below a root have levels. -/
theorem CleanTables.level_of_tableOf (h : CleanTables l vm level) (hroot : level root = some 2)
    {n p : Nat} (ht : TableOf vm root n p) : level p = some n := by
  induction ht with
  | root => exact hroot
  | child i _ hvalid ih => exact h.link _ _ i ih hvalid

theorem CleanTables.cleanRoot (h : CleanTables l vm level) (hroot : level root = some 2) :
    CleanRoot vm root := fun _ p ht i => h.clean p _ i (h.level_of_tableOf hroot ht)

theorem Extends.refl (level : Levels) : Extends level level := fun _ _ h => h

theorem CleanTables.grows (h : CleanTables l vm level) : GrowsClean l level vm :=
  ⟨level, h, .refl level⟩

/-! ## Writes -/

theorem CleanTables.setHeap (h : CleanTables l vm level) (heapPtr : Nat) :
    CleanTables l (vm.setHeap heapPtr) level := ⟨h.fresh, h.link, h.clean⟩

/-- An entry of the last level is replaced. -/
theorem CleanTables.write (h : CleanTables l vm level) {table : Nat} (htable : level table = some 0)
    (i : Fin 512) {word : Nat} (hword : WriteXorExecute word) :
    CleanTables l (vm.write table i word) level where
  fresh := h.fresh
  link p n j hp hv := by
    have hne : p ≠ table := by
      rintro rfl
      rw [htable] at hp
      exact absurd hp nofun
    rw [Vm.write_of_ne hne] at hv ⊢
    exact h.link p n j hp hv
  clean p n j hp := by
    by_cases hpt : p = table
    · subst hpt
      rw [Vm.write_self]
      by_cases hj : j = i
      · rw [hj, update_self]
        exact hword
      · rw [update_of_ne hj]
        exact h.clean p n j hp
    · rw [Vm.write_of_ne hpt]
      exact h.clean p n j hp

/-- The next page of the pool is no table yet. -/
theorem CleanTables.ne_next (h : CleanTables l vm level) (hpool : vm.ptNext < ptPages) {p n : Nat}
    (hp : level p = some n) : p ≠ l.poolPage vm.ptNext := by
  rintro rfl
  rw [h.fresh _ (Nat.le_refl _) hpool] at hp
  exact absurd hp nofun

/-- The levels with one more table. -/
theorem CleanTables.extends_update (h : CleanTables l vm level) (hpool : vm.ptNext < ptPages) (n : Nat) :
    Extends level (update level (l.poolPage vm.ptNext) (some n)) := fun p m hp => by
  rw [update_of_ne (h.ne_next hpool hp), hp]

/-- The pages of the pool behind the next one. -/
theorem CleanTables.fresh_update (h : CleanTables l vm level) (n : Nat) : ∀ k, vm.ptNext + 1 ≤ k →
    k < ptPages → update level (l.poolPage vm.ptNext) (some n) (l.poolPage k) = none := by
  intro k hk hlt
  rw [update_of_ne fun heq => absurd (poolPage_injective heq) (by omega)]
  exact h.fresh k (by omega) hlt

/-- A missing table is linked in. -/
theorem CleanTables.linked (h : CleanTables l vm level) (hpool : vm.ptNext < ptPages) {pt n : Nat}
    (hpt : level pt = some (n + 1)) (i : Fin 512) :
    CleanTables l (linked l vm pt i) (update level (l.poolPage vm.ptNext) (some n)) := by
  have hne := h.ne_next hpool hpt
  have hext := h.extends_update hpool n
  refine ⟨h.fresh_update n, fun p m j hp hv => ?_, fun p m j hp => ?_⟩
  · -- the new table has no entries, and the new entry leads to it
    by_cases hnew : p = l.poolPage vm.ptNext
    · rw [hnew, linked_mem_new hne, hasFlag_zero] at hv
      exact absurd hv nofun
    rw [update_of_ne hnew] at hp
    by_cases hp' : p = pt
    · subst hp'
      rw [linked_mem_self hne] at hv ⊢
      by_cases hj : j = i
      · obtain rfl : n = m := by
          rw [hpt] at hp
          exact Nat.succ.inj (Option.some.inj hp)
        rw [hj, update_self, ptePpn_mkPte (by decide), update_self]
      · rw [update_of_ne hj] at hv ⊢
        exact hext _ _ (h.link p m j hp hv)
    · rw [linked_mem_of_ne hp' hnew] at hv ⊢
      exact hext _ _ (h.link p m j hp hv)
  · by_cases hnew : p = l.poolPage vm.ptNext
    · rw [hnew, linked_mem_new hne]
      exact writeXorExecute_zero
    rw [update_of_ne hnew] at hp
    by_cases hp' : p = pt
    · subst hp'
      rw [linked_mem_self hne]
      by_cases hj : j = i
      · rw [hj, update_self]
        exact writeXorExecute_mkPte (by decide) _
      · rw [update_of_ne hj]
        exact h.clean p m j hp
    · rw [linked_mem_of_ne hp' hnew]
      exact h.clean p m j hp

/-- A new root, a copy of the kernel's. -/
theorem CleanTables.newRoot (h : CleanTables l vm level) (hkernel : level l.kernelPt = some 2)
    (hpool : vm.ptNext < ptPages) :
    CleanTables l (newRoot l vm) (update level (l.poolPage vm.ptNext) (some 2)) := by
  have hext := h.extends_update hpool 2
  refine ⟨h.fresh_update 2, fun p m j hp hv => ?_, fun p m j hp => ?_⟩
  · by_cases hnew : p = l.poolPage vm.ptNext
    · subst hnew
      rw [update_self] at hp
      obtain rfl : 1 = m := Nat.succ.inj (Option.some.inj hp)
      rw [newRoot_self] at hv ⊢
      exact hext _ _ (h.link _ 1 j hkernel hv)
    · rw [update_of_ne hnew] at hp
      rw [newRoot_of_ne hnew] at hv ⊢
      exact hext _ _ (h.link p m j hp hv)
  · by_cases hnew : p = l.poolPage vm.ptNext
    · rw [hnew, newRoot_self]
      exact h.clean _ 2 j hkernel
    · rw [update_of_ne hnew] at hp
      rw [newRoot_of_ne hnew]
      exact h.clean p m j hp

/-! ## Walking and mapping -/

/-- **A walk**, whether it allocates or not, ends in a table of the last level. -/
theorem CleanTables.walk (alloc : Bool) (va : Nat) (n : Nat) : ∀ vm level pt, CleanTables l vm level →
    level pt = some n → ∃ level', CleanTables l (walkFrom l alloc va n vm pt).2 level' ∧
      Extends level level' ∧
      ∀ slot, (walkFrom l alloc va n vm pt).1 = some slot → level' slot.1 = some 0 := by
  induction n with
  | zero =>
    intro vm level pt h hpt
    refine ⟨level, h, .refl level, fun slot hslot => ?_⟩
    obtain rfl := Option.some.inj hslot
    exact hpt
  | succ n ih =>
    intro vm level pt h hpt
    have hnone : ∃ level', CleanTables l vm level' ∧ Extends level level' ∧
        ∀ slot, (none : Option (Nat × Fin 512)) = some slot → level' slot.1 = some 0 :=
      ⟨level, h, .refl level, nofun⟩
    rw [walkFrom]
    by_cases hv : hasFlag (vm.mem pt (vpn (n + 1) va)) pteV = true
    · rw [walkLevel, if_pos hv]
      exact ih vm level _ h (h.link pt n _ hpt hv)
    cases alloc with
    | false =>
      rw [walkLevel, if_neg hv, if_neg (by decide)]
      exact hnone
    | true =>
      by_cases hpool : ptPages ≤ vm.ptNext
      · rw [walkLevel, if_neg hv, if_pos rfl, ptAlloc, if_pos hpool]
        exact hnone
      · have hpool' := Nat.not_le.mp hpool
        rw [walkLevel_linked (Bool.not_eq_true _ ▸ hv) hpool']
        obtain ⟨level', hclean, hext, hslot⟩ := ih _ _ (l.poolPage vm.ptNext)
          (h.linked hpool' hpt (vpn (n + 1) va)) (update_self ..)
        exact ⟨level', hclean, fun p m hp => hext p m (h.extends_update hpool' n p m hp), hslot⟩

/-- Where a walk without allocation ends. -/
theorem CleanTables.vmWalk_slot (h : CleanTables l vm level) (hroot : level root = some 2)
    {slot : Nat × Fin 512} (hslot : (vmWalk l vm root va false).1 = some slot) :
    ∃ level', CleanTables l vm level' ∧ Extends level level' ∧ level' slot.1 = some 0 := by
  obtain ⟨level', hclean, hext, hend⟩ := CleanTables.walk false va 2 vm level root h hroot
  rw [walkFrom_false_snd] at hclean
  exact ⟨level', hclean, hext, hend slot hslot⟩

/-- **`vm_map_page`** with permissions that are fine. -/
theorem CleanTables.vmMapPage (h : CleanTables l vm level) (hroot : level root = some 2)
    (va pa : Nat) {perm : Nat} (hperm : WriteXorExecute (perm ||| pteV ||| pteStd)) :
    GrowsClean l level (vmMapPage l vm root va pa perm).2 := by
  rw [OpenAgentOS.vmMapPage]
  by_cases haligned : va % pageSize ≠ 0 ∨ pa % pageSize ≠ 0
  · rw [if_pos haligned]
    exact h.grows
  rw [if_neg haligned, vmWalk]
  obtain ⟨level', hclean, hext, hslot⟩ := CleanTables.walk true va 2 vm level root h hroot
  rcases hout : walkFrom l true va 2 vm root with ⟨_ | ⟨table, i⟩, vm'⟩
  · rw [hout] at hclean
    exact ⟨level', hclean, hext⟩
  rw [hout] at hclean hslot
  dsimp only
  split_ifs
  · exact ⟨level', hclean, hext⟩
  · exact ⟨level', hclean.write (hslot _ rfl) i (writeXorExecute_mkPte hperm _), hext⟩

/-! ## The kernel -/

/-- The permissions of a segment that is not both writable and executable. -/
theorem writeXorExecute_segmentPerm {flags : Nat} (hflags : ¬ (flags &&& 2 ≠ 0 ∧ flags &&& 1 ≠ 0)) :
    WriteXorExecute (segmentPerm flags ||| pteV ||| pteStd) := by
  obtain ⟨-, -, hw, hx⟩ := hasFlag_segmentPerm flags
  rintro ⟨-, hw', hx'⟩
  rw [hw, decide_eq_true_iff] at hw'
  rw [hx, decide_eq_true_iff] at hx'
  exact hflags ⟨hw', hx'⟩

/-- No loadable segment of the file is both writable and executable. -/
def ElfFile.WriteXorExecute (f : ElfFile) : Prop :=
  ∀ i, i < f.phnum → f.pType i = 1 → ¬ (f.pFlags i &&& 2 ≠ 0 ∧ f.pFlags i &&& 1 ≠ 0)

/-- Clean memory with the roots of the kernel and of the agents. -/
structure CleanKernel (l : Layout) (k : VmKernel) (level : Levels) : Prop where
  tables : CleanTables l k.vm level
  kernel : level l.kernelPt = some 2
  roots : ∀ a pt, (k.agents a).pagetable = some pt → level pt = some 2

/-- The invariant. -/
def WxClean (l : Layout) (k : VmKernel) : Prop := ∃ level, CleanKernel l k level

/-- The invariant with these roots and these tables of the lowest level. -/
def CleanWith (l : Layout) (R T : Pages) (vm : Vm) : Prop :=
  ∃ level, CleanTables l vm level ∧ level l.kernelPt = some 2 ∧ (∀ pt, R pt → level pt = some 2) ∧
    ∀ t, T t → level t = some 0

theorem cleanWith_roots {k : VmKernel} : k.Keeps (CleanWith l) ↔ WxClean l k := by
  constructor
  · rintro ⟨level, htables, hkernel, hroots, -⟩
    exact ⟨level, htables, hkernel, fun a pt ha => hroots pt ⟨a, ha⟩⟩
  · rintro ⟨level, htables, hkernel, hroots⟩
    exact ⟨level, htables, hkernel, fun pt ⟨a, ha⟩ => hroots a pt ha, nofun⟩

/-- What the kernel does to page tables keeps them clean. -/
theorem cleanRules (l : Layout) : TableRules l WriteXorExecute (CleanWith l) where
  heap heapPtr h := by
    obtain ⟨level, htables, hrest⟩ := h
    exact ⟨level, htables.setHeap heapPtr, hrest⟩
  fewer h hR hT := by
    obtain ⟨level, htables, hkernel, hroots, hlow⟩ := h
    exact ⟨level, htables, hkernel, fun pt hpt => hroots pt (hR pt hpt), fun t ht => hlow t (hT t ht)⟩
  walk h hroot hslot := by
    obtain ⟨level, htables, hkernel, hroots, hlow⟩ := h
    obtain ⟨level', hclean, hext, hend⟩ := htables.vmWalk_slot (hroots _ hroot) hslot
    refine ⟨level', hclean, hext _ _ hkernel, fun pt hpt => hext _ _ (hroots pt hpt), ?_⟩
    rintro t (rfl | ht)
    · exact hend
    · exact hext _ _ (hlow t ht)
  map va pa h hroot hperm := by
    obtain ⟨level, htables, hkernel, hroots, hlow⟩ := h
    obtain ⟨level', hclean, hext⟩ := htables.vmMapPage (hroots _ hroot) va pa hperm
    exact ⟨level', hclean, hext _ _ hkernel, fun pt hpt => hext _ _ (hroots pt hpt),
      fun t ht => hext _ _ (hlow t ht)⟩
  store i f h ht hflags := by
    obtain ⟨level, htables, hkernel, hroots, hlow⟩ := h
    exact ⟨level, htables.write (hlow _ ht) i (writeXorExecute_mkPte hflags f), hkernel, hroots, hlow⟩
  create h hcreate := by
    obtain ⟨level, htables, hkernel, hroots, hlow⟩ := h
    obtain ⟨hpool, rfl, rfl⟩ := vmCreateAgentPt_some hcreate
    have hext := htables.extends_update hpool 2
    refine ⟨_, htables.newRoot hkernel hpool, hext _ _ hkernel, ?_, fun t ht => hext _ _ (hlow t ht)⟩
    rintro pt (rfl | hpt)
    · exact update_self ..
    · exact hext _ _ (hroots pt hpt)

/-- **Boot.** What the kernel maps for itself is not for users, and text and bss are apart. -/
theorem clean_vmBoot (l : Layout) (mem : Nat → Fin 512 → Nat) : WxClean l (vmBoot l mem) := by
  have hstart : CleanTables l
      (({ mem := mem, ptNext := 0, heapPtr := l.heapStart } : Vm).writePage l.kernelPt fun _ => 0)
      fun p => if p = l.kernelPt then some 2 else none := by
    have hzero : ∀ p n, (if p = l.kernelPt then some 2 else none) = some n → p = l.kernelPt := by
      intro p n hp
      by_contra hne
      rw [if_neg hne] at hp
      cases hp
    refine ⟨fun k _ hk => if_neg (poolPage_ne_kernelPt hk), fun p n i hp hv => ?_,
      fun p n i hp => ?_⟩
    · rw [hzero p _ hp, Vm.writePage_self, hasFlag_zero] at hv
      cases hv
    · rw [hzero p _ hp, Vm.writePage_self]
      exact writeXorExecute_zero
  have hperm : ∀ r ∈ l.kernelRegions ++ l.userRegions,
      WriteXorExecute (r.2.2.2 ||| pteV ||| pteStd) := by
    intro r hr
    simp only [Layout.kernelRegions, Layout.userRegions, List.mem_append, List.mem_ite_nil_right,
      List.mem_cons, List.not_mem_nil, or_false] at hr
    rcases hr with (((rfl | ⟨-, rfl⟩) | rfl | rfl | rfl | rfl) | ⟨-, rfl⟩) | ⟨-, rfl⟩ | ⟨-, rfl⟩ <;>
      dsimp only <;> decide
  have hroot : CleanWith l (· = l.kernelPt) (fun _ => False)
      (({ mem := mem, ptNext := 0, heapPtr := l.heapStart } : Vm).writePage l.kernelPt fun _ => 0) :=
    ⟨_, hstart, if_pos rfl, fun _ hpt => if_pos hpt, fun _ h => h.elim⟩
  obtain ⟨level, htables, hkernel, -⟩ := (cleanRules l).vmMapRegions hroot rfl hperm
  exact ⟨level, htables, hkernel, by simp [vmBoot]⟩

/-! ## Runs -/

/-- The operation loads no file with a segment that is writable and executable. -/
def VmOp.WriteXorExecute : VmOp → Prop
  | .load _ elf => elf.WriteXorExecute
  | _ => True

theorem VmOp.WriteXorExecute.flagsOk {op : VmOp} (h : op.WriteXorExecute) :
    op.FlagsOk OpenAgentOS.WriteXorExecute := by
  cases op with
  | load id elf => exact fun i hi htype => writeXorExecute_segmentPerm (h i hi htype)
  | _ => trivial

theorem clean_run {k : VmKernel} (h : WxClean l k) (ops : List VmOp)
    (hops : ∀ op ∈ ops, op.WriteXorExecute) : WxClean l (k.run l ops) :=
  cleanWith_roots.mp ((cleanRules l).run (cleanWith_roots.mpr h) (by decide) (by decide) ops
    fun op hop => (hops op hop).flagsOk)

/-- **Write xor execute.** In every run from boot that loads no file with a segment that is both
writable and executable, no entry of an agent's page table is. -/
theorem writeXorExecute_run (l : Layout) (mem : Nat → Fin 512 → Nat) (ops : List VmOp)
    (hops : ∀ op ∈ ops, op.WriteXorExecute) (a : Fin maxAgents) (pt : Nat)
    (hpt : (((vmBoot l mem).run l ops).agents a).pagetable = some pt) :
    CleanRoot ((vmBoot l mem).run l ops).vm pt := by
  obtain ⟨level, hinv⟩ := clean_run (clean_vmBoot l mem) ops hops
  exact hinv.tables.cleanRoot (hinv.roots a pt hpt)

/-- The page of `highElf` is executable only. -/
theorem highElf_writeXorExecute : highElf.WriteXorExecute := by
  have hone : highElf.phnum = 1 := by decide +kernel
  exact forall_lt_phnum_one hone fun _ => by decide +kernel

theorem writeXorExecute_run_highElf : ∃ pt,
    (((vmBoot virtLayout fun _ _ => 0).run virtLayout
      [.create 1, .load 2 highElf, .heapMap 2 0, .heapCow 2 1 0]).agents 2).pagetable = some pt ∧
    CleanRoot ((vmBoot virtLayout fun _ _ => 0).run virtLayout
      [.create 1, .load 2 highElf, .heapMap 2 0, .heapCow 2 1 0]).vm pt := by
  have hsome : (((vmBoot virtLayout fun _ _ => 0).run virtLayout
      [.create 1, .load 2 highElf, .heapMap 2 0, .heapCow 2 1 0]).agents 2).pagetable.isSome = true := by
    rw [vmBoot_virtLayout]
    decide +kernel
  obtain ⟨pt, hpt⟩ := Option.isSome_iff_exists.mp hsome
  refine ⟨pt, hpt, writeXorExecute_run _ _ _ ?_ 2 pt hpt⟩
  simp only [List.forall_mem_cons, VmOp.WriteXorExecute, List.not_mem_nil, false_imp_iff,
    implies_true, and_true, true_and]
  exact highElf_writeXorExecute

/-- The same file with all three permissions. -/
def wxElf : ElfFile where
  bytes := update highElf.bytes 68 7
  len := 120

/-- **A file with a segment that is both** is loaded, and the agent can write and execute the page. -/
theorem not_writeXorExecute_run :
    (agentLoad virtLayout (vmBoot virtLayout fun _ _ => 0) 1 wxElf).1 = 1 ∧
    ∃ pt, (((vmBoot virtLayout fun _ _ => 0).run virtLayout [.load 1 wxElf]).agents 1).pagetable =
        some pt ∧
      ¬ CleanRoot ((vmBoot virtLayout fun _ _ => 0).run virtLayout [.load 1 wxElf]).vm pt := by
  rw [vmBoot_virtLayout]
  refine ⟨by decide +kernel, 0x80808, by decide +kernel, fun h => ?_⟩
  have hentry := h 0 _ ((TableOf.root.child 3 (by decide +kernel)).child 0 (by decide +kernel)) 0
  revert hentry
  decide +kernel

end OpenAgentOS
