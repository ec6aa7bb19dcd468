import OpenAgentOS.Vm.Sv39

/-!
# Who owns which page table

Every node page belongs to one root: the kernel's, or the page that
`vm_create_agent_pt` handed out to an agent. An agent's root starts as a copy of
the kernel's, so the subtrees that the kernel had filled by then are shared and
belong to the kernel; everything the agent adds elsewhere is its own.

- `Forest`: this picture, with the owner and the level of each node page as a
  ghost function.
- `Grows R`: a change that leaves the pages of all roots other than `R` alone.
  Translations from other roots survive it (`Grows.translation`).
- `Mappable`: where `R` may get new entries. For an agent these are the entries
  of the root that the kernel leaves empty.
- `Sprouts pt`: a change that adds the root `pt` and leaves all older pages alone.
- `growsTo_vmMapPage`, `growsTo_vmMapPages`, `forest_vmInit`,
  `sprouts_vmCreateAgentPt`: what the code does to the forest.
-/

namespace OpenAgentOS

open Function

/-- The root a node page belongs to, and its level. -/
abbrev Ownership := Nat → Option (Nat × Nat)

variable {l : Layout} {vm vm' vm'' : Vm} {own own' own'' : Ownership} {root : Nat}

/-- The node pages form one tree per root, apart from what agents share with the
kernel. -/
structure Forest (l : Layout) (vm : Vm) (own : Ownership) : Prop where
  /-- Pool pages that were not handed out belong to nobody. -/
  fresh : ∀ k, vm.ptNext ≤ k → k < ptPages → own (l.poolPage k) = none
  kernel : own l.kernelPt = some (l.kernelPt, 2)
  rooted : ∀ p root level, own p = some (root, level) → own root = some (root, 2)
  /-- An entry leads to a page of the same root, or it is one of the kernel's. -/
  link : ∀ p root level i, own p = some (root, level + 1) → hasFlag (vm.mem p i) pteV = true →
    own (ptePpn (vm.mem p i)) = some (root, level) ∨
      (p = root ∧ hasFlag (vm.mem l.kernelPt i) pteV = true ∧
        own (ptePpn (vm.mem p i)) = some (l.kernelPt, level))
  /-- Roots have the kernel's entries. -/
  shared : ∀ p i, own p = some (p, 2) → hasFlag (vm.mem l.kernelPt i) pteV = true →
    vm.mem p i = vm.mem l.kernelPt i

/-- From `vm` to `vm'` only pages of `root` have changed, and none of the new
pages is a root. -/
structure Grows (root : Nat) (vm : Vm) (own : Ownership) (vm' : Vm) (own' : Ownership) : Prop where
  keeps : ∀ p x, own p = some x → own' p = some x
  frame : ∀ p root' level, own p = some (root', level) → root' ≠ root → vm'.mem p = vm.mem p
  roots : ∀ p, own' p = some (p, 2) → own p = some (p, 2)

namespace Grows

theorem refl (root : Nat) (vm : Vm) (own : Ownership) : Grows root vm own vm own :=
  ⟨fun _ _ h => h, fun _ _ _ _ _ => rfl, fun _ h => h⟩

theorem trans (h : Grows root vm own vm' own') (h' : Grows root vm' own' vm'' own'') :
    Grows root vm own vm'' own'' where
  keeps p x hp := h'.keeps p x (h.keeps p x hp)
  frame p root' level hp hne :=
    (h'.frame p root' level (h.keeps p _ hp) hne).trans (h.frame p root' level hp hne)
  roots p hp := h.roots p (h'.roots p hp)

end Grows

/-! ## Translations -/

theorem walkFrom_false_snd (va : Nat) : ∀ (n : Nat) (vm : Vm) (pt : Nat),
    (walkFrom l false va n vm pt).2 = vm := by
  intro n
  induction n with
  | zero => exact fun _ _ => rfl
  | succ n ih =>
    intro vm pt
    rw [walkFrom, walkLevel]
    by_cases h : hasFlag (vm.mem pt (vpn (n + 1) va)) pteV = true
    · rw [if_pos h]
      exact ih vm _
    · rw [if_neg h, if_neg (by decide)]

/-- A walk from `root` stays on the pages of `root` and of the kernel, so two
memories that agree there give the same result. -/
theorem walkFrom_congr (hf : Forest l vm own)
    (hagree : ∀ p level, own p = some (root, level) ∨ own p = some (l.kernelPt, level) →
      vm'.mem p = vm.mem p) (va : Nat) : ∀ (n pt : Nat),
    (own pt = some (root, n) ∨ own pt = some (l.kernelPt, n)) →
    (walkFrom l false va n vm' pt).1 = (walkFrom l false va n vm pt).1 ∧
      ∀ slot, (walkFrom l false va n vm pt).1 = some slot →
        own slot.1 = some (root, 0) ∨ own slot.1 = some (l.kernelPt, 0) := by
  intro n
  induction n with
  | zero =>
    intro pt hpt
    refine ⟨rfl, fun slot hslot => ?_⟩
    obtain rfl := Option.some.inj hslot
    exact hpt
  | succ n ih =>
    intro pt hpt
    have hmem := hagree pt (n + 1) hpt
    rw [walkFrom, walkFrom, walkLevel, walkLevel, hmem]
    by_cases hv : hasFlag (vm.mem pt (vpn (n + 1) va)) pteV = true
    · rw [if_pos hv, if_pos hv]
      refine ih _ ?_
      rcases hpt with hpt | hpt
      · rcases hf.link pt root n _ hpt hv with h | ⟨-, -, h⟩
        · exact .inl h
        · exact .inr h
      · rcases hf.link pt _ n _ hpt hv with h | ⟨-, -, h⟩
        · exact .inr h
        · exact .inr h
    · rw [if_neg hv, if_neg hv, if_neg (by decide), if_neg (by decide)]
      exact ⟨rfl, fun slot hslot => by cases hslot⟩

/-- **Translations from other roots survive.** -/
theorem translation_congr (hf : Forest l vm own) (hroot : own root = some (root, 2))
    (hagree : ∀ p level, own p = some (root, level) ∨ own p = some (l.kernelPt, level) →
      vm'.mem p = vm.mem p) (va : Nat) : translation l vm' root va = translation l vm root va := by
  obtain ⟨hwalk, hslot⟩ := walkFrom_congr hf hagree va 2 root (.inl hroot)
  rw [translation, translation, vmWalk, vmWalk, hwalk]
  cases h : (walkFrom l false va 2 vm root).1 with
  | none => rfl
  | some slot => rw [Option.map_some, Option.map_some, hagree slot.1 0 (hslot slot h)]

theorem Grows.translation (h : Grows root vm own vm' own') (hf : Forest l vm own)
    (hkernel : root ≠ l.kernelPt) {pt : Nat} (hpt : own pt = some (pt, 2)) (hne : pt ≠ root)
    (va : Nat) : translation l vm' pt va = translation l vm pt va := by
  refine translation_congr hf hpt (fun p level hp => ?_) va
  rcases hp with hp | hp
  · exact h.frame p pt level hp hne
  · exact h.frame p l.kernelPt level hp hkernel.symm

/-! ## New tables -/

/-- `root` may get a new entry at index `i` of its root page: the kernel's entry
is empty there, or `root` is the kernel and no agent has copied it yet. -/
def Mappable (l : Layout) (vm : Vm) (own : Ownership) (root : Nat) (i : Fin 512) : Prop :=
  (root ≠ l.kernelPt ∧ hasFlag (vm.mem l.kernelPt i) pteV = false) ∨
    (root = l.kernelPt ∧ ∀ p, own p = some (p, 2) → p = l.kernelPt)

theorem Mappable.grows {i : Fin 512} (h : Mappable l vm own root i) (hf : Forest l vm own)
    (hg : Grows root vm own vm' own') : Mappable l vm' own' root i := by
  rcases h with ⟨hne, hempty⟩ | ⟨heq, hroots⟩
  · refine .inl ⟨hne, ?_⟩
    rwa [hg.frame _ _ _ hf.kernel hne.symm]
  · exact .inr ⟨heq, fun p hp => hroots p (hg.roots p hp)⟩

theorem poolPage_ne_kernelPt {k : Nat} (hk : k < ptPages) : l.poolPage k ≠ l.kernelPt := by
  have := l.root_outside
  simp only [Layout.poolPage, Layout.kernelPt]
  omega

theorem hasFlag_zero (flag : Nat) : hasFlag 0 flag = false := by
  simp [hasFlag]

theorem hasFlag_mkPte_pteV (ppn : Nat) : hasFlag (mkPte ppn pteV) pteV = true := by
  have h : mkPte ppn pteV = ppn * 2 ^ 10 + 1 := by
    rw [mkPte, ← Nat.shiftLeft_add_eq_or_of_lt (by decide), Nat.shiftLeft_eq]
  rw [hasFlag, h, Nat.and_one_is_mod, show (ppn * 2 ^ 10 + 1) % 2 = 1 by omega]
  rfl

theorem poolPage_injective {k k' : Nat} (h : l.poolPage k = l.poolPage k') : k = k' :=
  Nat.add_left_cancel h

section NewTable

variable {pt level : Nat} {i : Fin 512}

/-- The memory after entry `i` of `pt` was linked to a cleared pool page. -/
def linked (l : Layout) (vm : Vm) (pt : Nat) (i : Fin 512) : Vm :=
  ({ vm with ptNext := vm.ptNext + 1 }.writePage (l.poolPage vm.ptNext) fun _ => 0).write pt i
    (mkPte (l.poolPage vm.ptNext) pteV)

theorem linked_mem_self (hne : pt ≠ l.poolPage vm.ptNext) :
    (linked l vm pt i).mem pt
      = update (vm.mem pt) i (mkPte (l.poolPage vm.ptNext) pteV) := by
  rw [linked, Vm.write_self, Vm.writePage_of_ne hne]

theorem linked_mem_of_ne {p : Nat} (hp : p ≠ pt) (hnew : p ≠ l.poolPage vm.ptNext) :
    (linked l vm pt i).mem p = vm.mem p := by
  rw [linked, Vm.write_of_ne hp, Vm.writePage_of_ne hnew]

theorem linked_mem_new (hne : pt ≠ l.poolPage vm.ptNext) :
    (linked l vm pt i).mem (l.poolPage vm.ptNext) = fun _ => 0 := by
  rw [linked, Vm.write_of_ne hne.symm, Vm.writePage_self]

variable (hf : Forest l vm own) (hpool : vm.ptNext < ptPages)
  (hpt : own pt = some (root, level + 1)) (hlevel : level < 2)
  (hmap : pt = root → Mappable l vm own root i)

include hf hpool

/-- A page with an owner is not the next one of the pool. -/
theorem ne_nextPage {p : Nat} {x : Nat × Nat} (hp : own p = some x) :
    p ≠ l.poolPage vm.ptNext := by
  rintro rfl
  rw [hf.fresh _ (Nat.le_refl _) hpool] at hp
  cases hp

include hpt hlevel hmap

/-- Linking a new table keeps the forest; the new page belongs to the same root. -/
theorem forest_linked :
    Forest l (linked l vm pt i)
      (update own (l.poolPage vm.ptNext) (some (root, level))) := by
  have hne := ne_nextPage hf hpool hpt
  have hkernel := ne_nextPage hf hpool hf.kernel
  -- an entry of the kernel that was valid still is
  have hvalid : ∀ j, hasFlag (vm.mem l.kernelPt j) pteV = true →
      hasFlag ((linked l vm pt i).mem l.kernelPt j) pteV = true := by
    intro j hj
    by_cases hk : l.kernelPt = pt
    · rw [hk, linked_mem_self hne]
      by_cases hji : j = i
      · rw [hji, update_self]
        exact hasFlag_mkPte_pteV _
      · rwa [update_of_ne hji, ← hk]
    · rwa [linked_mem_of_ne hk hkernel]
  refine ⟨fun k hk hlt => ?_, ?_, fun p root' level' hp => ?_, fun p root' level' j hp hv => ?_,
    fun p j hp hv => ?_⟩
  · have hk' : vm.ptNext + 1 ≤ k := hk
    rw [update_of_ne fun h => by have := poolPage_injective h; omega]
    exact hf.fresh k (by omega) hlt
  · rw [update_of_ne hkernel]
    exact hf.kernel
  · have hroot' : own root' = some (root', 2) := by
      by_cases hnew : p = l.poolPage vm.ptNext
      · rw [hnew, update_self] at hp
        obtain ⟨rfl, -⟩ := Prod.mk.inj (Option.some.inj hp)
        exact hf.rooted _ _ _ hpt
      · rw [update_of_ne hnew] at hp
        exact hf.rooted p root' level' hp
    rwa [update_of_ne (ne_nextPage hf hpool hroot')]
  · by_cases hnew : p = l.poolPage vm.ptNext
    · rw [hnew, linked_mem_new hne, hasFlag_zero] at hv
      cases hv
    rw [update_of_ne hnew] at hp
    by_cases hnewEntry : p = pt ∧ j = i
    · -- the new entry
      obtain ⟨rfl, rfl⟩ := hnewEntry
      rw [hpt] at hp
      obtain ⟨rfl, hlev⟩ := Prod.mk.inj (Option.some.inj hp)
      obtain rfl := Nat.succ.inj hlev
      left
      rw [linked_mem_self hne, update_self, ptePpn_mkPte (by decide),
        update_self]
    · have hsame : (linked l vm pt i).mem p j = vm.mem p j := by
        by_cases hppt : p = pt
        · rw [hppt, linked_mem_self hne, update_of_ne fun h => hnewEntry ⟨hppt, h⟩]
        · rw [linked_mem_of_ne hppt hnew]
      rw [hsame] at hv ⊢
      rcases hf.link p root' level' j hp hv with h | ⟨hroot, hk, h⟩
      · exact .inl (by rw [update_of_ne (ne_nextPage hf hpool h)]; exact h)
      · exact .inr ⟨hroot, hvalid j hk, by rw [update_of_ne (ne_nextPage hf hpool h)]; exact h⟩
  · have hnew : p ≠ l.poolPage vm.ptNext := by
      rintro rfl
      rw [update_self] at hp
      have := (Prod.mk.inj (Option.some.inj hp)).2
      omega
    rw [update_of_ne hnew] at hp
    by_cases hk : l.kernelPt = pt
    · -- the kernel's own tree grows: it is the only root
      have hroot : root = l.kernelPt := by
        rw [← hk, hf.kernel] at hpt
        exact (Prod.mk.inj (Option.some.inj hpt)).1.symm
      rcases hmap (hk.symm.trans hroot.symm) with ⟨hne', -⟩ | ⟨-, hroots⟩
      · exact absurd hroot hne'
      · rw [hroots p hp]
    · rw [linked_mem_of_ne hk hkernel] at hv ⊢
      by_cases hppt : p = pt
      · -- the root of an agent grows where the kernel has nothing
        subst hppt
        obtain ⟨rfl, -⟩ := Prod.mk.inj (Option.some.inj (hpt.symm.trans hp))
        rcases hmap rfl with ⟨-, hempty⟩ | ⟨heq, -⟩
        · have hji : j ≠ i := by
            rintro rfl
            rw [hempty] at hv
            cases hv
          rw [linked_mem_self hne, update_of_ne hji]
          exact hf.shared _ j hp hv
        · exact absurd heq.symm hk
      · rw [linked_mem_of_ne hppt hnew]
        exact hf.shared p j hp hv

omit hmap in
theorem grows_linked :
    Grows root vm own (linked l vm pt i)
      (update own (l.poolPage vm.ptNext) (some (root, level))) := by
  refine ⟨fun p x hp => ?_, fun p root' level' hp hne => ?_, fun p hp => ?_⟩
  · rwa [update_of_ne (ne_nextPage hf hpool hp)]
  · refine linked_mem_of_ne ?_ (ne_nextPage hf hpool hp)
    rintro rfl
    exact hne (Prod.mk.inj (Option.some.inj (hp.symm.trans hpt))).1
  · by_cases hnew : p = l.poolPage vm.ptNext
    · rw [hnew, update_self] at hp
      have := (Prod.mk.inj (Option.some.inj hp)).2
      omega
    · rwa [update_of_ne hnew] at hp

end NewTable

/-- One level of a walk that links a missing table. -/
theorem walkLevel_linked {pt : Nat} {i : Fin 512} (h : hasFlag (vm.mem pt i) pteV = false)
    (hnext : vm.ptNext < ptPages) :
    walkLevel l true vm pt i = (some (l.poolPage vm.ptNext), linked l vm pt i) := by
  rw [walkLevel, if_neg (by rw [h]; decide), if_pos rfl, ptAlloc, if_neg (by omega)]
  rfl

/-! ## Walking with allocation -/

/-- Where `root` may be extended, its tables lead to its own tables. -/
theorem Forest.child_owned (hf : Forest l vm own) (hroot : own root = some (root, 2))
    {pt n va : Nat} (hpt : own pt = some (root, n + 1))
    (hmap : Mappable l vm own root (vpn 2 va))
    (hv : hasFlag (vm.mem pt (vpn (n + 1) va)) pteV = true) :
    own (ptePpn (vm.mem pt (vpn (n + 1) va))) = some (root, n) := by
  rcases hf.link pt root n _ hpt hv with h | ⟨rfl, hk, h⟩
  · exact h
  · -- a shared entry of the root page: then the root is the kernel's
    have hlevel := (Prod.mk.inj (Option.some.inj (hpt.symm.trans hroot))).2
    rw [hlevel] at hk
    rcases hmap with ⟨-, hempty⟩ | ⟨hkernel, -⟩
    · rw [hempty] at hk
      cases hk
    · rw [h, hkernel]

/-- There, a walk ends in a table of `root`. -/
theorem walkFrom_owned (hf : Forest l vm own) (hroot : own root = some (root, 2)) {va : Nat}
    (hmap : Mappable l vm own root (vpn 2 va)) : ∀ (n pt : Nat) (slot : Nat × Fin 512),
    own pt = some (root, n) → (walkFrom l false va n vm pt).1 = some slot →
      own slot.1 = some (root, 0) := by
  intro n
  induction n with
  | zero =>
    intro pt slot hpt hslot
    obtain rfl := Option.some.inj hslot
    exact hpt
  | succ n ih =>
    intro pt slot hpt hslot
    rw [walkFrom, walkLevel] at hslot
    by_cases hv : hasFlag (vm.mem pt (vpn (n + 1) va)) pteV = true
    · rw [if_pos hv] at hslot
      exact ih _ slot (hf.child_owned hroot hpt hmap hv) hslot
    · rw [if_neg hv, if_neg (by decide)] at hslot
      cases hslot

/-- **A walk that allocates** grows the tree of `root` only, and ends in a table
of `root`. -/
theorem grows_walkFrom (va : Nat) : ∀ (n : Nat) (vm : Vm) (own : Ownership) (pt : Nat),
    n ≤ 2 → Forest l vm own → own root = some (root, 2) → own pt = some (root, n) →
    Mappable l vm own root (vpn 2 va) →
    ∃ own', Forest l (walkFrom l true va n vm pt).2 own' ∧
      Grows root vm own (walkFrom l true va n vm pt).2 own' ∧
      ∀ slot, (walkFrom l true va n vm pt).1 = some slot → own' slot.1 = some (root, 0) := by
  intro n
  induction n with
  | zero =>
    intro vm own pt _ hf _ hpt _
    refine ⟨own, hf, .refl root vm own, fun slot hslot => ?_⟩
    obtain rfl := Option.some.inj hslot
    exact hpt
  | succ n ih =>
    intro vm own pt hn hf hroot hpt hmap
    -- only the root page itself is of level two
    have hmap' : pt = root → Mappable l vm own root (vpn (n + 1) va) := by
      rintro rfl
      have hlevel := (Prod.mk.inj (Option.some.inj (hpt.symm.trans hroot))).2
      rwa [hlevel]
    rw [walkFrom, walkLevel]
    by_cases hv : hasFlag (vm.mem pt (vpn (n + 1) va)) pteV = true
    · rw [if_pos hv]
      exact ih vm own _ (by omega) hf hroot (hf.child_owned hroot hpt hmap hv) hmap
    · rw [if_neg hv, if_pos rfl, ptAlloc]
      by_cases hpool : ptPages ≤ vm.ptNext
      · rw [if_pos hpool]
        exact ⟨own, hf, .refl root vm own, fun slot hslot => by cases hslot⟩
      · rw [if_neg hpool]
        have hpool' := Nat.not_le.mp hpool
        have hgrow := grows_linked (i := vpn (n + 1) va) hf hpool' hpt (by omega)
        obtain ⟨own', hf', hgrow', hslot⟩ := ih _ _ (l.poolPage vm.ptNext) (by omega)
          (forest_linked hf hpool' hpt (by omega) hmap') (hgrow.keeps _ _ hroot)
          (update_self _ _ _) (hmap.grows hf hgrow)
        exact ⟨own', hf', hgrow.trans hgrow', hslot⟩

/-! ## Mapping -/

/-- Only the tables and `pt_next` matter for the forest. -/
theorem Forest.congr (hf : Forest l vm own) (hmem : vm'.mem = vm.mem)
    (hnext : vm'.ptNext = vm.ptNext) : Forest l vm' own := by
  obtain ⟨hfresh, hkernel, hrooted, hlink, hshared⟩ := hf
  exact ⟨by rwa [hnext], hkernel, hrooted, by rwa [hmem], by rwa [hmem]⟩

theorem Grows.of_mem_eq (hmem : vm'.mem = vm.mem) : Grows root vm own vm' own :=
  ⟨fun _ _ h => h, fun p _ _ _ _ => by rw [hmem], fun _ h => h⟩

section Leaf

variable {table : Nat} (htable : own table = some (root, 0)) (i : Fin 512) (word : Nat)

include htable

/-- Entries of the last level say nothing about the forest. -/
theorem forest_write (hf : Forest l vm own) : Forest l (vm.write table i word) own := by
  have hmem : ∀ p x, own p = some (x, 2) ∨ (∃ level, own p = some (x, level + 1)) →
      (vm.write table i word).mem p = vm.mem p := by
    intro p x hp
    refine Vm.write_of_ne ?_
    rintro rfl
    rw [htable] at hp
    simp at hp
  refine ⟨hf.fresh, hf.kernel, hf.rooted, fun p root' level j hp hv => ?_, fun p j hp hv => ?_⟩
  · rw [hmem p root' (.inr ⟨level, hp⟩)] at hv ⊢
    rw [hmem l.kernelPt _ (.inl hf.kernel)]
    exact hf.link p root' level j hp hv
  · rw [hmem l.kernelPt _ (.inl hf.kernel)] at hv ⊢
    rw [hmem p p (.inl hp)]
    exact hf.shared p j hp hv

theorem grows_write : Grows root vm own (vm.write table i word) own := by
  refine ⟨fun _ _ h => h, fun p root' level hp hne => Vm.write_of_ne ?_, fun _ h => h⟩
  rintro rfl
  exact hne (Prod.mk.inj (Option.some.inj (hp.symm.trans htable))).1

end Leaf

/-- The memory `vm'` comes from `vm` by growing the tree of `root`. -/
def GrowsTo (l : Layout) (root : Nat) (vm : Vm) (own : Ownership) (vm' : Vm) : Prop :=
  ∃ own', Forest l vm' own' ∧ Grows root vm own vm' own'

theorem GrowsTo.refl (hf : Forest l vm own) (root : Nat) : GrowsTo l root vm own vm :=
  ⟨own, hf, .refl root vm own⟩

/-- Taking memory from the heap does not touch tables. -/
theorem GrowsTo.heap (hf : Forest l vm own) (root heapPtr : Nat) :
    GrowsTo l root vm own (vm.setHeap heapPtr) :=
  ⟨own, hf.congr rfl rfl, .of_mem_eq rfl⟩

/-- **`vm_map_page` grows the tree it is given**, whether it succeeds or not. -/
theorem growsTo_vmMapPage (hf : Forest l vm own) (hroot : own root = some (root, 2)) {va : Nat}
    (hmap : Mappable l vm own root (vpn 2 va)) (pa perm : Nat) :
    GrowsTo l root vm own (vmMapPage l vm root va pa perm).2 := by
  obtain ⟨own', hf', hgrow, hslot⟩ := grows_walkFrom va 2 vm own root (Nat.le_refl 2) hf hroot
    hroot hmap
  rw [vmMapPage]
  split_ifs
  · exact .refl hf root
  · rw [vmWalk]
    split
    · rename_i vm' hwalk
      rw [hwalk] at hf' hgrow
      exact ⟨own', hf', hgrow⟩
    · rename_i table i vm' hwalk
      rw [hwalk] at hf' hgrow hslot
      split_ifs
      · exact ⟨own', hf', hgrow⟩
      · have htable := hslot (table, i) rfl
        exact ⟨own', forest_write htable i _ hf', hgrow.trans (grows_write htable i _)⟩

/-- Growing goes on while there are steps that grow. -/
theorem GrowsTo.trans (h : GrowsTo l root vm own vm')
    (h' : ∀ own', Forest l vm' own' → Grows root vm own vm' own' → GrowsTo l root vm' own' vm'') :
    GrowsTo l root vm own vm'' := by
  obtain ⟨own', hf', hgrow⟩ := h
  obtain ⟨own'', hf'', hgrow'⟩ := h' own' hf' hgrow
  exact ⟨own'', hf'', hgrow.trans hgrow'⟩

/-- A loop over pages that may all be mapped. -/
theorem growsTo_vmMapPages (perm : Nat) : ∀ (n va pa : Nat) (vm : Vm) (own : Ownership),
    Forest l vm own → own root = some (root, 2) →
    (∀ j, j < n → Mappable l vm own root (vpn 2 (va + j * pageSize))) →
    GrowsTo l root vm own (vmMapPages l root perm n va pa vm).2 := by
  intro n
  induction n with
  | zero => exact fun va pa vm own hf _ _ => .refl hf root
  | succ n ih =>
    intro va pa vm own hf hroot hmap
    have hfirst : Mappable l vm own root (vpn 2 va) := by simpa using hmap 0 (Nat.succ_pos n)
    have hpage := growsTo_vmMapPage hf hroot hfirst pa perm
    rw [vmMapPages]
    split_ifs
    · exact hpage
    · refine hpage.trans fun own' hf' hgrow => ih _ _ _ own' hf' (hgrow.keeps _ _ hroot) ?_
      intro j hj
      rw [show va + pageSize + j * pageSize = va + (j + 1) * pageSize by
        rw [Nat.succ_mul]; omega]
      exact (hmap (j + 1) (Nat.succ_lt_succ hj)).grows hf hgrow

/-! ## The roots -/

/-- **Boot**: after `vm_init` there is one tree, the kernel's. -/
theorem forest_vmInit (l : Layout) (mem : Nat → Fin 512 → Nat) :
    ∃ own, Forest l (vmInit l mem) own ∧ ∀ p, own p = some (p, 2) → p = l.kernelPt := by
  have hregions : ∀ (regions : List (Nat × Nat × Nat × Nat)) (vm : Vm) (own : Ownership),
      Forest l vm own → (∀ p, own p = some (p, 2) → p = l.kernelPt) →
      GrowsTo l l.kernelPt vm own (vmMapRegions l l.kernelPt regions vm).2 := by
    intro regions
    induction regions with
    | nil => exact fun vm own hf _ => .refl hf _
    | cons region regions ih =>
      obtain ⟨va, pa, size, perm⟩ := region
      intro vm own hf hroots
      have hregion : GrowsTo l l.kernelPt vm own
          (vmMapRegion l vm l.kernelPt va pa size perm).2 :=
        growsTo_vmMapPages perm _ _ _ vm own hf hf.kernel fun _ _ => .inr ⟨rfl, hroots⟩
      rw [vmMapRegions]
      split_ifs
      · exact hregion
      · exact hregion.trans fun own' hf' hgrow =>
          ih _ own' hf' fun p hp => hroots p (hgrow.roots p hp)
  let own : Ownership := fun p => if p = l.kernelPt then some (l.kernelPt, 2) else none
  have hown : ∀ p x, own p = some x → p = l.kernelPt ∧ x = (l.kernelPt, 2) := by
    intro p x hp
    by_cases h : p = l.kernelPt
    · exact ⟨h, (Option.some.inj ((if_pos h).symm.trans hp)).symm⟩
    · rw [show own p = none from if_neg h] at hp
      cases hp
  have hf : Forest l (({ mem := mem, ptNext := 0, heapPtr := l.heapStart } : Vm).writePage
      l.kernelPt fun _ => 0) own := by
    have hzero : ∀ j, hasFlag ((({ mem := mem, ptNext := 0, heapPtr := l.heapStart } :
        Vm).writePage l.kernelPt fun _ => 0).mem l.kernelPt j) pteV = false := by
      intro j
      rw [Vm.writePage_self, hasFlag_zero]
    refine ⟨fun k _ hk => if_neg (poolPage_ne_kernelPt hk), if_pos rfl, fun p root level hp => ?_,
      fun p root level j hp hv => ?_, fun p j _ hv => ?_⟩
    · rw [(Prod.mk.inj (hown p _ hp).2).1]
      exact if_pos rfl
    · rw [(hown p _ hp).1, hzero] at hv
      cases hv
    · rw [hzero] at hv
      cases hv
  obtain ⟨own', hf', hgrow⟩ := hregions (l.kernelRegions ++ l.userRegions) _ own hf
    fun p hp => (hown p _ hp).1
  exact ⟨own', hf', fun p hp => (hown p _ (hgrow.roots p hp)).1⟩

/-- The memory after `vm_create_agent_pt` took the next page of the pool. -/
def newRoot (l : Layout) (vm : Vm) : Vm :=
  ({ vm with ptNext := vm.ptNext + 1 }.writePage (l.poolPage vm.ptNext) fun _ => 0).writePage
    (l.poolPage vm.ptNext) (vm.mem l.kernelPt)

theorem newRoot_self : (newRoot l vm).mem (l.poolPage vm.ptNext) = vm.mem l.kernelPt :=
  Vm.writePage_self

theorem newRoot_of_ne {p : Nat} (hp : p ≠ l.poolPage vm.ptNext) :
    (newRoot l vm).mem p = vm.mem p := by
  rw [newRoot, Vm.writePage_of_ne hp, Vm.writePage_of_ne hp]

theorem vmCreateAgentPt_some {pt : Nat} (h : vmCreateAgentPt l vm = (some pt, vm')) :
    vm.ptNext < ptPages ∧ pt = l.poolPage vm.ptNext ∧ vm' = newRoot l vm := by
  rw [vmCreateAgentPt, ptAlloc] at h
  by_cases hpool : ptPages ≤ vm.ptNext
  · rw [if_pos hpool] at h
    cases h
  · rw [if_neg hpool] at h
    obtain ⟨hpt, rfl⟩ := Prod.mk.inj h
    have hkernel : l.kernelPt ≠ l.poolPage vm.ptNext :=
      (poolPage_ne_kernelPt (Nat.not_le.mp hpool)).symm
    refine ⟨Nat.not_le.mp hpool, (Option.some.inj hpt).symm, ?_⟩
    rw [newRoot, Vm.writePage_of_ne hkernel]

theorem vmCreateAgentPt_none (h : vmCreateAgentPt l vm = (none, vm')) : vm' = vm := by
  rw [vmCreateAgentPt, ptAlloc] at h
  by_cases hpool : ptPages ≤ vm.ptNext
  · rw [if_pos hpool] at h
    exact (Prod.mk.inj h).2.symm
  · rw [if_neg hpool] at h
    cases h

/-- A new root has appeared; pages that had an owner are untouched. -/
structure Sprouts (pt : Nat) (vm : Vm) (own : Ownership) (vm' : Vm) (own' : Ownership) : Prop where
  new : own pt = none
  root : own' pt = some (pt, 2)
  keeps : ∀ p x, own p = some x → own' p = some x
  frame : ∀ p x, own p = some x → vm'.mem p = vm.mem p

/-- What grows on a new root touches no old page. -/
theorem Sprouts.grows {pt : Nat} (h : Sprouts pt vm own vm' own') (hf : Forest l vm own)
    (hgrow : Grows pt vm' own' vm'' own'') : Sprouts pt vm own vm'' own'' where
  new := h.new
  root := hgrow.keeps _ _ h.root
  keeps p x hp := hgrow.keeps p x (h.keeps p x hp)
  frame p x hp := by
    have hne : x.1 ≠ pt := by
      intro heq
      have := hf.rooted p x.1 x.2 hp
      rw [heq, h.new] at this
      cases this
    rw [hgrow.frame p x.1 x.2 (h.keeps p x hp) hne, h.frame p x hp]

/-- Old translations survive a new root. -/
theorem Sprouts.translation {pt : Nat} (h : Sprouts pt vm own vm' own') (hf : Forest l vm own)
    {old : Nat} (hold : own old = some (old, 2)) (va : Nat) :
    translation l vm' old va = translation l vm old va := by
  refine translation_congr hf hold (fun p level hp => ?_) va
  rcases hp with hp | hp
  · exact h.frame p _ hp
  · exact h.frame p _ hp

/-- **A new agent** gets a root of its own, a copy of the kernel's. -/
theorem sprouts_vmCreateAgentPt (hf : Forest l vm own) {pt : Nat}
    (h : vmCreateAgentPt l vm = (some pt, vm')) :
    Forest l vm' (update own pt (some (pt, 2))) ∧
      Sprouts pt vm own vm' (update own pt (some (pt, 2))) := by
  obtain ⟨hpool, rfl, rfl⟩ := vmCreateAgentPt_some h
  have hkernel := ne_nextPage hf hpool hf.kernel
  have hkeeps : ∀ p x, own p = some x →
      update own (l.poolPage vm.ptNext) (some (l.poolPage vm.ptNext, 2)) p = some x :=
    fun p x hp => by rwa [update_of_ne (ne_nextPage hf hpool hp)]
  refine ⟨⟨fun k hk hlt => ?_, hkeeps _ _ hf.kernel, fun p root level hp => ?_,
    fun p root level j hp hv => ?_, fun p j hp hv => ?_⟩,
    ⟨hf.fresh _ (Nat.le_refl _) hpool, update_self .., hkeeps,
      fun p x hp => newRoot_of_ne (ne_nextPage hf hpool hp)⟩⟩
  · have hk' : vm.ptNext + 1 ≤ k := hk
    rw [update_of_ne fun h => by have := poolPage_injective h; omega]
    exact hf.fresh k (by omega) hlt
  · by_cases hnew : p = l.poolPage vm.ptNext
    · rw [hnew, update_self] at hp
      obtain ⟨rfl, -⟩ := Prod.mk.inj (Option.some.inj hp)
      exact update_self ..
    · rw [update_of_ne hnew] at hp
      exact hkeeps _ _ (hf.rooted p root level hp)
  · rw [newRoot_of_ne hkernel]
    by_cases hnew : p = l.poolPage vm.ptNext
    · -- the entries of the new root are the kernel's
      subst hnew
      rw [update_self] at hp
      obtain ⟨rfl, hlevel⟩ := Prod.mk.inj (Option.some.inj hp)
      obtain rfl := Nat.succ.inj hlevel
      rw [newRoot_self] at hv ⊢
      have hchild : own (ptePpn (vm.mem l.kernelPt j)) = some (l.kernelPt, 1) := by
        rcases hf.link _ _ 1 j hf.kernel hv with h | ⟨-, -, h⟩
        · exact h
        · exact h
      exact .inr ⟨rfl, hv, hkeeps _ _ hchild⟩
    · rw [update_of_ne hnew] at hp
      rw [newRoot_of_ne hnew] at hv ⊢
      rcases hf.link p root level j hp hv with h | ⟨hroot, hk, h⟩
      · exact .inl (hkeeps _ _ h)
      · exact .inr ⟨hroot, hk, hkeeps _ _ h⟩
  · rw [newRoot_of_ne hkernel] at hv ⊢
    by_cases hnew : p = l.poolPage vm.ptNext
    · rw [hnew, newRoot_self]
    · rw [update_of_ne hnew] at hp
      rw [newRoot_of_ne hnew]
      exact hf.shared p j hp hv

end OpenAgentOS
