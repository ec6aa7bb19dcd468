import OpenAgentOS.Lib.Runs
import OpenAgentOS.Vm.Regions

/-!
# The page table is a map

A page table is a tree of three levels whose nodes come from one pool. That each
node page is reached by one path only, and so by one range of addresses, is what
makes it a map from page numbers to entries.

- `PageTree`: the shape of the trees, with the place of each node page as a ghost
  function: its level, and the part of the address that leads to it. A page has one
  place, so different addresses never meet in a page by accident. Several roots may
  share subtrees, since these have the same place under each of them.
- `vmLookup`: the valid entry that `vm_walk(pt, va, 0)` finds.
- `vmMapPage_spec`: what `vm_map_page` does to all lookups, also when the pool runs out
  half-way.
- `page_table_is_map`: for an empty root and any sequence of calls, the lookups are
  those of the list of calls that have succeeded.
-/

namespace OpenAgentOS

open Function

/-- The level of a node page, and the bits of the address above those that index
it. -/
abbrev Places := Nat → Option (Nat × Nat)

/-- The bits of an address that lead to a table of the given level. -/
def tablePrefix (level va : Nat) : Nat := va / 2 ^ (12 + 9 * (level + 1))

theorem tablePrefix_succ (level va : Nat) :
    tablePrefix level va = tablePrefix (level + 1) va * 512 + vpn (level + 1) va := by
  have hpow : 2 ^ (12 + 9 * (level + 1 + 1)) = 2 ^ (12 + 9 * (level + 1)) * 512 := by
    rw [show 12 + 9 * (level + 1 + 1) = 12 + 9 * (level + 1) + 9 by omega, Nat.pow_add]
  rw [tablePrefix, tablePrefix, hpow, ← Nat.div_div_eq_div_mul]
  exact (Nat.div_add_mod' _ 512).symm

/-- Prefix and index of the last table are the number of the page. -/
theorem page_eq (va : Nat) : va / pageSize = tablePrefix 0 va * 512 + vpn 0 va := by
  have hpow : (2 : Nat) ^ (12 + 9 * (0 + 1)) = pageSize * 512 := by decide
  rw [tablePrefix, hpow, ← Nat.div_div_eq_div_mul]
  exact (Nat.div_add_mod' _ 512).symm

/-- Node pages lead to node pages in the places below them. -/
structure PageTree (l : Layout) (vm : Vm) (place : Places) : Prop where
  fresh : ∀ k, vm.ptNext ≤ k → k < ptPages → place (l.poolPage k) = none
  link : ∀ p level pre i, place p = some (level + 1, pre) → hasFlag (vm.mem p i) pteV = true →
    place (ptePpn (vm.mem p i)) = some (level, pre * 512 + i)

/-- The entry at the end of a walk, 0 if there is no table. -/
def leafFrom (l : Layout) (vm : Vm) (va n pt : Nat) : Nat :=
  match (walkFrom l false va n vm pt).1 with
  | none => 0
  | some (table, i) => vm.mem table i

/-- The valid entry that `vm_walk(pt, va, 0)` finds. -/
def vmLookup (l : Layout) (vm : Vm) (pt va : Nat) : Option Nat :=
  let pte := leafFrom l vm va 2 pt
  if hasFlag pte pteV then some pte else none

variable {l : Layout} {vm vm' : Vm} {place place' : Places} {root va : Nat}

/-! ## Walks -/

theorem walkFrom_false_succ (l : Layout) (va n : Nat) (vm : Vm) (pt : Nat) :
    (walkFrom l false va (n + 1) vm pt).1 =
      if hasFlag (vm.mem pt (vpn (n + 1) va)) pteV = true then
        (walkFrom l false va n vm (ptePpn (vm.mem pt (vpn (n + 1) va)))).1
      else none := by
  rw [walkFrom, walkLevel]
  by_cases hv : hasFlag (vm.mem pt (vpn (n + 1) va)) pteV = true
  · rw [if_pos hv, if_pos hv]
  · rw [if_neg hv, if_neg hv, if_neg (by decide)]

theorem leafFrom_zero (l : Layout) (vm : Vm) (va pt : Nat) :
    leafFrom l vm va 0 pt = vm.mem pt (vpn 0 va) := rfl

theorem leafFrom_succ (l : Layout) (vm : Vm) (va n pt : Nat) :
    leafFrom l vm va (n + 1) pt =
      if hasFlag (vm.mem pt (vpn (n + 1) va)) pteV = true then
        leafFrom l vm va n (ptePpn (vm.mem pt (vpn (n + 1) va)))
      else 0 := by
  rw [leafFrom, walkFrom_false_succ]
  by_cases hv : hasFlag (vm.mem pt (vpn (n + 1) va)) pteV = true
  · rw [if_pos hv, if_pos hv]
    rfl
  · rw [if_neg hv, if_neg hv]

/-- Nothing is found below an empty table. -/
theorem leafFrom_of_empty {pt : Nat} (h : vm.mem pt = fun _ => 0) (va n : Nat) :
    leafFrom l vm va n pt = 0 := by
  cases n with
  | zero => rw [leafFrom_zero, h]
  | succ n => rw [leafFrom_succ, h, if_neg (by rw [hasFlag_zero]; decide)]

/-- The place of a child on the path of an address. -/
theorem PageTree.child (h : PageTree l vm place) {n pt : Nat}
    (hpt : place pt = some (n + 1, tablePrefix (n + 1) va))
    (hv : hasFlag (vm.mem pt (vpn (n + 1) va)) pteV = true) :
    place (ptePpn (vm.mem pt (vpn (n + 1) va))) = some (n, tablePrefix n va) := by
  rw [h.link pt n _ _ hpt hv, tablePrefix_succ n va]

/-- **Where a walk ends.** -/
theorem PageTree.walk_place (h : PageTree l vm place) {slot : Nat × Fin 512} (n : Nat) :
    ∀ pt, place pt = some (n, tablePrefix n va) → (walkFrom l false va n vm pt).1 = some slot →
      place slot.1 = some (0, tablePrefix 0 va) ∧ slot.2 = vpn 0 va := by
  induction n with
  | zero =>
    intro pt hpt hslot
    obtain rfl := Option.some.inj hslot
    exact ⟨hpt, rfl⟩
  | succ n ih =>
    intro pt hpt hslot
    rw [walkFrom_false_succ] at hslot
    by_cases hv : hasFlag (vm.mem pt (vpn (n + 1) va)) pteV = true
    · rw [if_pos hv] at hslot
      exact ih _ (h.child hpt hv) hslot
    · rw [if_neg hv] at hslot
      exact absurd hslot nofun

/-- Addresses of one page have the same indices. -/
theorem vpn_congr {va va' : Nat} (h : va / pageSize = va' / pageSize) (level : Nat) :
    vpn level va = vpn level va' := by
  have hsplit : ∀ x : Nat, x / 2 ^ (12 + 9 * level) = x / pageSize / 2 ^ (9 * level) := by
    intro x
    rw [Nat.pow_add, ← Nat.div_div_eq_div_mul]
  refine Fin.ext ?_
  show va / 2 ^ (12 + 9 * level) % 512 = va' / 2 ^ (12 + 9 * level) % 512
  rw [hsplit, hsplit, h]

theorem leafFrom_congr {va va' : Nat} (h : va / pageSize = va' / pageSize) (n : Nat) :
    ∀ pt, leafFrom l vm va n pt = leafFrom l vm va' n pt := by
  induction n with
  | zero =>
    intro pt
    rw [leafFrom_zero, leafFrom_zero, vpn_congr h]
  | succ n ih =>
    intro pt
    rw [leafFrom_succ, leafFrom_succ, vpn_congr h, ih]

/-! ## New tables -/

/-- A page with a place is not the next one of the pool. -/
theorem PageTree.ne_next (h : PageTree l vm place) (hpool : vm.ptNext < ptPages) {p : Nat}
    {x : Nat × Nat} (hp : place p = some x) : p ≠ l.poolPage vm.ptNext := by
  rintro rfl
  rw [h.fresh _ (Nat.le_refl _) hpool] at hp
  exact absurd hp nofun

section Link

variable {pt level pre : Nat} {i : Fin 512} (h : PageTree l vm place)
  (hpool : vm.ptNext < ptPages) (hpt : place pt = some (level + 1, pre))
  (hfree : hasFlag (vm.mem pt i) pteV = false)

include h hpool hpt

/-- A new table gets the place below the entry that is linked to it. -/
theorem PageTree.linked :
    PageTree l (linked l vm pt i)
      (update place (l.poolPage vm.ptNext) (some (level, pre * 512 + i))) := by
  have hne := h.ne_next hpool hpt
  constructor
  · intro k hk hlt
    have hk' : vm.ptNext + 1 ≤ k := hk
    rw [update_of_ne fun heq => by have := poolPage_injective heq; omega]
    exact h.fresh k (by omega) hlt
  · intro p level' pre' j hp hv
    by_cases hnew : p = l.poolPage vm.ptNext
    · rw [hnew, linked_mem_new hne, hasFlag_zero] at hv
      exact absurd hv (by decide)
    rw [update_of_ne hnew] at hp
    by_cases hentry : p = pt ∧ j = i
    · obtain ⟨rfl, rfl⟩ := hentry
      obtain ⟨hlevel, rfl⟩ := Prod.mk.inj (Option.some.inj (hpt.symm.trans hp))
      obtain rfl := Nat.succ.inj hlevel
      rw [linked_mem_self hne, update_self, ptePpn_mkPte (by decide),
        update_self]
    · have hsame : (OpenAgentOS.linked l vm pt i).mem p j = vm.mem p j := by
        by_cases hppt : p = pt
        · rw [hppt, linked_mem_self hne, update_of_ne fun heq => hentry ⟨hppt, heq⟩]
        · rw [linked_mem_of_ne hppt hnew]
      rw [hsame] at hv ⊢
      have hchild := h.link p level' pre' j hp hv
      rw [update_of_ne (h.ne_next hpool hchild)]
      exact hchild

include hfree

/-- **Linking a new table changes no lookup.** -/
theorem PageTree.leafFrom_linked (n : Nat) :
    ∀ q, place q = some (n, tablePrefix n va) →
      leafFrom l (OpenAgentOS.linked l vm pt i) va n q = leafFrom l vm va n q := by
  have hne := h.ne_next hpool hpt
  induction n with
  | zero =>
    intro q hq
    have hqpt : q ≠ pt := by
      rintro rfl
      exact absurd (Prod.mk.inj (Option.some.inj (hq.symm.trans hpt))).1 (by omega)
    rw [leafFrom_zero, leafFrom_zero, linked_mem_of_ne hqpt (h.ne_next hpool hq)]
  | succ n ih =>
    intro q hq
    rw [leafFrom_succ, leafFrom_succ]
    by_cases hentry : q = pt ∧ vpn (n + 1) va = i
    · -- the walk used to end here, and now ends in the new table
      obtain ⟨rfl, rfl⟩ := hentry
      rw [linked_mem_self hne, update_self, if_pos (hasFlag_mkPte_pteV _),
        ptePpn_mkPte (by decide), leafFrom_of_empty (linked_mem_new hne), hfree,
        if_neg (by decide)]
    · have hsame : (OpenAgentOS.linked l vm pt i).mem q (vpn (n + 1) va) =
          vm.mem q (vpn (n + 1) va) := by
        by_cases hqpt : q = pt
        · rw [hqpt, linked_mem_self hne, update_of_ne fun heq => hentry ⟨hqpt, heq⟩]
        · rw [linked_mem_of_ne hqpt (h.ne_next hpool hq)]
      rw [hsame]
      by_cases hv : hasFlag (vm.mem q (vpn (n + 1) va)) pteV = true
      · rw [if_pos hv, if_pos hv, ih _ (h.child hq hv)]
      · rw [if_neg hv, if_neg hv]

end Link

/-! ## Walks that allocate -/

/-- Tables have been added, and no lookup has changed. -/
structure TreeGrows (l : Layout) (vm : Vm) (place : Places) (vm' : Vm) (place' : Places) : Prop where
  tree : PageTree l vm' place'
  keeps : ∀ p x, place p = some x → place' p = some x
  leaf : ∀ n q va, place q = some (n, tablePrefix n va) →
    leafFrom l vm' va n q = leafFrom l vm va n q
  heapPtr : vm'.heapPtr = vm.heapPtr

theorem TreeGrows.refl (h : PageTree l vm place) : TreeGrows l vm place vm place :=
  ⟨h, fun _ _ hp => hp, fun _ _ _ _ => rfl, rfl⟩

theorem TreeGrows.trans {vm'' : Vm} {place'' : Places} (h : TreeGrows l vm place vm' place')
    (h' : TreeGrows l vm' place' vm'' place'') : TreeGrows l vm place vm'' place'' where
  tree := h'.tree
  keeps p x hp := h'.keeps p x (h.keeps p x hp)
  leaf n q va hq := (h'.leaf n q va (h.keeps q _ hq)).trans (h.leaf n q va hq)
  heapPtr := h'.heapPtr.trans h.heapPtr

theorem PageTree.grows_linked (h : PageTree l vm place) (hpool : vm.ptNext < ptPages)
    {pt level pre : Nat} {i : Fin 512} (hpt : place pt = some (level + 1, pre))
    (hfree : hasFlag (vm.mem pt i) pteV = false) :
    TreeGrows l vm place (OpenAgentOS.linked l vm pt i)
      (update place (l.poolPage vm.ptNext) (some (level, pre * 512 + i))) where
  tree := h.linked hpool hpt
  keeps p x hp := by
    rw [update_of_ne (h.ne_next hpool hp)]
    exact hp
  leaf n q va hq := h.leafFrom_linked hpool hpt hfree n q hq
  heapPtr := rfl

/-- What a walk that allocates leaves behind: tables above level `n` are as before, and
an ordinary walk now ends where it has ended. -/
structure WalkGrows (l : Layout) (va n pt : Nat) (vm : Vm) (place : Places)
    (out : Option (Nat × Fin 512) × Vm) (place' : Places) : Prop where
  grows : TreeGrows l vm place out.2 place'
  above : ∀ p m pre, place p = some (m, pre) → n < m → out.2.mem p = vm.mem p
  walk : ∀ slot, out.1 = some slot → (walkFrom l false va n out.2 pt).1 = some slot

/-- **A walk that allocates changes no lookup**, whether the pool lasts or not. -/
theorem PageTree.walk_alloc (va n : Nat) : ∀ (vm : Vm) (place : Places) (pt : Nat),
    PageTree l vm place → place pt = some (n, tablePrefix n va) →
      ∃ place', WalkGrows l va n pt vm place (walkFrom l true va n vm pt) place' := by
  induction n with
  | zero =>
    intro vm place pt h hpt
    exact ⟨place, .refl h, fun _ _ _ _ _ => rfl, fun _ hslot => hslot⟩
  | succ n ih =>
    intro vm place pt h hpt
    by_cases hv : hasFlag (vm.mem pt (vpn (n + 1) va)) pteV = true
    · rw [walkFrom, walkLevel, if_pos hv]
      obtain ⟨place', hgrows, habove, hwalk⟩ := ih vm place _ h (h.child hpt hv)
      refine ⟨place', hgrows, fun p m pre hp hm => habove p m pre hp (by omega), fun slot hslot => ?_⟩
      -- the entry that was followed is still there
      rw [walkFrom_false_succ, habove pt _ _ hpt (Nat.lt_succ_self n), if_pos hv]
      exact hwalk slot hslot
    by_cases hpool : ptPages ≤ vm.ptNext
    · rw [walkFrom, walkLevel, if_neg hv, if_pos rfl, ptAlloc, if_pos hpool]
      exact ⟨place, .refl h, fun _ _ _ _ _ => rfl, by simp⟩
    have hpool' := Nat.not_le.mp hpool
    rw [Bool.not_eq_true] at hv
    rw [walkFrom, walkLevel_linked hv hpool']
    dsimp only
    have hlink := h.grows_linked hpool' hpt hv
    have hnew : update place (l.poolPage vm.ptNext)
        (some (n, tablePrefix (n + 1) va * 512 + vpn (n + 1) va)) (l.poolPage vm.ptNext) =
        some (n, tablePrefix n va) := by
      rw [update_self, tablePrefix_succ n va]
    obtain ⟨place', hgrows, habove, hwalk⟩ := ih _ _ _ hlink.tree hnew
    refine ⟨place', hlink.trans hgrows, fun p m pre hp hm => ?_, fun slot hslot => ?_⟩
    · have hp' := hlink.keeps p _ hp
      have hne : p ≠ pt := by
        rintro rfl
        have := (Prod.mk.inj (Option.some.inj (hp.symm.trans hpt))).1
        omega
      exact (habove p m pre hp' (by omega)).trans
        (linked_mem_of_ne hne (h.ne_next hpool' hp))
    · have hentry := habove pt _ _ (hlink.keeps pt _ hpt) (Nat.lt_succ_self n)
      rw [walkFrom_false_succ, hentry, linked_mem_self (h.ne_next hpool' hpt), update_self,
        if_pos (hasFlag_mkPte_pteV _), ptePpn_mkPte (by decide)]
      exact hwalk slot hslot

/-! ## Entries of the last level -/

section Leaf

variable {table pre : Nat} (h : PageTree l vm place) (htable : place table = some (0, pre))
  (i : Fin 512) (word : Nat)

include h htable

theorem PageTree.write : PageTree l (vm.write table i word) place := by
  constructor
  · exact h.fresh
  · intro p level pre' j hp hv
    have hne : p ≠ table := by
      rintro rfl
      exact absurd (Prod.mk.inj (Option.some.inj (hp.symm.trans htable))).1 (by omega)
    rw [Vm.write_of_ne hne] at hv ⊢
    exact h.link p level pre' j hp hv

/-- Walks do not look at the last level. -/
theorem PageTree.walkFrom_write (n : Nat) : ∀ q, place q = some (n, tablePrefix n va) →
    (walkFrom l false va n (vm.write table i word) q).1 = (walkFrom l false va n vm q).1 := by
  induction n with
  | zero => exact fun q _ => rfl
  | succ n ih =>
    intro q hq
    have hne : q ≠ table := by
      rintro rfl
      exact absurd (Prod.mk.inj (Option.some.inj (hq.symm.trans htable))).1 (by omega)
    rw [walkFrom_false_succ, walkFrom_false_succ, Vm.write_of_ne hne]
    by_cases hv : hasFlag (vm.mem q (vpn (n + 1) va)) pteV = true
    · rw [if_pos hv, if_pos hv, ih _ (h.child hq hv)]
    · rw [if_neg hv, if_neg hv]

/-- **An entry is found by the addresses of its page only.** -/
theorem PageTree.leafFrom_write_of_ne {n q : Nat} (hq : place q = some (n, tablePrefix n va))
    (hpage : va / pageSize ≠ pre * 512 + i) :
    leafFrom l (vm.write table i word) va n q = leafFrom l vm va n q := by
  rw [leafFrom, leafFrom, h.walkFrom_write htable i word n q hq]
  cases hslot : (walkFrom l false va n vm q).1 with
  | none => rfl
  | some slot =>
    obtain ⟨hplace, hindex⟩ := h.walk_place n q hq hslot
    dsimp only
    by_cases htab : slot.1 = table
    · rw [htab] at hplace ⊢
      have hpre := (Prod.mk.inj (Option.some.inj (hplace.symm.trans htable))).2
      have hne : slot.2 ≠ i := by
        intro heq
        rw [page_eq, hpre, ← hindex, heq] at hpage
        exact hpage rfl
      rw [Vm.write_self, update_of_ne hne]
    · rw [Vm.write_of_ne htab]

theorem PageTree.leafFrom_write_self {n q : Nat} (hq : place q = some (n, tablePrefix n va))
    (hslot : (walkFrom l false va n vm q).1 = some (table, i)) :
    leafFrom l (vm.write table i word) va n q = word := by
  rw [leafFrom, h.walkFrom_write htable i word n q hq, hslot]
  dsimp only
  rw [Vm.write_self, update_self]

end Leaf

/-! ## Mapping a page -/

/-- The entry that `vm_map_page` writes. -/
def mappedEntry (pa perm : Nat) : Nat := mkPte (pa / pageSize) (perm ||| pteV ||| pteStd)

theorem perm_flags_lt {perm : Nat} (hperm : perm < 2 ^ 10) : perm ||| pteV ||| pteStd < 2 ^ 10 :=
  Nat.or_lt_two_pow (Nat.or_lt_two_pow hperm (by decide)) (by decide)

/-- The flags of an entry. -/
theorem hasFlag_mkPte (ppn flags : Nat) {flag : Nat} (hflag : flag < 2 ^ 10) :
    hasFlag (mkPte ppn flags) flag = hasFlag flags flag := by
  have hzero : (ppn <<< 10) &&& flag = 0 := by
    refine Nat.eq_of_testBit_eq fun i => ?_
    rw [Nat.testBit_and, Nat.testBit_shiftLeft, Nat.zero_testBit]
    by_cases hi : 10 ≤ i
    · rw [Nat.testBit_lt_two_pow (Nat.lt_of_lt_of_le hflag (Nat.pow_le_pow_right (by decide) hi)),
        Bool.and_false]
    · rw [decide_eq_false hi, Bool.false_and, Bool.false_and]
  rw [hasFlag, hasFlag, mkPte, Nat.and_or_distrib_right, hzero, Nat.zero_or]

theorem hasFlag_mappedEntry (pa perm : Nat) : hasFlag (mappedEntry pa perm) pteV = true := by
  rw [mappedEntry, hasFlag_mkPte _ _ (by decide), hasFlag, Nat.or_right_comm,
    Nat.and_or_distrib_right, bne_iff_ne]
  intro hzero
  exact absurd (Nat.or_eq_zero_iff.mp hzero).2 (by decide)

/-- **Decoding an entry.** -/
theorem mappedEntry_decode {pa perm : Nat} (hpa : pa % pageSize = 0) (hperm : perm < 2 ^ 10) :
    ptePpn (mappedEntry pa perm) * pageSize = pa ∧
      mappedEntry pa perm % 2 ^ 10 = perm ||| pteV ||| pteStd := by
  have hflags := perm_flags_lt hperm
  constructor
  · rw [mappedEntry, ptePpn_mkPte hflags]
    exact Nat.div_mul_cancel (Nat.dvd_of_mod_eq_zero hpa)
  · rw [mappedEntry, mkPte, ← Nat.shiftLeft_add_eq_or_of_lt hflags, Nat.shiftLeft_eq,
      Nat.mul_add_mod_self_right, Nat.mod_eq_of_lt hflags]

/-- What a call of `vm_map_page` does to the lookups of all addresses. -/
inductive MapEffect (l : Layout) (vm : Vm) (place : Places) (root va pa perm : Nat)
    (out : Int × Vm) (place' : Places) : Prop
  /-- It fails, and no lookup changes. -/
  | refused (hrc : out.1 = -1) (hgrows : TreeGrows l vm place out.2 place')
  /-- The page was not mapped and is mapped now; the lookups of other pages stay. -/
  | mapped (hrc : out.1 = 0) (haligned : va % pageSize = 0 ∧ pa % pageSize = 0)
      (tree : PageTree l out.2 place') (keeps : ∀ p x, place p = some x → place' p = some x)
      (heapPtr : out.2.heapPtr = vm.heapPtr)
      (hfree : hasFlag (leafFrom l vm va 2 root) pteV = false)
      (hentry : leafFrom l out.2 va 2 root = mappedEntry pa perm)
      (hother : ∀ n q va', place q = some (n, tablePrefix n va') →
        va' / pageSize ≠ va / pageSize → leafFrom l out.2 va' n q = leafFrom l vm va' n q)

theorem tablePrefix_two (hva : va < 2 ^ 39) : tablePrefix 2 va = 0 := Nat.div_eq_of_lt hva

/-- **One call of `vm_map_page`.** -/
theorem PageTree.vmMapPage_effect (h : PageTree l vm place) (hroot : place root = some (2, 0))
    (hva : va < 2 ^ 39) (pa perm : Nat) :
    ∃ place', MapEffect l vm place root va pa perm (vmMapPage l vm root va pa perm) place' := by
  have hplace : place root = some (2, tablePrefix 2 va) := by rw [tablePrefix_two hva, hroot]
  rw [vmMapPage]
  by_cases haligned : va % pageSize ≠ 0 ∨ pa % pageSize ≠ 0
  · rw [if_pos haligned]
    exact ⟨place, .refused rfl (.refl h)⟩
  rw [if_neg haligned, vmWalk]
  obtain ⟨place', hgrows, -, hwalk⟩ := PageTree.walk_alloc va 2 vm place root h hplace
  rcases hout : walkFrom l true va 2 vm root with ⟨_ | ⟨table, i⟩, vm'⟩
  · rw [hout] at hgrows
    exact ⟨place', .refused rfl hgrows⟩
  rw [hout] at hgrows hwalk
  have hslot := hwalk _ rfl
  have hroot' := hgrows.keeps root _ hplace
  obtain ⟨htable, hindex⟩ := hgrows.tree.walk_place 2 root hroot' hslot
  have hleaf : leafFrom l vm' va 2 root = vm'.mem table i := by
    rw [leafFrom, hslot]
  dsimp only
  by_cases hvalid : hasFlag (vm'.mem table i) pteV = true
  · rw [if_pos hvalid]
    exact ⟨place', .refused rfl hgrows⟩
  rw [if_neg hvalid]
  rw [Bool.not_eq_true] at hvalid
  have hpage : va / pageSize = tablePrefix 0 va * 512 + i := by
    rw [page_eq]
    exact congrArg (tablePrefix 0 va * 512 + ·.val) hindex.symm
  refine ⟨place', .mapped rfl ?_ (hgrows.tree.write htable i _) hgrows.keeps hgrows.heapPtr ?_ ?_ ?_⟩
  · omega
  · rw [← hgrows.leaf 2 root va hplace, hleaf, hvalid]
  · exact hgrows.tree.leafFrom_write_self htable i _ hroot' hslot
  · intro n q va' hq hne
    rw [hpage] at hne
    rw [hgrows.tree.leafFrom_write_of_ne htable i _ (hgrows.keeps q _ hq) hne,
      hgrows.leaf n q va' hq]

/-- A call for a free page fails only when the pool runs out. -/
theorem PageTree.vmMapPage_ok (h : PageTree l vm place) (hroot : place root = some (2, 0))
    (hva : va < 2 ^ 39) {pa : Nat} (haligned : va % pageSize = 0 ∧ pa % pageSize = 0)
    (hfree : hasFlag (leafFrom l vm va 2 root) pteV = false)
    (hwalk : (vmWalk l vm root va true).1 ≠ none) (perm : Nat) :
    (vmMapPage l vm root va pa perm).1 = 0 := by
  have hplace : place root = some (2, tablePrefix 2 va) := by rw [tablePrefix_two hva, hroot]
  obtain ⟨place', hgrows, -, hend⟩ := PageTree.walk_alloc va 2 vm place root h hplace
  rw [vmMapPage, if_neg (by omega)]
  rw [vmWalk] at hwalk ⊢
  rcases hout : walkFrom l true va 2 vm root with ⟨_ | ⟨table, i⟩, vm'⟩
  · rw [hout] at hwalk
    exact absurd rfl hwalk
  rw [hout] at hgrows hend
  have hleaf : leafFrom l vm' va 2 root = vm'.mem table i := by
    rw [leafFrom, hend _ rfl]
  rw [← hgrows.leaf 2 root va hplace, hleaf] at hfree
  dsimp only
  rw [if_neg (by rw [hfree]; decide)]

/-! ## Sequences of calls -/

/-- A call of `vm_map_page` with a virtual address of 39 bits and a physical address of 56
bits. -/
structure MapCall where
  va : Nat
  pa : Nat
  perm : Nat
  va_lt : va < 2 ^ 39
  pa_lt : pa < 2 ^ 56

/-- The call is for the page of the address. -/
def MapCall.covers (c : MapCall) (va : Nat) : Bool := c.va / pageSize == va / pageSize

/-- The memory, and the calls that have succeeded, the first one first. -/
structure MapState where
  vm : Vm
  done : List MapCall

/-- The call, on the page table `root`. -/
def MapState.call (l : Layout) (root : Nat) (s : MapState) (c : MapCall) : Int × Vm :=
  vmMapPage l s.vm root c.va c.pa c.perm

def MapState.step (l : Layout) (root : Nat) (s : MapState) (c : MapCall) : MapState where
  vm := (s.call l root c).2
  done := if (s.call l root c).1 = 0 then s.done ++ [c] else s.done

/-- An address is found iff its page has been mapped, and then with the entry of the
first call for the page. -/
def MapState.IsMap (l : Layout) (root : Nat) (s : MapState) : Prop :=
  ∀ va, va < 2 ^ 39 →
    vmLookup l s.vm root va = (s.done.find? (·.covers va)).map fun c => mappedEntry c.pa c.perm

/-- A call returns 0 or -1, in the second case no lookup changes, and in the first one
no lookup of another page. -/
def MapState.StepOk (l : Layout) (root : Nat) (s : MapState) (c : MapCall) : Prop :=
  ((s.call l root c).1 = 0 ∨ (s.call l root c).1 = -1) ∧
    ∀ va, va < 2 ^ 39 → (s.call l root c).1 = -1 ∨ c.covers va = false →
      vmLookup l (s.call l root c).2 root va = vmLookup l s.vm root va

/-- What holds after each call. -/
structure MapInv (l : Layout) (root : Nat) (s : MapState) (place : Places) : Prop where
  tree : PageTree l s.vm place
  rooted : place root = some (2, 0)
  map : s.IsMap l root
  aligned : ∀ c ∈ s.done, c.pa % pageSize = 0

theorem vmLookup_congr {va va' : Nat} (h : leafFrom l vm' va' 2 root = leafFrom l vm va 2 root) :
    vmLookup l vm' root va' = vmLookup l vm root va := by
  rw [vmLookup, vmLookup, h]

section Step

variable {s : MapState} (h : MapInv l root s place) (c : MapCall)

include h

theorem MapInv.place_root {va : Nat} (hva : va < 2 ^ 39) :
    place root = some (2, tablePrefix 2 va) := by
  rw [tablePrefix_two hva, h.rooted]

/-- A call that is refused. -/
theorem MapInv.refused (hrc : (s.call l root c).1 = -1)
    (hgrows : TreeGrows l s.vm place (s.call l root c).2 place') :
    MapInv l root (s.step l root c) place' ∧ s.StepOk l root c := by
  have hlookup : ∀ va, va < 2 ^ 39 →
      vmLookup l (s.call l root c).2 root va = vmLookup l s.vm root va := fun va hva =>
    vmLookup_congr (hgrows.leaf 2 root va (h.place_root hva))
  have hdone : (s.step l root c).done = s.done := if_neg (by rw [hrc]; decide)
  refine ⟨⟨hgrows.tree, hgrows.keeps _ _ h.rooted, fun va hva => ?_, ?_⟩, .inr hrc,
    fun va hva _ => hlookup va hva⟩
  · rw [hdone, ← h.map va hva]
    exact hlookup va hva
  · rw [hdone]
    exact h.aligned

/-- A call that maps a page. -/
theorem MapInv.mapped (hrc : (s.call l root c).1 = 0)
    (haligned : c.va % pageSize = 0 ∧ c.pa % pageSize = 0)
    (htree : PageTree l (s.call l root c).2 place')
    (hkeeps : ∀ p x, place p = some x → place' p = some x)
    (hfree : hasFlag (leafFrom l s.vm c.va 2 root) pteV = false)
    (hentry : leafFrom l (s.call l root c).2 c.va 2 root = mappedEntry c.pa c.perm)
    (hother : ∀ n q va, place q = some (n, tablePrefix n va) → va / pageSize ≠ c.va / pageSize →
      leafFrom l (s.call l root c).2 va n q = leafFrom l s.vm va n q) :
    MapInv l root (s.step l root c) place' ∧ s.StepOk l root c := by
  have hdone : (s.step l root c).done = s.done ++ [c] := if_pos hrc
  have hsame : ∀ va, va < 2 ^ 39 → c.covers va = false →
      vmLookup l (s.call l root c).2 root va = vmLookup l s.vm root va := by
    intro va hva hcovers
    refine vmLookup_congr (hother 2 root va (h.place_root hva) ?_)
    exact fun heq => absurd hcovers (by rw [MapCall.covers, heq, beq_self_eq_true]; decide)
  refine ⟨⟨htree, hkeeps _ _ h.rooted, fun va hva => ?_, ?_⟩, .inl hrc, fun va hva hcase => ?_⟩
  · rw [hdone, List.find?_append]
    by_cases hcovers : c.covers va = true
    · -- nothing was found before, and now the new entry is
      have hpage : va / pageSize = c.va / pageSize := (beq_iff_eq.mp hcovers).symm
      have hbefore : vmLookup l s.vm root va = none := by
        rw [vmLookup, leafFrom_congr hpage, hfree, if_neg (by decide)]
      rw [h.map va hva, Option.map_eq_none_iff] at hbefore
      have hafter : vmLookup l (s.call l root c).2 root va = some (mappedEntry c.pa c.perm) := by
        rw [vmLookup, leafFrom_congr hpage, hentry, if_pos (hasFlag_mappedEntry _ _)]
      rw [hbefore, Option.none_or, List.find?_cons, hcovers]
      exact hafter
    · rw [Bool.not_eq_true] at hcovers
      rw [List.find?_cons, hcovers, List.find?_nil, Option.or_none, ← h.map va hva]
      exact hsame va hva hcovers
  · intro d hd
    rw [hdone, List.mem_append, List.mem_singleton] at hd
    rcases hd with hd | rfl
    · exact h.aligned d hd
    · exact haligned.2
  · rcases hcase with hminus | hcovers
    · exact absurd (hminus.symm.trans hrc) (by decide)
    · exact hsame va hva hcovers

/-- **One call.** -/
theorem MapInv.step : (∃ place', MapInv l root (s.step l root c) place') ∧ s.StepOk l root c := by
  obtain ⟨place', heffect⟩ := h.tree.vmMapPage_effect h.rooted c.va_lt c.pa c.perm
  cases heffect with
  | refused hrc hgrows =>
    obtain ⟨hinv, hok⟩ := h.refused c hrc hgrows
    exact ⟨⟨place', hinv⟩, hok⟩
  | mapped hrc haligned htree hkeeps hheap hfree hentry hother =>
    obtain ⟨hinv, hok⟩ := h.mapped c hrc haligned htree hkeeps hfree hentry hother
    exact ⟨⟨place', hinv⟩, hok⟩

end Step

/-- All calls. -/
theorem MapInv.run {s : MapState} (h : MapInv l root s place) (cs : List MapCall) :
    Runs.Along (MapState.step l root) (MapState.StepOk l root) s cs ∧
      ∃ place', MapInv l root (Runs.run (MapState.step l root) s cs) place' := by
  induction cs generalizing s place with
  | nil => exact ⟨trivial, place, h⟩
  | cons c cs ih =>
    obtain ⟨⟨place', hinv⟩, hok⟩ := h.step c
    obtain ⟨halong, hend⟩ := ih hinv
    exact ⟨⟨hok, halong⟩, hend⟩

/-- An empty root is a tree. -/
theorem pageTree_empty (hzero : vm.mem root = fun _ => 0)
    (hroot : ∀ k, vm.ptNext ≤ k → k < ptPages → l.poolPage k ≠ root) :
    PageTree l vm fun p => if p = root then some (2, 0) else none := by
  constructor
  · intro k hk hlt
    exact if_neg (hroot k hk hlt)
  · intro p level pre i hp hv
    by_cases hproot : p = root
    · rw [hproot, hzero, hasFlag_zero] at hv
      exact absurd hv (by decide)
    · rw [if_neg hproot] at hp
      exact absurd hp nofun

/-- **A page table is a map.** After any sequence of calls on an empty root an address is
found iff a call for its page has succeeded, with the physical address and the permissions
(the ten flag bits of an entry) of the first such call; no call changes the lookup of
another page, and one that fails changes none. -/
theorem page_table_is_map (l : Layout) (vm : Vm) (root : Nat)
    (hzero : vm.mem root = fun _ => 0)
    (hroot : ∀ k, vm.ptNext ≤ k → k < ptPages → l.poolPage k ≠ root) (cs : List MapCall) :
    Runs.Along (MapState.step l root) (MapState.StepOk l root) ⟨vm, []⟩ cs ∧
      (Runs.run (MapState.step l root) ⟨vm, []⟩ cs).IsMap l root ∧
      ∀ c ∈ (Runs.run (MapState.step l root) ⟨vm, []⟩ cs).done,
        c.perm < 2 ^ 10 → ptePpn (mappedEntry c.pa c.perm) * pageSize = c.pa ∧
          mappedEntry c.pa c.perm % 2 ^ 10 = c.perm ||| pteV ||| pteStd := by
  have hstart : MapInv l root ⟨vm, []⟩ fun p => if p = root then some (2, 0) else none := by
    refine ⟨pageTree_empty hzero hroot, if_pos rfl, fun va _ => ?_, nofun⟩
    show vmLookup l vm root va = none
    rw [vmLookup, leafFrom_of_empty hzero, hasFlag_zero, if_neg (by decide)]
  obtain ⟨halong, place', hinv⟩ := hstart.run cs
  exact ⟨halong, hinv.map, fun c hc => mappedEntry_decode (hinv.aligned c hc)⟩

/-- A call that maps a page of the third gigabyte one to one. -/
def someCall : MapCall where
  va := 0x80200000
  pa := 0x80200000
  perm := pteR ||| pteX
  va_lt := by decide +kernel
  pa_lt := by decide

theorem page_table_is_map_two :
    (MapState.call virtLayout virtLayout.kernelPt ⟨⟨fun _ _ => 0, 0, 0⟩, []⟩ someCall).1 = 0 ∧
      (Runs.run (MapState.step virtLayout virtLayout.kernelPt) ⟨⟨fun _ _ => 0, 0, 0⟩, []⟩
        [someCall, someCall]).IsMap virtLayout virtLayout.kernelPt :=
  ⟨by decide +kernel, (page_table_is_map virtLayout ⟨fun _ _ => 0, 0, 0⟩ virtLayout.kernelPt rfl
    (fun _ _ hk => poolPage_ne_kernelPt hk) [someCall, someCall]).2.1⟩

end OpenAgentOS
