import Mathlib.Data.List.Basic

/-!
# Texts made of lines

A line is a list that ends in a separator and has no other one. A text is the
concatenation of its lines, and what a scan for the separator finds in it are the
ends of the lines.

- `offsets_flatten`: the places that follow a separator inside a text, with the
  beginning in front, are where its lines start.
- `drop_flatten`: what follows such a place are the lines from there on.
- `split`: the lines of any text, where the last one may lack its separator. `firstLine` is how far
  a scan for the separator goes (`split_eq`), and `length_split` counts lines by their separators.
-/

namespace Lines

variable {α : Type*} {sep : α}

/-- The list ends in the separator and has no other one. -/
def IsLine (sep : α) (l : List α) : Prop := ∃ body, sep ∉ body ∧ l = body ++ [sep]

theorem IsLine.length_pos {l : List α} (h : IsLine sep l) : 0 < l.length := by
  obtain ⟨body, -, rfl⟩ := h
  rw [List.length_append]
  exact Nat.succ_pos _

/-! ## Separators -/

section Separators

variable [DecidableEq α]

/-- The places of the separator. -/
def seps (sep : α) (t : List α) : List Nat :=
  (List.range t.length).filter fun i => t[i]? == some sep

/-- The beginning of a text, and the places that follow a separator and are not its end. -/
def offsets (sep : α) (t : List α) : List Nat :=
  0 :: ((seps sep t).filter fun i => i + 1 < t.length).map (· + 1)

theorem seps_append (a b : List α) :
    seps sep (a ++ b) = seps sep a ++ (seps sep b).map (a.length + ·) := by
  rw [seps, List.length_append, List.range_add, List.filter_append, List.filter_map]
  congr 1
  · refine List.filter_congr fun i hi => ?_
    rw [List.getElem?_append_left (List.mem_range.mp hi)]
  · refine congrArg (List.map _) (List.filter_congr fun i _ => ?_)
    show ((a ++ b)[a.length + i]? == some sep) = (b[i]? == some sep)
    rw [List.getElem?_append_right (Nat.le_add_right _ _), Nat.add_sub_cancel_left]

theorem seps_of_not_mem {t : List α} (h : sep ∉ t) : seps sep t = [] := by
  refine List.filter_eq_nil_iff.mpr fun i _ heq => ?_
  exact h (List.mem_of_getElem? (beq_iff_eq.mp heq))

/-- A line has its separator at the end. -/
theorem IsLine.seps_eq {l : List α} (h : IsLine sep l) : seps sep l = [l.length - 1] := by
  obtain ⟨body, hbody, rfl⟩ := h
  rw [seps_append, seps_of_not_mem hbody, List.nil_append, List.length_append]
  have hone : seps sep [sep] = [0] := by
    exact List.filter_cons_of_pos (beq_self_eq_true _)
  rw [hone]
  rfl

/-! ## The lines of a text -/

/-- Where the lines end: one separator for each. -/
theorem seps_flatten {ls : List (List α)} (hls : ∀ l ∈ ls, IsLine sep l) :
    seps sep ls.flatten
      = (List.range ls.length).map fun k => (ls.take (k + 1)).flatten.length - 1 := by
  induction ls with
  | nil => rfl
  | cons l ls ih =>
    obtain ⟨hl, hls⟩ := List.forall_mem_cons.mp hls
    have hpos : ∀ k < ls.length, 0 < (ls.take (k + 1)).flatten.length := by
      intro k hk
      obtain ⟨l', ls', rfl⟩ := List.exists_cons_of_length_pos (Nat.zero_lt_of_lt hk)
      rw [List.take_succ_cons, List.flatten_cons, List.length_append]
      exact Nat.lt_of_lt_of_le (hls l' List.mem_cons_self).length_pos (Nat.le_add_right _ _)
    rw [List.flatten_cons, seps_append, hl.seps_eq, ih hls, List.length_cons,
      List.range_succ_eq_map, List.map_cons, List.map_map, List.map_map]
    refine congrArg₂ List.cons ?_ (List.map_congr_left fun k hk => ?_)
    · simp
    · have := hpos k (List.mem_range.mp hk)
      simp only [Function.comp_apply, Nat.succ_eq_add_one, List.take_succ_cons, List.flatten_cons,
        List.length_append]
      omega

/-- **Where the lines start.** -/
theorem offsets_flatten {ls : List (List α)} (hls : ∀ l ∈ ls, IsLine sep l) (hne : ls ≠ []) :
    offsets sep ls.flatten
      = (List.range ls.length).map fun k => (ls.take k).flatten.length := by
  obtain ⟨n, hn⟩ : ∃ n, ls.length = n + 1 :=
    Nat.exists_eq_succ_of_ne_zero (mt List.length_eq_zero_iff.mp hne)
  have hsplit : ∀ k, (ls.take k).flatten.length + (ls.drop k).flatten.length
      = ls.flatten.length := by
    intro k
    rw [← List.length_append, ← List.flatten_append, List.take_append_drop]
  -- of the ends of lines all but the last one are inside the text
  have hinside : ∀ k < n, (ls.take (k + 1)).flatten.length < ls.flatten.length := by
    intro k hk
    have hdrop : 0 < (ls.drop (k + 1)).flatten.length := by
      obtain ⟨l, rest, hrest⟩ := List.exists_cons_of_length_pos
        (show 0 < (ls.drop (k + 1)).length by rw [List.length_drop]; omega)
      rw [hrest, List.flatten_cons, List.length_append]
      have hl : l ∈ ls := List.mem_of_mem_drop (hrest ▸ List.mem_cons_self)
      exact Nat.lt_of_lt_of_le (hls l hl).length_pos (Nat.le_add_right _ _)
    have := hsplit (k + 1)
    omega
  have hfirst : ∀ k, 0 < (ls.take (k + 1)).flatten.length := by
    intro k
    obtain ⟨l, rest, rfl⟩ := List.exists_cons_of_ne_nil hne
    rw [List.take_succ_cons, List.flatten_cons, List.length_append]
    exact Nat.lt_of_lt_of_le (hls l List.mem_cons_self).length_pos (Nat.le_add_right _ _)
  have hkeep : ((List.range n).map fun k => (ls.take (k + 1)).flatten.length - 1).filter
      (fun i => i + 1 < ls.flatten.length)
      = (List.range n).map fun k => (ls.take (k + 1)).flatten.length - 1 := by
    refine List.filter_eq_self.mpr fun i hi => ?_
    obtain ⟨k, hk, rfl⟩ := List.mem_map.mp hi
    have := hinside k (List.mem_range.mp hk)
    have := hfirst k
    exact decide_eq_true (by omega)
  have hlast : [(ls.take (n + 1)).flatten.length - 1].filter
      (fun i => i + 1 < ls.flatten.length) = [] := by
    have := hfirst n
    have htake : ls.take (n + 1) = ls := List.take_of_length_le (by omega)
    rw [htake] at this ⊢
    exact List.filter_cons_of_neg (by rw [decide_eq_true_eq]; omega)
  rw [offsets, seps_flatten hls, hn, List.range_succ, List.map_append, List.filter_append, hkeep,
    List.map_singleton, hlast, List.append_nil, List.map_map, ← List.range_succ,
    List.range_succ_eq_map, List.map_cons, List.map_map]
  refine congrArg₂ List.cons rfl (List.map_congr_left fun k _ => ?_)
  have := hfirst k
  simp only [Function.comp_apply, Nat.succ_eq_add_one]
  omega

end Separators

/-- What follows the start of a line. -/
theorem drop_flatten (ls : List (List α)) (k : Nat) :
    ls.flatten.drop (ls.take k).flatten.length = (ls.drop k).flatten := by
  conv_lhs => rw [← List.take_append_drop k ls, List.flatten_append]
  rw [List.take_append_drop]
  exact List.drop_left

/-! ## Splitting a text -/

section Split

variable [DecidableEq α] (sep)

/-- The lines of a text, each with its separator, which the last one may lack. -/
def split : List α → List (List α)
  | [] => []
  | c :: t =>
    if c = sep then [c] :: split t
    else
      match split t with
      | [] => [[c]]
      | l :: ls => (c :: l) :: ls

/-- The length of the first line. -/
def firstLine (t : List α) : Nat :=
  let stop := (t.takeWhile (· ≠ sep)).length
  if stop < t.length then stop + 1 else stop

variable {sep}

@[simp] theorem flatten_split (t : List α) : (split sep t).flatten = t := by
  induction t with
  | nil => rfl
  | cons c t ih =>
    rw [split]
    by_cases hc : c = sep
    · rw [if_pos hc, List.flatten_cons, ih]
      rfl
    · rw [if_neg hc]
      cases hsplit : split sep t with
      | nil =>
        rw [hsplit] at ih
        rw [← ih]
        rfl
      | cons l ls =>
        rw [hsplit] at ih
        rw [← ih]
        rfl

theorem split_eq_nil_iff {t : List α} : split sep t = [] ↔ t = [] := by
  constructor
  · intro h
    have hflat : (split sep t).flatten = t := flatten_split t
    rw [h] at hflat
    exact hflat.symm
  · rintro rfl
    rfl

theorem firstLine_cons_sep (t : List α) : firstLine sep (sep :: t) = 1 := by
  rw [firstLine, List.takeWhile_cons_of_neg (by simp)]
  exact if_pos (Nat.succ_pos _)

theorem firstLine_cons_of_ne {c : α} (hc : c ≠ sep) (t : List α) :
    firstLine sep (c :: t) = firstLine sep t + 1 := by
  rw [firstLine, firstLine, List.takeWhile_cons_of_pos (by simpa using hc)]
  simp only [List.length_cons, Nat.add_lt_add_iff_right]
  split_ifs
  · rfl
  · rfl

/-- **The first line and the others.** -/
theorem split_eq {t : List α} (hne : t ≠ []) :
    split sep t = t.take (firstLine sep t) :: split sep (t.drop (firstLine sep t)) := by
  induction t with
  | nil => exact absurd rfl hne
  | cons c t ih =>
    rw [split]
    by_cases hc : c = sep
    · rw [if_pos hc, hc, firstLine_cons_sep]
      rfl
    · rw [if_neg hc, firstLine_cons_of_ne hc, List.take_succ_cons, List.drop_succ_cons]
      by_cases ht : t = []
      · subst ht
        rfl
      · rw [ih ht]

/-- **Lines are counted by their separators**, and one more if the last one lacks it. -/
theorem length_split {t : List α} (hne : t ≠ []) :
    (split sep t).length = t.count sep + if t.getLast hne = sep then 0 else 1 := by
  induction t with
  | nil => exact absurd rfl hne
  | cons c t ih =>
    by_cases ht : t = []
    · subst ht
      by_cases hc : c = sep
      · simp [split, hc]
      · simp [split, hc]
    · rw [List.getLast_cons ht, split, List.count_cons]
      by_cases hc : c = sep
      · have hbeq : (c == sep) = true := beq_iff_eq.mpr hc
        rw [if_pos hc, List.length_cons, ih ht, if_pos hbeq]
        omega
      · have hbeq : ¬ (c == sep) = true := mt beq_iff_eq.mp hc
        rw [if_neg hc, if_neg hbeq, Nat.add_zero, ← ih ht]
        cases hsplit : split sep t with
        | nil => exact absurd (split_eq_nil_iff.mp hsplit) ht
        | cons l ls => rfl

end Split

end Lines
