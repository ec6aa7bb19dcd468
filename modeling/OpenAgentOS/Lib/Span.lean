import OpenAgentOS.Lib.Bytes

/-!
# Ranges of a buffer

Which bytes of a buffer a function reads, as a list of ranges.

- `Span.Within n`: the range lies inside a buffer of `n` bytes. `Span.within_iff` for the ends.
- `Buf.AgreeOn`: two buffers hold the same where the ranges are. A function that is said to read the
  ranges gives the same for both; this is what ties a list of ranges to the function it is for.
-/

/-- A range of bytes. -/
structure Span where
  start : Nat
  len : Nat
  deriving DecidableEq

namespace Span

/-- The byte is in the range. -/
def Covers (r : Span) (i : Nat) : Prop := r.start ≤ i ∧ i < r.start + r.len

/-- The range lies inside a buffer of `n` bytes. -/
def Within (n : Nat) (r : Span) : Prop := ∀ i, r.Covers i → i < n

theorem within_iff {n : Nat} {r : Span} : r.Within n ↔ r.len = 0 ∨ r.start + r.len ≤ n := by
  constructor
  · intro h
    by_cases hlen : r.len = 0
    · exact .inl hlen
    · have hlast := h (r.start + r.len - 1) ⟨by omega, by omega⟩
      exact .inr (by omega)
  · rintro h i ⟨hlo, hhi⟩
    omega

end Span

/-- The buffers hold the same where the ranges are. -/
def Buf.AgreeOn (b b' : Buf) (spans : List Span) : Prop := ∀ r ∈ spans, ∀ i, r.Covers i → b i = b' i

namespace Buf.AgreeOn

variable {b b' : Buf} {spans spans' : List Span}

theorem slice_eq {off n : Nat} (h : b.AgreeOn b' spans) (hmem : ⟨off, n⟩ ∈ spans) :
    b.slice off n = b'.slice off n :=
  Buf.slice_congr fun _ hi => h _ hmem _ ⟨Nat.le_add_right _ _, Nat.add_lt_add_left hi _⟩

theorem left (h : b.AgreeOn b' (spans ++ spans')) : b.AgreeOn b' spans :=
  fun r hr => h r (List.mem_append_left _ hr)

theorem right (h : b.AgreeOn b' (spans ++ spans')) : b.AgreeOn b' spans' :=
  fun r hr => h r (List.mem_append_right _ hr)

end Buf.AgreeOn
