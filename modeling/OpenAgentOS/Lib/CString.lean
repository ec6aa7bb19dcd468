import Mathlib.Data.List.GetD
import Mathlib.Data.List.TakeWhile
import Mathlib.Data.Nat.Digits.Defs
import Mathlib.Data.Nat.Digits.Lemmas
import Mathlib.Tactic.IntervalCases
import Mathlib.Tactic.Ring
import OpenAgentOS.Lib.Bytes
import OpenAgentOS.Lib.CInt

/-!
# NUL-terminated byte strings

A C string is modelled by the list of its bytes before the terminator. Code
that indexes into one reads the terminator right behind the last byte, which is
what `CString.charAt` returns there.

Where it matters that no byte is the terminator (a string that goes to disk and
comes back), the string is a `CStr`, which carries that fact.
-/

namespace CString

/-- The bytes of an ASCII literal. -/
def bytes (s : String) : List UInt8 := s.toList.map Char.toUInt8

/-- `s[i]`: the byte at index `i`, the terminator behind the end. -/
def charAt (s : List UInt8) (i : Nat) : UInt8 := s.getD i 0

/-- The ASCII digit of a number below ten. -/
def digitChar (d : Nat) : UInt8 := '0'.toUInt8 + UInt8.ofNat d

/-- The decimal form of a natural number, as a `while (n > 0)` loop over its
digits prints it; zero is printed as a single digit. -/
def decimal (n : Nat) : List UInt8 :=
  if n = 0 then ['0'.toUInt8] else (Nat.digits 10 n).reverse.map digitChar

/-- `c >= '0' && c <= '9'`. -/
def isDigit (c : UInt8) : Bool := '0'.toUInt8 ≤ c && c ≤ '9'.toUInt8

/-- The digit loop `while (isdigit(s[i])) { id = id * 10 + (s[i] - '0'); i++; }`
over an `int`: the number read, and what is left of the string. -/
def scanInt (id : Int) : List UInt8 → Int × List UInt8
  | [] => (id, [])
  | c :: s =>
    if isDigit c then scanInt (CInt.toInt32 (id * 10 + (c.toNat - '0'.toNat : Int))) s
    else (id, c :: s)

/-- A chain `s[i] == c₀ && s[i + 1] == c₁ && …` over the bytes of a literal. -/
def hasAt (s : List UInt8) (i : Nat) : List UInt8 → Bool
  | [] => true
  | c :: cs => charAt s i == c && hasAt s (i + 1) cs

/-! ## Parts of strings -/

theorem charAt_drop (s : List UInt8) (k i : Nat) : charAt (s.drop k) i = charAt s (k + i) := by
  rw [charAt, charAt, List.getD_eq_getElem?_getD, List.getD_eq_getElem?_getD, List.getElem?_drop]

theorem charAt_take {s : List UInt8} {n i : Nat} (h : i < n) : charAt (s.take n) i = charAt s i := by
  rw [charAt, charAt, List.getD_eq_getElem?_getD, List.getD_eq_getElem?_getD,
    List.getElem?_take_of_lt h]

/-- A literal at a place is one at the start of what begins there. -/
theorem hasAt_drop (s pat : List UInt8) (k i : Nat) : hasAt (s.drop k) i pat = hasAt s (k + i) pat := by
  induction pat generalizing i with
  | nil => rfl
  | cons c cs ih => rw [hasAt, hasAt, charAt_drop, ih, Nat.add_assoc]

/-! ## Prefix tests and longer strings -/

theorem lt_length_of_charAt_ne_zero {s : List UInt8} {i : Nat} (h : charAt s i ≠ 0) :
    i < s.length := by
  by_contra hge
  exact h (List.getD_eq_default _ _ (Nat.not_lt.mp hge))

theorem charAt_append_of_ne_zero {s : List UInt8} {i : Nat} (h : charAt s i ≠ 0)
    (t : List UInt8) : charAt (s ++ t) i = charAt s i := by
  rw [charAt, charAt, List.getD_append _ _ _ _ (lt_length_of_charAt_ne_zero h)]

/-- A literal found in a string is found in every longer one. -/
theorem hasAt_append {s pat : List UInt8} {i : Nat} (hpat : (0 : UInt8) ∉ pat)
    (h : hasAt s i pat = true) (t : List UInt8) : hasAt (s ++ t) i pat = true := by
  induction pat generalizing i with
  | nil => rfl
  | cons c cs ih =>
    rw [hasAt, Bool.and_eq_true, beq_iff_eq] at h
    obtain ⟨hc, hcs⟩ := h
    have hne : charAt s i ≠ 0 := by
      rw [hc]
      exact fun h0 => hpat (h0 ▸ List.mem_cons_self)
    rw [hasAt, Bool.and_eq_true, beq_iff_eq, charAt_append_of_ne_zero hne]
    exact ⟨hc, ih (fun h0 => hpat (List.mem_cons_of_mem c h0)) hcs⟩

/-- A string has itself at the beginning. -/
theorem hasAt_self {pat : List UInt8} : hasAt pat 0 pat = true := by
  have hmid : ∀ (rest pre : List UInt8), hasAt (pre ++ rest) pre.length rest = true := by
    intro rest
    induction rest with
    | nil => exact fun pre => rfl
    | cons c cs ih =>
      intro pre
      have hchar : charAt (pre ++ c :: cs) pre.length = c := by
        rw [charAt, List.getD_append_right _ _ _ _ (Nat.le_refl _), Nat.sub_self]
        rfl
      have hnext := ih (pre ++ [c])
      rw [List.append_assoc, List.length_append] at hnext
      rw [hasAt, hchar, beq_self_eq_true, Bool.true_and]
      exact hnext
  exact hmid pat []

theorem charAt_of_hasAt {s pat : List UInt8} {i k : Nat} (h : hasAt s i pat = true)
    (hk : k < pat.length) : charAt s (i + k) = pat.getD k 0 := by
  induction pat generalizing i k with
  | nil => exact absurd hk (Nat.not_lt_zero k)
  | cons c cs ih =>
    rw [hasAt, Bool.and_eq_true, beq_iff_eq] at h
    cases k with
    | zero => exact h.1
    | succ k =>
      rw [show i + (k + 1) = i + 1 + k by omega, ih h.2 (Nat.lt_of_succ_lt_succ hk)]
      rfl

theorem ne_zero_of_isDigit {c : UInt8} (h : isDigit c = true) : c ≠ 0 := by
  rintro rfl
  exact absurd h (by decide)

/-- Two literals found at one place agree as far as both go. -/
theorem hasAt_agree {s p q : List UInt8} {i k : Nat} (hp : hasAt s i p = true)
    (hq : hasAt s i q = true) (hkp : k < p.length) (hkq : k < q.length) :
    p.getD k 0 = q.getD k 0 := by
  rw [← charAt_of_hasAt hp hkp, ← charAt_of_hasAt hq hkq]

/-- The digit loop stops at the same place in a longer string, if it stopped
before the end. -/
theorem scanInt_append {id : Int} {s : List UInt8} (h : (scanInt id s).2 ≠ [])
    (t : List UInt8) : scanInt id (s ++ t) = ((scanInt id s).1, (scanInt id s).2 ++ t) := by
  induction s generalizing id with
  | nil => exact absurd rfl h
  | cons c s ih =>
    rw [List.cons_append, scanInt, scanInt]
    by_cases hc : isDigit c = true
    · rw [scanInt, if_pos hc] at h
      rw [if_pos hc, if_pos hc, ih h]
    · rw [if_neg hc, if_neg hc, List.cons_append]

/-- A number that ends before the string does is read the same in a longer
string. -/
theorem scanInt_drop_append {id : Int} {s : List UInt8} {n : Nat}
    (h : charAt (scanInt id (s.drop n)).2 0 ≠ 0) (t : List UInt8) :
    scanInt id ((s ++ t).drop n)
      = ((scanInt id (s.drop n)).1, (scanInt id (s.drop n)).2 ++ t) := by
  have hne : (scanInt id (s.drop n)).2 ≠ [] := List.ne_nil_of_length_pos
    (lt_length_of_charAt_ne_zero h)
  have hlen : n ≤ s.length := by
    by_contra hgt
    rw [List.drop_eq_nil_of_le (by omega)] at hne
    exact hne rfl
  rw [List.drop_append_of_le_length hlen, scanInt_append hne]

/-! ## Reading back a decimal number -/

theorem isDigit_digitChar {d : Nat} (h : d < 10) : isDigit (digitChar d) = true := by
  interval_cases d <;> decide

theorem toNat_digitChar {d : Nat} (h : d < 10) :
    ((digitChar d).toNat - '0'.toNat : Int) = d := by
  interval_cases d <;> decide

/-- The value of a list of digits, most significant first, behind `n`. -/
def horner (n : Nat) (ds : List Nat) : Nat := ds.foldl (fun n d => n * 10 + d) n

theorem le_horner (ds : List Nat) (n : Nat) : n ≤ horner n ds := by
  induction ds generalizing n with
  | nil => exact Nat.le_refl n
  | cons d ds ih => exact (by omega : n ≤ n * 10 + d).trans (ih _)

/-- Digits are read in order, each one shifting the number by one place. -/
theorem scanInt_digits {ds : List Nat} (hds : ∀ d ∈ ds, d < 10) {n : Nat} {rest : List UInt8}
    (hbound : horner n ds < 2 ^ 31) (hrest : isDigit (charAt rest 0) = false) :
    scanInt n (ds.map digitChar ++ rest) = ((horner n ds : Int), rest) := by
  induction ds generalizing n with
  | nil =>
    cases rest with
    | nil => rfl
    | cons c rest =>
      rw [List.map_nil, List.nil_append, scanInt, if_neg (by simpa [charAt] using hrest)]
      rfl
  | cons d ds ih =>
    obtain ⟨hd, hds⟩ := List.forall_mem_cons.mp hds
    -- the number read so far is below the final one, so nothing wraps
    have hlt : n * 10 + d < 2 ^ 31 := (le_horner ds _).trans_lt hbound
    have hstep : CInt.toInt32 ((n : Int) * 10 + ((digitChar d).toNat - '0'.toNat : Int))
        = ((n * 10 + d : Nat) : Int) := by
      rw [toNat_digitChar hd, CInt.toInt32_eq_self (by omega) (by omega)]
      push_cast
      rfl
    rw [List.map_cons, List.cons_append, scanInt, if_pos (isDigit_digitChar hd), hstep]
    exact ih hds hbound

theorem horner_digits (n : Nat) : horner 0 (Nat.digits 10 n).reverse = n := by
  have hfold : (fun (d acc : Nat) => d + 10 * acc) = fun d acc => acc * 10 + d := by
    funext d acc
    ring
  have h := Nat.ofDigits_digits 10 n
  rw [Nat.ofDigits_eq_foldr] at h
  rw [horner, List.foldl_reverse, ← hfold]
  exact h

/-- The decimal form of a number is a list of digits with that value. -/
theorem decimal_eq_map (n : Nat) : ∃ ds : List Nat, (∀ d ∈ ds, d < 10) ∧
    decimal n = ds.map digitChar ∧ horner 0 ds = n ∧ ds ≠ [] := by
  by_cases hn : n = 0
  · subst hn
    exact ⟨[0], by simp, by decide, rfl, by simp⟩
  · refine ⟨(Nat.digits 10 n).reverse, fun d hd => ?_, if_neg hn, horner_digits n, ?_⟩
    · exact Nat.digits_lt_base (by decide) (List.mem_reverse.mp hd)
    · rw [ne_eq, List.reverse_eq_nil_iff]
      exact Nat.digits_ne_nil_iff_ne_zero.mpr hn

/-- A printed number is read back as the number. -/
theorem scanInt_decimal {n : Nat} (hn : n < 2 ^ 31) {rest : List UInt8}
    (hrest : isDigit (charAt rest 0) = false) :
    scanInt 0 (decimal n ++ rest) = ((n : Int), rest) := by
  obtain ⟨ds, hds, htext, hval, -⟩ := decimal_eq_map n
  have hbound : horner 0 ds < 2 ^ 31 := hval ▸ hn
  have h := scanInt_digits hds hbound hrest
  rw [htext, ← hval]
  exact h

theorem isDigit_of_mem_decimal {n : Nat} {c : UInt8} (h : c ∈ decimal n) : isDigit c = true := by
  obtain ⟨ds, hds, htext, -, -⟩ := decimal_eq_map n
  rw [htext] at h
  obtain ⟨d, hd, rfl⟩ := List.mem_map.mp h
  exact isDigit_digitChar (hds d hd)

theorem zero_not_mem_decimal (n : Nat) : (0 : UInt8) ∉ decimal n := fun h =>
  ne_zero_of_isDigit (isDigit_of_mem_decimal h) rfl

theorem length_decimal_pos (n : Nat) : 0 < (decimal n).length := by
  obtain ⟨ds, -, htext, -, hne⟩ := decimal_eq_map n
  rw [htext, List.length_map]
  exact List.length_pos_iff.mpr hne

/-- A printed number starts with a digit. -/
theorem isDigit_decimal (n : Nat) (rest : List UInt8) :
    isDigit (charAt (decimal n ++ rest) 0) = true := by
  obtain ⟨ds, hds, htext, -, hne⟩ := decimal_eq_map n
  obtain ⟨d, ds, rfl⟩ := List.exists_cons_of_ne_nil hne
  rw [htext]
  exact isDigit_digitChar (hds d List.mem_cons_self)

theorem length_decimal_le {n k : Nat} (hk : 0 < k) (h : n < 10 ^ k) : (decimal n).length ≤ k := by
  rw [decimal]
  split_ifs
  · exact hk
  · rw [List.length_map, List.length_reverse]
    exact (Nat.digits_length_le_iff (by decide) n).mpr h

end CString

/-- A string of non-NUL bytes. -/
structure CStr where
  bytes : List UInt8
  nul_free : (0 : UInt8) ∉ bytes
  deriving DecidableEq

namespace CStr

/-- A literal. -/
def lit (s : String) : CStr := ⟨(CString.bytes s).filter (· != 0), by simp⟩

/-- `strlen`. -/
def length (s : CStr) : Nat := s.bytes.length

/-- `str_copy(dst, s, cap)`: what fits in front of the terminator. -/
def copy (s : CStr) (cap : Nat) : CStr :=
  ⟨s.bytes.take (cap - 1), fun h => s.nul_free (List.mem_of_mem_take h)⟩

/-- The string that starts a buffer, looking at no more than `n` bytes. -/
def ofBuf (b : Buf) (n : Nat) : CStr :=
  ⟨(b.slice 0 n).takeWhile (· != 0), fun h => by simpa using List.mem_takeWhile_imp h⟩

theorem ext_bytes {s t : CStr} (h : s.bytes = t.bytes) : s = t := by
  cases s
  cases t
  cases h
  rfl

theorem copy_eq_self {s : CStr} {cap : Nat} (h : s.length < cap) : s.copy cap = s :=
  ext_bytes (List.take_of_length_le (Nat.le_sub_one_of_lt h))

theorem length_copy_lt (s : CStr) {cap : Nat} (hcap : 0 < cap) : (s.copy cap).length < cap := by
  have : (s.bytes.take (cap - 1)).length ≤ cap - 1 := List.length_take_le _ _
  show (s.bytes.take (cap - 1)).length < cap
  omega

/-- A buffer that holds the bytes of `s` and the terminator starts with `s`. -/
theorem ofBuf_eq {s : CStr} {b : Buf} {n : Nat} (hlen : s.length < n)
    (hbytes : ∀ i, i < s.length → b i = s.bytes.getD i 0) (hnul : b s.length = 0) :
    ofBuf b n = s := by
  apply ext_bytes
  obtain ⟨m, rfl⟩ : ∃ m, n = s.length + (m + 1) := ⟨n - s.length - 1, by omega⟩
  have hprefix : b.slice 0 s.length = s.bytes :=
    Buf.slice_eq_of_getD fun i hi => by rw [Nat.zero_add]; exact hbytes i hi
  have hsplit : b.slice 0 (s.length + (m + 1))
      = s.bytes ++ 0 :: (List.range m).map fun i => b (s.length + (i + 1)) := by
    rw [← hprefix, ← hnul]
    simp [Buf.slice, List.range_add, List.range_succ_eq_map, Function.comp_def]
  show (b.slice 0 (s.length + (m + 1))).takeWhile (· != 0) = s.bytes
  rw [hsplit, List.takeWhile_append_of_pos fun x hx => ?_]
  · simp
  · exact bne_iff_ne.mpr fun h0 => s.nul_free (h0 ▸ hx)

/-- A string that ends inside the buffer: its bytes and the terminator stand there. -/
theorem ofBuf_spec {b : Buf} {n : Nat} (h : (ofBuf b n).length < n) :
    (∀ i, i < (ofBuf b n).length → b i = (ofBuf b n).bytes.getD i 0) ∧ b (ofBuf b n).length = 0 := by
  have hlen : (ofBuf b n).length = ((b.slice 0 n).takeWhile (· != 0)).length := rfl
  have hslice : ∀ i (hi : i < (b.slice 0 n).length), (b.slice 0 n)[i] = b i := by
    intro i hi
    rw [Buf.getElem_slice, Nat.zero_add]
  constructor
  · intro i hi
    have hi' : i < (b.slice 0 n).length := by
      rw [Buf.length_slice]
      omega
    rw [List.getD_eq_getElem _ _ hi, ← hslice i hi']
    exact ((List.takeWhile_prefix _).getElem hi).symm
  · have hsplit := List.takeWhile_append_dropWhile (p := (· != 0)) (l := b.slice 0 n)
    cases hrest : (b.slice 0 n).dropWhile (· != 0) with
    | nil =>
      have hall := congrArg List.length hsplit
      rw [hrest, List.append_nil, Buf.length_slice] at hall
      omega
    | cons x rest =>
      -- the first byte that is dropped stops the string
      have hx : (x != 0) = false := by
        have := List.head_dropWhile_not (· != 0) (l := b.slice 0 n) (by rw [hrest]; exact nofun)
        simpa [hrest] using this
      have hat : (b.slice 0 n)[(ofBuf b n).length]? = some x := by
        rw [← hsplit, hrest, hlen, List.getElem?_append_right (Nat.le_refl _), Nat.sub_self]
        rfl
      obtain ⟨hi, hget⟩ := List.getElem?_eq_some_iff.mp hat
      rw [← hslice _ hi, hget]
      simpa using hx

/-- What stands behind the terminator does not matter. -/
theorem ofBuf_update {b : Buf} {n k : Nat} (h : (ofBuf b n).length < n)
    (hk : (ofBuf b n).length < k) (v : UInt8) : ofBuf (Function.update b k v) n = ofBuf b n := by
  obtain ⟨hbytes, hnul⟩ := ofBuf_spec h
  refine ofBuf_eq h (fun i hi => ?_) ?_
  · rw [Function.update_of_ne (by omega)]
    exact hbytes i hi
  · rw [Function.update_of_ne (by omega)]
    exact hnul

end CStr
