import Mathlib.Data.Prod.Lex
import OpenAgentOS.Abi
import OpenAgentOS.Lib.CString

/-!
# Versions of packages (kernel/catalog.c)

`parse_version` reads up to three numbers into `int`s, and `version_ge` compares them one after
the other. `catalog_install` lets a package replace a version that is at least its `min_version`.

- `parseVersion`, `versionGe`: the functions. `versionGate`: the test of `catalog_install`.
- `Version`: one, two or three numbers with dots between them. `Version.numbers` is their
  lexicographic order on natural numbers.
- `versionGe_iff`: the order of `version_ge` is the one of the numbers modulo `2 ^ 32`. It is
  total and transitive, but it is not the numeric one.
- `numericVersion_iff`: a version is compared numerically with all that fit in an `int` iff it
  fits itself.
-/

namespace OpenAgentOS

open CInt CString

/-- `m * 10 + (c - '0')`. -/
def shiftDigit (m : Int) (c : UInt8) : Int := toInt32 (m * 10 + (c.toNat - '0'.toNat : Int))

/-- A digit of the given part. -/
def versionDigit (part : Nat) (v : Int × Int × Int) (c : UInt8) : Int × Int × Int :=
  if part = 0 then (shiftDigit v.1 c, v.2.1, v.2.2)
  else if part = 1 then (v.1, shiftDigit v.2.1 c, v.2.2)
  else (v.1, v.2.1, shiftDigit v.2.2 c)

/-- The loop of `parse_version`. -/
def parseVersionLoop (part : Nat) (v : Int × Int × Int) :
    List UInt8 → Except Int (Int × Int × Int)
  | [] => .ok v
  | c :: s =>
    if isDigit c then parseVersionLoop part (versionDigit part v c) s
    else if c = '.'.toUInt8 then
      if 2 < part + 1 then .error einval else parseVersionLoop (part + 1) v s
    else .ok v

/-- `parse_version` (catalog.c:92). -/
def parseVersion (s : List UInt8) : Except Int (Int × Int × Int) := parseVersionLoop 0 (0, 0, 0) s

/-- `version_ge` (catalog.c:122). -/
def versionGe (a b : List UInt8) : Bool :=
  match parseVersion a, parseVersion b with
  | .error _, _ => false
  | .ok _, .error _ => true
  | .ok (am, an, ap), .ok (bm, bn, bp) =>
    if am ≠ bm then decide (bm < am)
    else if an ≠ bn then decide (bn < an)
    else decide (bp ≤ ap)

/-- The test of the active version in `catalog_install` (catalog.c:376). Without an active
version, `min_version` has to begin with `0`. -/
def versionGate (cur : Option (List UInt8)) (minVersion : List UInt8) : Bool :=
  match cur with
  | some cur => versionGe cur minVersion
  | none => charAt minVersion 0 == '0'.toUInt8

/-! ## Numbers as they are written -/

/-- A number: at least one digit. -/
structure Numeral where
  digits : List Nat
  nonempty : digits ≠ []
  lt : ∀ d ∈ digits, d < 10

namespace Numeral

/-- Its characters. -/
def text (n : Numeral) : List UInt8 := n.digits.map digitChar

/-- Its value. -/
def value (n : Numeral) : Nat := horner 0 n.digits

/-- The decimal form of a number. -/
def of (n : Nat) : Numeral where
  digits := if n = 0 then [0] else (Nat.digits 10 n).reverse
  nonempty := by
    split_ifs with hn
    · exact List.cons_ne_nil _ _
    · rw [ne_eq, List.reverse_eq_nil_iff]
      exact Nat.digits_ne_nil_iff_ne_zero.mpr hn
  lt := by
    intro d hd
    split_ifs at hd with hn
    · rw [List.mem_singleton.mp hd]
      decide
    · exact Nat.digits_lt_base (by decide) (List.mem_reverse.mp hd)

end Numeral

/-- `digits`, `digits.digits` or `digits.digits.digits`. -/
inductive Version where
  | one (major : Numeral)
  | two (major minor : Numeral)
  | three (major minor patch : Numeral)

namespace Version

/-- The characters of a version. -/
def text : Version → List UInt8
  | one a => a.text
  | two a b => a.text ++ '.'.toUInt8 :: b.text
  | three a b c => a.text ++ '.'.toUInt8 :: (b.text ++ '.'.toUInt8 :: c.text)

/-- Major, minor and patch. Parts that are missing count as zero. -/
def parts : Version → Nat × Nat × Nat
  | one a => (a.value, 0, 0)
  | two a b => (a.value, b.value, 0)
  | three a b c => (a.value, b.value, c.value)

/-- The numbers in their lexicographic order. -/
def numbers (v : Version) : ℕ ×ₗ ℕ ×ₗ ℕ := toLex (v.parts.1, toLex (v.parts.2.1, v.parts.2.2))

/-- The numbers as `int`s. -/
def ints (v : Version) : ℤ ×ₗ ℤ ×ₗ ℤ :=
  toLex (toInt32 v.parts.1, toLex (toInt32 v.parts.2.1, toInt32 v.parts.2.2))

/-- It fits in the 16 bytes of the catalog. -/
def Short (v : Version) : Prop := v.text.length ≤ 15

/-- All parts fit in an `int`. -/
def InRange (v : Version) : Prop :=
  v.parts.1 < 2 ^ 31 ∧ v.parts.2.1 < 2 ^ 31 ∧ v.parts.2.2 < 2 ^ 31

end Version

/-- The version is compared as its numbers are, with every version that fits in `int`s. -/
structure NumericVersion (a : Version) : Prop where
  ge : ∀ b : Version, b.Short → b.InRange →
    (versionGe a.text b.text = true ↔ b.numbers ≤ a.numbers)
  le : ∀ b : Version, b.Short → b.InRange →
    (versionGe b.text a.text = true ↔ a.numbers ≤ b.numbers)
  /-- The comparison is a total preorder. -/
  total : ∀ b : Version, b.Short → versionGe a.text b.text = true ∨ versionGe b.text a.text = true
  trans : ∀ b c : Version, b.Short → c.Short → versionGe a.text b.text = true →
    versionGe b.text c.text = true → versionGe a.text c.text = true
  /-- A later version passes where an earlier one does. -/
  gate : ∀ cur minVersion : Version, cur.Short → minVersion.Short → cur.InRange →
    minVersion.InRange → cur.numbers ≤ a.numbers →
    versionGate (some cur.text) minVersion.text = true →
    versionGate (some a.text) minVersion.text = true

/-! ## Parsing -/

/-- The digits of a part are read one after the other. -/
theorem parseVersionLoop_digits (part : Nat) {ds : List Nat} (hds : ∀ d ∈ ds, d < 10)
    (v : Int × Int × Int) (rest : List UInt8) :
    parseVersionLoop part v (ds.map digitChar ++ rest) =
      parseVersionLoop part ((ds.map digitChar).foldl (versionDigit part) v) rest := by
  induction ds generalizing v with
  | nil => rfl
  | cons d ds ih =>
    obtain ⟨hd, hds⟩ := List.forall_mem_cons.mp hds
    rw [List.map_cons, List.cons_append, parseVersionLoop, if_pos (isDigit_digitChar hd)]
    exact ih hds _

theorem toInt32_shift (x y : Int) : toInt32 (toInt32 x * 10 + y) = toInt32 (x * 10 + y) := by
  have hbmod : ∀ m : Nat, Int.bmod (Int.bmod x m * 10 + y) m = Int.bmod (x * 10 + y) m := by
    intro m
    rw [← Int.bmod_add_bmod, Int.bmod_mul_bmod, Int.bmod_add_bmod]
  rw [toInt32, toInt32, toInt32]
  exact hbmod _

/-- A number is read modulo `2 ^ 32`. -/
theorem foldl_shiftDigit {ds : List Nat} (hds : ∀ d ∈ ds, d < 10) (n : Nat) :
    (ds.map digitChar).foldl shiftDigit (toInt32 n) = toInt32 (horner n ds) := by
  induction ds generalizing n with
  | nil => rw [List.map_nil, List.foldl_nil, horner, List.foldl_nil]
  | cons d ds ih =>
    obtain ⟨hd, hds⟩ := List.forall_mem_cons.mp hds
    have hstep : shiftDigit (toInt32 n) (digitChar d) = toInt32 ((n * 10 + d : Nat) : Int) := by
      rw [shiftDigit, toInt32_shift, toNat_digitChar hd, Nat.cast_add, Nat.cast_mul, Nat.cast_ofNat]
    rw [List.map_cons, List.foldl_cons, hstep, ih hds, horner, horner, List.foldl_cons]

theorem foldl_versionDigit (part : Nat) (cs : List UInt8) (v : Int × Int × Int) :
    cs.foldl (versionDigit part) v =
      if part = 0 then (cs.foldl shiftDigit v.1, v.2.1, v.2.2)
      else if part = 1 then (v.1, cs.foldl shiftDigit v.2.1, v.2.2)
      else (v.1, v.2.1, cs.foldl shiftDigit v.2.2) := by
  induction cs generalizing v with
  | nil => split_ifs <;> rfl
  | cons c cs ih =>
    rw [List.foldl_cons, ih, versionDigit]
    split_ifs
    · rfl
    · rfl
    · rfl

/-- The digits of a part, in front of the next dot or of the end. -/
theorem parseVersionLoop_text (part : Nat) (n : Numeral) (v : Int × Int × Int)
    (rest : List UInt8) :
    parseVersionLoop part v (n.text ++ rest) =
      parseVersionLoop part (n.text.foldl (versionDigit part) v) rest :=
  parseVersionLoop_digits part n.lt v rest

theorem foldl_text (n : Numeral) : n.text.foldl shiftDigit 0 = toInt32 n.value := by
  have hzero : toInt32 ((0 : Nat) : Int) = 0 := toInt32_eq_self (by decide) (by decide)
  have h := foldl_shiftDigit n.lt 0
  rw [hzero] at h
  exact h

theorem parseVersionLoop_dot {part : Nat} (hpart : part < 2) (v : Int × Int × Int)
    (rest : List UInt8) :
    parseVersionLoop part v ('.'.toUInt8 :: rest) = parseVersionLoop (part + 1) v rest := by
  rw [parseVersionLoop, if_neg (by decide), if_pos rfl, if_neg (by omega)]

/-- **`parse_version`** reads the numbers of a version modulo `2 ^ 32`. -/
theorem parseVersion_text (v : Version) :
    parseVersion v.text =
      .ok (toInt32 v.parts.1, toInt32 v.parts.2.1, toInt32 v.parts.2.2) := by
  have hzero : toInt32 ((0 : Nat) : Int) = 0 := toInt32_eq_self (by decide) (by decide)
  have hlast : ∀ part (n : Numeral) w, parseVersionLoop part w n.text =
      .ok (n.text.foldl (versionDigit part) w) := by
    intro part n w
    rw [← List.append_nil n.text, parseVersionLoop_text, List.append_nil]
    rfl
  rw [parseVersion]
  cases v with
  | one a =>
    rw [Version.text, Version.parts, hlast, foldl_versionDigit, if_pos rfl, foldl_text, hzero]
  | two a b =>
    rw [Version.text, Version.parts, parseVersionLoop_text, parseVersionLoop_dot (by decide), hlast,
      foldl_versionDigit, foldl_versionDigit, if_pos rfl, if_neg (by decide), if_pos rfl, foldl_text,
      foldl_text, hzero]
  | three a b c =>
    rw [Version.text, Version.parts, parseVersionLoop_text, parseVersionLoop_dot (by decide),
      parseVersionLoop_text, parseVersionLoop_dot (by decide), hlast, foldl_versionDigit,
      foldl_versionDigit, foldl_versionDigit, if_pos rfl, if_neg (by decide), if_pos rfl,
      if_neg (by decide), if_neg (by decide), foldl_text, foldl_text, foldl_text]

/-! ## The order -/

/-- **`version_ge`** is the lexicographic order of the numbers as `int`s. -/
theorem versionGe_iff (a b : Version) : versionGe a.text b.text = true ↔ b.ints ≤ a.ints := by
  rw [versionGe, parseVersion_text, parseVersion_text, Version.ints, Version.ints,
    Prod.Lex.toLex_le_toLex, Prod.Lex.toLex_le_toLex]
  dsimp only
  split_ifs with hmajor hminor
  · rw [decide_eq_true_iff]
    exact ⟨.inl, fun h => h.resolve_right fun heq => hmajor heq.1.symm⟩
  · rw [decide_eq_true_iff]
    rw [not_not] at hmajor
    constructor
    · exact fun hlt => .inr ⟨hmajor.symm, .inl hlt⟩
    · rintro (hlt | ⟨-, hlt | ⟨heq, -⟩⟩)
      · omega
      · exact hlt
      · exact absurd heq.symm hminor
  · rw [decide_eq_true_iff]
    rw [not_not] at hmajor hminor
    constructor
    · exact fun hle => .inr ⟨hmajor.symm, .inr ⟨hminor.symm, hle⟩⟩
    · rintro (hlt | ⟨-, hlt | ⟨-, hle⟩⟩)
      · omega
      · omega
      · exact hle

/-- The numbers as integers. -/
theorem numbers_le_iff (a b : Version) :
    b.numbers ≤ a.numbers ↔
      (toLex ((b.parts.1 : ℤ), toLex ((b.parts.2.1 : ℤ), (b.parts.2.2 : ℤ))) : ℤ ×ₗ ℤ ×ₗ ℤ) ≤
        toLex ((a.parts.1 : ℤ), toLex ((a.parts.2.1 : ℤ), (a.parts.2.2 : ℤ))) := by
  rw [Version.numbers, Version.numbers, Prod.Lex.toLex_le_toLex, Prod.Lex.toLex_le_toLex,
    Prod.Lex.toLex_le_toLex, Prod.Lex.toLex_le_toLex]
  simp only [Nat.cast_lt, Nat.cast_inj, Nat.cast_le]

/-- Numbers that fit are the `int`s. -/
theorem Version.InRange.ints {v : Version} (h : v.InRange) :
    v.ints = toLex ((v.parts.1 : ℤ), toLex ((v.parts.2.1 : ℤ), (v.parts.2.2 : ℤ))) := by
  obtain ⟨hmajor, hminor, hpatch⟩ := h
  rw [Version.ints, toInt32_eq_self (by omega) (by omega), toInt32_eq_self (by omega) (by omega),
    toInt32_eq_self (by omega) (by omega)]

/-- Two versions that fit are compared numerically. -/
theorem versionGe_of_inRange {a b : Version} (ha : a.InRange) (hb : b.InRange) :
    versionGe a.text b.text = true ↔ b.numbers ≤ a.numbers := by
  rw [versionGe_iff, numbers_le_iff, ha.ints, hb.ints]

/-! ## Numbers that do not fit -/

theorem horner_lt {ds : List Nat} (hds : ∀ d ∈ ds, d < 10) (n : Nat) :
    horner n ds < (n + 1) * 10 ^ ds.length := by
  induction ds generalizing n with
  | nil => rw [horner, List.foldl_nil, List.length_nil, Nat.pow_zero]; omega
  | cons d ds ih =>
    obtain ⟨hd, hds⟩ := List.forall_mem_cons.mp hds
    calc horner n (d :: ds) < (n * 10 + d + 1) * 10 ^ ds.length := ih hds _
      _ ≤ ((n + 1) * 10) * 10 ^ ds.length := Nat.mul_le_mul_right _ (by omega)
      _ = (n + 1) * 10 ^ (d :: ds).length := by rw [List.length_cons, Nat.pow_succ']; ring

namespace Numeral

theorem digits_of (n : Nat) :
    (of n).digits = if n = 0 then [0] else (Nat.digits 10 n).reverse := rfl

theorem value_of (n : Nat) : (of n).value = n := by
  rw [value, digits_of]
  split_ifs with hn
  · rw [hn]
    rfl
  · exact horner_digits n

/-- The number, or the largest `int`. -/
def clamp (n : Numeral) : Numeral := if n.value < 2 ^ 31 then n else of (2 ^ 31 - 1)

theorem value_clamp (n : Numeral) : n.clamp.value = min n.value (2 ^ 31 - 1) := by
  rw [clamp]
  split_ifs with hn
  · omega
  · rw [value_of]
    omega

/-- A number that does not fit has at least ten digits. -/
theorem length_clamp_le (n : Numeral) : n.clamp.text.length ≤ n.text.length := by
  rw [clamp]
  split_ifs with hn
  · exact Nat.le_refl _
  · have hlt : n.value < (0 + 1) * 10 ^ n.digits.length := horner_lt n.lt 0
    have hten : 10 ≤ n.digits.length := by
      by_contra hshort
      have : 10 ^ n.digits.length ≤ 10 ^ 9 := Nat.pow_le_pow_right (by decide) (by omega)
      omega
    have hmax : (of (2 ^ 31 - 1)).text.length = 10 := by
      rw [text, digits_of, if_neg (by decide), List.length_map, List.length_reverse]
      norm_num
    rw [hmax, text, List.length_map]
    exact hten

/-- As an `int` the number is not above. -/
theorem toInt32_le_clamp (n : Numeral) : toInt32 n.value ≤ n.clamp.value := by
  rw [value_clamp]
  by_cases hn : n.value < 2 ^ 31
  · rw [toInt32_eq_self (by omega) (by omega)]
    omega
  · have hlt : toInt32 n.value < 2 ^ 31 := by
      rw [toInt32]
      exact Int.bmod_lt (by decide)
    omega

end Numeral

/-- The version with its numbers cut to an `int`. -/
def Version.clamp : Version → Version
  | .one a => .one a.clamp
  | .two a b => .two a.clamp b.clamp
  | .three a b c => .three a.clamp b.clamp c.clamp

section Clamp

variable (v : Version)

theorem parts_clamp : v.clamp.parts =
    (min v.parts.1 (2 ^ 31 - 1), min v.parts.2.1 (2 ^ 31 - 1), min v.parts.2.2 (2 ^ 31 - 1)) := by
  cases v with
  | one a => simp only [Version.clamp, Version.parts, Numeral.value_clamp, Nat.zero_min]
  | two a b => simp only [Version.clamp, Version.parts, Numeral.value_clamp, Nat.zero_min]
  | three a b c => simp only [Version.clamp, Version.parts, Numeral.value_clamp]

theorem inRange_clamp : v.clamp.InRange := by
  rw [Version.InRange, parts_clamp]
  dsimp only
  omega

theorem Version.Short.clamp {v : Version} (h : v.Short) : v.clamp.Short := by
  rw [Version.Short] at h ⊢
  cases v with
  | one a => exact (a.length_clamp_le).trans h
  | two a b =>
    have ha := a.length_clamp_le
    have hb := b.length_clamp_le
    simp only [Version.clamp, Version.text, List.length_append, List.length_cons] at h ⊢
    omega
  | three a b c =>
    have ha := a.length_clamp_le
    have hb := b.length_clamp_le
    have hc := c.length_clamp_le
    simp only [Version.clamp, Version.text, List.length_append, List.length_cons] at h ⊢
    omega

/-- The cut version counts as at least the version. -/
theorem versionGe_clamp : versionGe v.clamp.text v.text = true := by
  have hzero : toInt32 ((0 : Nat) : Int) ≤ ((0 : Nat) : Int) := by
    rw [toInt32_eq_self (by decide) (by decide)]
  rw [versionGe_iff, (inRange_clamp v).ints, Version.ints]
  have hparts : toInt32 v.parts.1 ≤ v.clamp.parts.1 ∧ toInt32 v.parts.2.1 ≤ v.clamp.parts.2.1 ∧
      toInt32 v.parts.2.2 ≤ v.clamp.parts.2.2 := by
    cases v with
    | one a => exact ⟨a.toInt32_le_clamp, hzero, hzero⟩
    | two a b => exact ⟨a.toInt32_le_clamp, b.toInt32_le_clamp, hzero⟩
    | three a b c => exact ⟨a.toInt32_le_clamp, b.toInt32_le_clamp, c.toInt32_le_clamp⟩
  obtain ⟨hmajor, hminor, hpatch⟩ := hparts
  exact Prod.Lex.toLex_mono ⟨hmajor, Prod.Lex.toLex_mono ⟨hminor, hpatch⟩⟩

/-- Its numbers are below, unless all fit. -/
theorem inRange_of_le_clamp {v : Version} (h : v.numbers ≤ v.clamp.numbers) : v.InRange := by
  rw [Version.numbers, Version.numbers, parts_clamp, Prod.Lex.toLex_le_toLex,
    Prod.Lex.toLex_le_toLex] at h
  dsimp only at h
  rw [Version.InRange]
  omega

end Clamp

/-- **A version is compared numerically iff it fits in `int`s.** -/
theorem numericVersion_iff (a : Version) (ha : a.Short) : NumericVersion a ↔ a.InRange := by
  constructor
  · intro h
    -- against its own cut version
    exact inRange_of_le_clamp ((h.le a.clamp ha.clamp (inRange_clamp a)).mp (versionGe_clamp a))
  · intro hrange
    refine ⟨fun b _ hb => versionGe_of_inRange hrange hb, fun b _ hb => versionGe_of_inRange hb hrange,
      fun b _ => ?_, fun b c _ _ hab hbc => ?_, fun cur minVersion _ _ hcur hmin hle hpass => ?_⟩
    · rw [versionGe_iff, versionGe_iff]
      exact le_total _ _
    · rw [versionGe_iff] at hab hbc ⊢
      exact hbc.trans hab
    · have hcurrent : versionGe cur.text minVersion.text = true := hpass
      show versionGe a.text minVersion.text = true
      rw [versionGe_of_inRange hcur hmin] at hcurrent
      rw [versionGe_of_inRange hrange hmin]
      exact hcurrent.trans hle

/-- `1.10` is above `1.9`. -/
theorem numericVersion_ten : NumericVersion (.two (.of 1) (.of 10)) := by
  refine (numericVersion_iff _ ?_).mpr ?_
  · rw [Version.Short]
    simp [Version.text, Numeral.text, Numeral.of]
  · rw [Version.InRange, Version.parts, Numeral.value_of, Numeral.value_of]
    decide

/-- `2147483648` counts as less than `1`, and does not pass where `1` passes. -/
theorem not_versionGe_numeric :
    ¬ (versionGe (Version.one (.of 2147483648)).text (Version.one (.of 1)).text = true ↔
      (Version.one (.of 1)).numbers ≤ (Version.one (.of 2147483648)).numbers) ∧
    versionGate (some (Version.one (.of 1)).text) (Version.one (.of 1)).text = true ∧
    versionGate (some (Version.one (.of 2147483648)).text) (Version.one (.of 1)).text = false := by
  have hwrap : toInt32 ((2147483648 : Nat) : Int) = -2147483648 := by decide +kernel
  have hone : toInt32 ((1 : Nat) : Int) = 1 := toInt32_eq_self (by decide) (by decide)
  have hless : ¬ versionGe (Version.one (.of 2147483648)).text (Version.one (.of 1)).text = true := by
    rw [versionGe_iff, Version.ints, Version.ints, Version.parts, Version.parts, Numeral.value_of,
      Numeral.value_of, hwrap, hone, Prod.Lex.toLex_le_toLex]
    decide
  have hnumeric : (Version.one (.of 1)).numbers ≤ (Version.one (.of 2147483648)).numbers := by
    rw [Version.numbers, Version.numbers, Version.parts, Version.parts, Numeral.value_of,
      Numeral.value_of, Prod.Lex.toLex_le_toLex]
    decide
  refine ⟨fun h => hless (h.mpr hnumeric), ?_, Bool.eq_false_iff.mpr hless⟩
  show versionGe (Version.one (.of 1)).text (Version.one (.of 1)).text = true
  exact (versionGe_iff _ _).mpr (le_refl _)

end OpenAgentOS
