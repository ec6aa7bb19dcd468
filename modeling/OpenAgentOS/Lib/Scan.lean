import OpenAgentOS.Lib.CString

/-!
# Scanning loops over C strings

The loops with which hand-written parsers walk over a text: skipping blanks, and
reading a port number that is refused as soon as it leaves 16 bits.
-/

namespace CString

/-- `while (*s == ' ' || *s == '\t') s++`. -/
def skipBlanks (s : List UInt8) : List UInt8 :=
  s.dropWhile fun c => c == ' '.toUInt8 || c == '\t'.toUInt8

/-- `while (isdigit(*s)) { p = p * 10 + (*s - '0'); if (p > 65535) fail; s++; }`: the
number read and what is left of the string. -/
def scanPort (p : Nat) : List UInt8 → Option (Nat × List UInt8)
  | [] => some (p, [])
  | c :: s =>
    if isDigit c then
      let p := p * 10 + (c.toNat - '0'.toNat)
      if 65535 < p then none else scanPort p s
    else some (p, c :: s)

/-- A port number that was read fits into 16 bits. -/
theorem scanPort_le {s rest : List UInt8} {p q : Nat} (hp : p ≤ 65535)
    (h : scanPort p s = some (q, rest)) : q ≤ 65535 := by
  induction s generalizing p with
  | nil =>
    obtain ⟨rfl, -⟩ := Prod.mk.inj (Option.some.inj h)
    exact hp
  | cons c s ih =>
    rw [scanPort] at h
    by_cases hc : isDigit c = true
    · rw [if_pos hc] at h
      dsimp only at h
      split_ifs at h with hbig
      exact ih (Nat.not_lt.mp hbig) h
    · rw [if_neg hc] at h
      obtain ⟨rfl, -⟩ := Prod.mk.inj (Option.some.inj h)
      exact hp

end CString
