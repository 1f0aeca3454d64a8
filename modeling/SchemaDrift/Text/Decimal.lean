/-!
Natural numbers in decimal, written and read. Reading is bounded: a numeral past the bound is
refused.
-/

namespace SchemaDrift.Text

/-- The number written in decimal digits, without leading zeros. -/
def decimal (n : Nat) : String := String.ofList (Nat.toDigits 10 n)

/-- An integer in decimal, with a minus sign if it is negative. -/
def signedDecimal (i : Int) : String :=
  if i < 0 then "-" ++ decimal i.natAbs else decimal i.natAbs

/-- Reads a non-empty sequence of digits whose value is at most `bound`. -/
def readNat (bound : Nat) (cs : List Char) : Option Nat :=
  let n := Nat.ofDigitChars 10 cs 0
  if !cs.isEmpty && cs.all Char.isDigit && n ≤ bound then some n else none

/-- `readNat` with an optional plus sign in front. -/
def readCount (bound : Nat) (s : String) : Option Nat :=
  match s.toList with
  | '+' :: cs => readNat bound cs
  | cs => readNat bound cs

/-- The largest 32-bit number, the bound for lengths and precisions. -/
def max32 : Nat := 0xFFFFFFFF

/-- The largest 64-bit number, the bound for row counts. -/
def max64 : Nat := 0xFFFFFFFFFFFFFFFF

theorem readNat_le {bound : Nat} {cs : List Char} {n : Nat} (h : readNat bound cs = some n) :
    n ≤ bound := by
  simp only [readNat] at h
  split at h
  · rename_i hc
    simp only [Bool.and_eq_true, decide_eq_true_eq] at hc
    injection h with h
    omega
  · contradiction

end SchemaDrift.Text
