import SchemaDrift.Text.Decimal
import SchemaDrift.Text.Case
import SchemaDrift.Text.Joined

/-!
Decimal numerals as a server reads them into a floating point column: each stands for the nearest
double precision number, a tie going to the even significand.

A finite positive number is held as `significand · 2 ^ exponent` with a significand of 53 bits, or of
fewer bits under the least exponent. Equal numbers are then equal values.
-/

namespace SchemaDrift

/-- A double precision number. Zero has one sign here: both zeros are equal numbers. -/
inductive Binary64 where
  | zero
  | finite (negative : Bool) (significand : Nat) (exponent : Int)
  | infinite (negative : Bool)
  | notANumber
  deriving DecidableEq, Repr

namespace Binary64

/-- Equality of numbers, where what is not a number equals nothing. -/
def same : Binary64 → Binary64 → Bool
  | notANumber, _ => false
  | _, notANumber => false
  | a, b => a = b

/-- The bits of a significand. -/
def precision : Nat := 53

def minExponent : Int := -1074

def maxExponent : Int := 971

/-- The quotient `n / d` rounded to the nearest whole number, a tie to the even one. -/
def roundEven (n d : Nat) : Nat :=
  let q := n / d
  let twice := 2 * (n % d)
  if twice < d then q else if d < twice then q + 1 else q + q % 2

/-- The greatest `k` with `2 ^ k ≤ n / d`. -/
def floorLog (n d : Nat) : Int :=
  let k : Int := (Nat.log2 n : Int) - Nat.log2 d
  let reached := if 0 ≤ k then d <<< k.toNat ≤ n else d ≤ n <<< (-k).toNat
  if reached then k else k - 1

/-- The number nearest to `n / d`, which is positive. -/
def ofQuotient (negative : Bool) (n d : Nat) : Binary64 :=
  let e := max minExponent (floorLog n d - (precision - 1))
  let m := if 0 ≤ e then roundEven n (d <<< e.toNat) else roundEven (n <<< (-e).toNat) d
  let (m, e) := if m = 1 <<< precision then (1 <<< (precision - 1), e + 1) else (m, e)
  if m = 0 then zero
  else if maxExponent < e then infinite negative
  else finite negative m e

/-- The decimal exponents past which every number is infinite, or rounds to zero. -/
def decimalReach : Int := 400

/-- The number nearest to `digits · 10 ^ exponent`. The size of the number decides first, so that
no power of ten is formed that the result does not need. -/
def ofDecimal (negative : Bool) (digits : List Char) (exponent : Int) : Binary64 :=
  let m := Nat.ofDigitChars 10 digits 0
  let size : Int := exponent + (Nat.toDigits 10 m).length
  if m = 0 then zero
  else if decimalReach < size then infinite negative
  else if size < -decimalReach then zero
  else if 0 ≤ exponent then ofQuotient negative (m * Nat.pow 10 exponent.toNat) 1
  else ofQuotient negative m (Nat.pow 10 (-exponent).toNat)

/-! ### Numerals -/

/-- The words for numbers without digits. -/
def ofWord? (negative : Bool) (cs : List Char) : Option Binary64 :=
  match Text.lower (String.ofList cs) with
  | "inf" | "infinity" => some (infinite negative)
  | "nan" => some notANumber
  | _ => none

/-- The exponent of a numeral: an optional sign and digits. -/
def readExponent (cs : List Char) : Option Int :=
  let (negative, digits) := match cs with
    | '-' :: rest => (true, rest)
    | '+' :: rest => (false, rest)
    | _ => (false, cs)
  if digits.isEmpty || !digits.all Char.isDigit then none
  else
    let n : Int := Nat.ofDigitChars 10 digits 0
    some (if negative then -n else n)

/-- A numeral without sign: digits with a point among, before or after them, and an optional
exponent. -/
def readUnsigned (negative : Bool) (cs : List Char) : Option Binary64 :=
  let whole := cs.takeWhile Char.isDigit
  let rest := cs.dropWhile Char.isDigit
  let (fraction, rest) := match rest with
    | '.' :: more => (more.takeWhile Char.isDigit, more.dropWhile Char.isDigit)
    | _ => ([], rest)
  if whole.isEmpty && fraction.isEmpty then none
  else
    let number (e : Int) := some (ofDecimal negative (whole ++ fraction) (e - fraction.length))
    match rest with
    | [] => number 0
    | c :: more => if c = 'e' || c = 'E' then (readExponent more).bind number else none

/-- The number that a numeral stands for. -/
def read (s : String) : Option Binary64 :=
  let (negative, cs) := match s.toList with
    | '-' :: rest => (true, rest)
    | '+' :: rest => (false, rest)
    | cs => (false, cs)
  (readUnsigned negative cs).orElse fun _ => ofWord? negative cs

end Binary64

/-- Whether two texts are the same number: equal texts, or numerals of equal numbers. -/
def sameNumber (x y : String) : Bool :=
  x = y ||
  match Binary64.read x, Binary64.read y with
  | some a, some b => a.same b
  | _, _ => false

end SchemaDrift
