import Mathlib
import SchemaDrift.Drift.Table
import SchemaDrift.Proofs.NearestDouble
import SchemaDrift.Proofs.TokenRead

/-!
Numeric defaults as they are compared. A default is a numeral of any length and exponent; it is read as
the double nearest to the number that it denotes. Equal numbers therefore count as the same default,
and so do different ones that are nearest to one double.
-/

namespace SchemaDrift

/-! ### Numerals -/

/-- Decimal digits, perhaps none. -/
structure Digits where
  chars : List Char
  isDigit : ∀ c ∈ chars, c.isDigit = true

lemma ne_of_isDigit {c : Char} (h : c.isDigit = true) : c ≠ '-' ∧ c ≠ '+' := by
  constructor <;> rintro rfl <;> cases h

namespace Digits

def number (ds : Digits) : ℕ := Nat.ofDigitChars 10 ds.chars 0

lemma span (ds : Digits) {rest : List Char} (h : ∀ c ∈ rest.head?, c.isDigit = false) :
    (ds.chars ++ rest).takeWhile Char.isDigit = ds.chars ∧
      (ds.chars ++ rest).dropWhile Char.isDigit = rest := span_append ds.isDigit h

end Digits

/-- The sign that is written before digits. -/
inductive WrittenSign where
  | absent
  | plus
  | minus
  deriving DecidableEq

namespace WrittenSign

def chars : WrittenSign → List Char
  | absent => []
  | plus => ['+']
  | minus => ['-']

def apply {α : Type} [Neg α] (s : WrittenSign) (a : α) : α := if s = minus then -a else a

end WrittenSign

/-- The exponent of a numeral, behind its letter. -/
structure WrittenExponent where
  letter : Char
  sign : WrittenSign
  digits : Digits
  letter_mem : letter = 'e' ∨ letter = 'E'
  digits_ne : digits.chars ≠ []

namespace WrittenExponent

def chars (e : WrittenExponent) : List Char := e.letter :: (e.sign.chars ++ e.digits.chars)

def number (e : WrittenExponent) : ℤ := e.sign.apply (e.digits.number : ℤ)

lemma readExponent_chars (e : WrittenExponent) :
    Binary64.readExponent (e.sign.chars ++ e.digits.chars) = some e.number := by
  have hdigits := e.digits.isDigit
  have hne := e.digits_ne
  rw [number, WrittenSign.apply, Digits.number]
  generalize e.digits.chars = ds at hdigits hne ⊢
  rcases e.sign with _ | _ | _
  · obtain ⟨c, ds, rfl⟩ := List.exists_cons_of_ne_nil hne
    have hc := ne_of_isDigit (hdigits c List.mem_cons_self)
    rw [WrittenSign.chars, List.nil_append, Binary64.readExponent]
    · simpa using hdigits
    · simp [hc.1]
    · simp [hc.2]
  · simpa [Binary64.readExponent, WrittenSign.chars, hne] using hdigits
  · simpa [Binary64.readExponent, WrittenSign.chars, hne] using hdigits

end WrittenExponent

/-- A numeral: a sign, digits, a fraction and an exponent, of which only the digits must stand. -/
structure Numeral where
  sign : WrittenSign
  whole : Digits
  fraction? : Option Digits
  exponent? : Option WrittenExponent
  whole_ne : whole.chars ≠ []

namespace Numeral

variable (x : Numeral)

/-- The digits behind the point. -/
def fraction : List Char := x.fraction?.elim [] Digits.chars

def exponent : ℤ := x.exponent?.elim 0 WrittenExponent.number

def exponentChars : List Char := x.exponent?.elim [] WrittenExponent.chars

def unsignedChars : List Char :=
  x.whole.chars ++ (x.fraction?.elim [] ('.' :: ·.chars) ++ x.exponentChars)

def text : String := String.ofList (x.sign.chars ++ x.unsignedChars)

/-- The number that the numeral denotes, without its sign. -/
def magnitude : ℚ :=
  (x.whole.number + x.fraction?.elim 0 fun f => (f.number : ℚ) / 10 ^ f.chars.length) * 10 ^ x.exponent

/-- The number that the numeral denotes. -/
def value : ℚ := x.sign.apply x.magnitude

/-! ### Reading -/

lemma exponentChars_cases : (x.exponentChars = [] ∧ x.exponent = 0) ∨
    ∃ c more, (c = 'e' ∨ c = 'E') ∧ x.exponentChars = c :: more ∧
      Binary64.readExponent more = some x.exponent := by
  rw [exponentChars, exponent]
  rcases x.exponent? with _ | e
  · exact .inl ⟨rfl, rfl⟩
  · exact .inr ⟨_, _, e.letter_mem, rfl, e.readExponent_chars⟩

lemma exponentChars_not_isDigit : ∀ c ∈ x.exponentChars.head?, c.isDigit = false := by
  rcases x.exponentChars_cases with ⟨hchars, -⟩ | ⟨c, more, rfl | rfl, hchars, -⟩ <;> simp [hchars]

lemma readUnsigned_chars (negative : Bool) : Binary64.readUnsigned negative x.unsignedChars =
    some (Binary64.ofDecimal negative (x.whole.chars ++ x.fraction)
      (x.exponent - x.fraction.length)) := by
  have hempty : x.whole.chars.isEmpty = false := by simpa using x.whole_ne
  have hexponent := x.exponentChars_cases
  have hend := x.exponentChars_not_isDigit
  rw [unsignedChars, fraction]
  generalize x.exponentChars = tail at hexponent hend ⊢
  rcases x.fraction? with _ | f
  · obtain ⟨htake, hdrop⟩ := x.whole.span hend
    change Binary64.readUnsigned negative (x.whole.chars ++ tail) = _
    generalize x.whole.chars ++ tail = cs at htake hdrop
    rcases hexponent with ⟨rfl, hnumber⟩ | ⟨c, more, rfl | rfl, rfl, hnumber⟩ <;>
      simp [Binary64.readUnsigned, htake, hdrop, hempty, hnumber]
  · have hpoint : ∀ c ∈ ('.' :: (f.chars ++ tail)).head?, c.isDigit = false := by simp
    obtain ⟨htake, hdrop⟩ := x.whole.span hpoint
    obtain ⟨htake', hdrop'⟩ := f.span hend
    change Binary64.readUnsigned negative (x.whole.chars ++ '.' :: (f.chars ++ tail)) = _
    generalize x.whole.chars ++ '.' :: (f.chars ++ tail) = cs at htake hdrop
    generalize f.chars ++ tail = digits at htake' hdrop' hdrop
    rcases hexponent with ⟨rfl, hnumber⟩ | ⟨c, more, rfl | rfl, rfl, hnumber⟩ <;>
      simp [Binary64.readUnsigned, htake, hdrop, htake', hdrop', hempty, hnumber]

lemma read_text : Binary64.read x.text = some (Binary64.ofDecimal (decide (x.sign = .minus))
    (x.whole.chars ++ x.fraction) (x.exponent - x.fraction.length)) := by
  obtain ⟨c, cs, hcs, hc⟩ : ∃ c cs, x.unsignedChars = c :: cs ∧ c.isDigit = true := by
    obtain ⟨c, cs, hcs⟩ := List.exists_cons_of_ne_nil x.whole_ne
    refine ⟨c, _, congrArg (· ++ _) hcs, x.whole.isDigit c ?_⟩
    rw [hcs]
    exact List.mem_cons_self
  have hread (negative : Bool) := x.readUnsigned_chars negative
  rw [hcs] at hread
  rw [text, hcs, Binary64.read, String.toList_ofList]
  rcases x.sign with _ | _ | _
  · have hne := ne_of_isDigit hc
    simp only [WrittenSign.chars, List.nil_append]
    split
    · exact absurd (List.cons.inj ‹_›).1 hne.1
    · exact absurd (List.cons.inj ‹_›).1 hne.2
    · rw [hread]
      rfl
  · simp only [WrittenSign.chars, List.singleton_append, hread]
    rfl
  · simp only [WrittenSign.chars, List.singleton_append, hread]
    rfl

lemma magnitude_eq : x.magnitude = Nat.ofDigitChars 10 (x.whole.chars ++ x.fraction) 0 *
    10 ^ (x.exponent - x.fraction.length) := by
  rw [magnitude, fraction, zpow_sub₀ (by norm_num), zpow_natCast]
  rcases x.fraction? with _ | f
  · simp [Digits.number]
  · rw [Option.elim_some, Option.elim_some, Nat.ofDigitChars_append,
      Nat.ofDigitChars_eq_ofDigitChars_zero]
    rw [← Digits.number, ← Digits.number]
    push_cast
    field_simp

lemma magnitude_nonneg : 0 ≤ x.magnitude := by
  rw [magnitude_eq]
  positivity

lemma abs_value : |x.value| = x.magnitude := by
  rw [value, WrittenSign.apply]
  split_ifs
  · rw [abs_neg, abs_of_nonneg x.magnitude_nonneg]
  · rw [abs_of_nonneg x.magnitude_nonneg]

lemma sign_eq (h : x.value ≠ 0) : x.sign = .minus ↔ x.value < 0 := by
  have hnonneg := x.magnitude_nonneg
  rw [value, WrittenSign.apply] at h ⊢
  split_ifs with hsign
  · have hne : x.magnitude ≠ 0 := by simpa [hsign] using h
    have hpos := lt_of_le_of_ne hnonneg hne.symm
    simpa [hsign] using hpos
  · simpa [hsign] using hnonneg

/-- **A numeral is read as the double nearest to the number that it denotes.** -/
theorem exists_nearest_read :
    ∃ b, Binary64.read x.text = some b ∧ Binary64.IsNearest x.value b :=
  ⟨_, x.read_text, Binary64.isNearest_ofDecimal (x.abs_value.trans x.magnitude_eq) fun h =>
    decide_eq_decide.2 (x.sign_eq h)⟩

/-- **Numeric defaults are compared by the doubles nearest to them.** Two numerals count as the same
default of a numeric column exactly if one double is nearest to both numbers that they denote; so equal
numbers always do. -/
theorem sameDefault_iff (x y : Numeral) :
    (TablePair.sameDefault true (some (.value x.text)) (some (.value y.text)) = true ↔
      ∃ b, Binary64.IsNearest x.value b ∧ Binary64.IsNearest y.value b) ∧
    (x.value = y.value →
      TablePair.sameDefault true (some (.value x.text)) (some (.value y.text)) = true) := by
  obtain ⟨a, hreadx, hx⟩ := x.exists_nearest_read
  obtain ⟨b, hready, hy⟩ := y.exists_nearest_read
  have hsame : TablePair.sameDefault true (some (.value x.text)) (some (.value y.text)) = true ↔
      a = b := by
    rw [TablePair.sameDefault, if_pos rfl, sameNumber, hreadx, hready]
    simp only [Bool.or_eq_true, decide_eq_true_eq, hx.same_iff hy, or_iff_right_iff_imp]
    intro htext
    rw [htext, hready] at hreadx
    exact (Option.some.inj hreadx).symm
  have hnearest : (∃ b, Binary64.IsNearest x.value b ∧ Binary64.IsNearest y.value b) ↔ a = b := by
    constructor
    · rintro ⟨c, hcx, hcy⟩
      exact (hx.unique hcx).trans (hcy.unique hy)
    · rintro rfl
      exact ⟨a, hx, hy⟩
  refine ⟨hsame.trans hnearest.symm, fun heq => hsame.2 ?_⟩
  rw [heq] at hx
  exact hx.unique hy

/-- Two whole numbers past the significand of a double: they differ, and count as the same default. -/
theorem exists_sameDefault_ne : ∃ x y : Numeral, x.text = "9007199254740993" ∧
    y.text = "9007199254740992" ∧ x.value ≠ y.value ∧
    TablePair.sameDefault true (some (.value x.text)) (some (.value y.text)) = true := by
  let x : Numeral :=
    ⟨.absent, ⟨"9007199254740993".toList, List.all_eq_true.1 (by decide)⟩, none, none, by decide⟩
  let y : Numeral :=
    ⟨.absent, ⟨"9007199254740992".toList, List.all_eq_true.1 (by decide)⟩, none, none, by decide⟩
  refine ⟨x, y, rfl, rfl, ?_, by decide +kernel⟩
  have hx : x.whole.number = 9007199254740993 := by decide
  have hy : y.whole.number = 9007199254740992 := by decide
  simp only [value, magnitude, hx, hy]
  simp [x, y, WrittenSign.apply, exponent]

end Numeral

end SchemaDrift
