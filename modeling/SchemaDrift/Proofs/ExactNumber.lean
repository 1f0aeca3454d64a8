import Mathlib
import SchemaDrift.ColumnType.Lossless

/-!
Exact numbers in columns. An integer type holds the integers between its bounds. A decimal type holds
the numbers that have at most so many digits before and after the point. From integer to integer and
from decimal to decimal, a conversion counts as lossless exactly when every number of the first type
is one of the second.
-/

namespace SchemaDrift

/-- A number with at most `scale` digits after the point. -/
def HasScale (scale : ℕ) (v : ℚ) : Prop := ∃ n : ℤ, v = n / 10 ^ scale

namespace HasScale

variable {s t : ℕ} {v : ℚ}

lemma mono (hst : s ≤ t) (h : HasScale s v) : HasScale t v := by
  obtain ⟨n, rfl⟩ := h
  have hpow : (10 : ℚ) ^ t = 10 ^ s * 10 ^ (t - s) := by
    rw [← pow_add, Nat.add_sub_cancel' hst]
  refine ⟨n * 10 ^ (t - s), ?_⟩
  rw [hpow, Int.cast_mul, Int.cast_pow, Int.cast_ofNat]
  exact (mul_div_mul_right _ _ (by positivity)).symm

lemma intCast (s : ℕ) (n : ℤ) : HasScale s n := by
  have hzero : HasScale 0 (n : ℚ) := ⟨n, by simp⟩
  exact hzero.mono (Nat.zero_le s)

lemma zero_iff : HasScale 0 v ↔ ∃ n : ℤ, v = n := by
  simp [HasScale]

lemma unit_iff : HasScale t (1 / 10 ^ s) ↔ s ≤ t := by
  constructor
  · rintro ⟨n, hn⟩
    have hs : (10 : ℚ) ^ s ≠ 0 := by positivity
    have ht : (10 : ℚ) ^ t ≠ 0 := by positivity
    have hmul : (10 : ℚ) ^ t = n * 10 ^ s := by
      rw [div_eq_div_iff hs ht, one_mul] at hn
      exact hn
    have hdvd : (10 : ℤ) ^ s ∣ 10 ^ t := ⟨n, by rw [mul_comm]; exact_mod_cast hmul⟩
    have hdvd : 10 ^ s ∣ 10 ^ t := by exact_mod_cast hdvd
    exact (Nat.pow_dvd_pow_iff_le_right (by decide)).1 hdvd
  · intro hst
    have hunit : HasScale s (1 / 10 ^ s) := ⟨1, by simp⟩
    exact hunit.mono hst

end HasScale

/-! ### Bounds of integers -/

namespace IntegerSize

/-- The bits of the absolute value. -/
def magnitudeBits (s : IntegerSize) (isUnsigned : Bool) : ℕ :=
  if isUnsigned then 8 * s.bytes else 8 * s.bytes - 1

lemma high_eq (s : IntegerSize) (isUnsigned : Bool) :
    s.high isUnsigned = ((2 ^ s.magnitudeBits isUnsigned : ℕ) : ℤ) - 1 := rfl

lemma low_eq (s : IntegerSize) :
    s.low false = -((2 ^ s.magnitudeBits false : ℕ) : ℤ) := rfl

lemma low_unsigned (s : IntegerSize) : s.low true = 0 := rfl

lemma one_le_bytes (s : IntegerSize) : 1 ≤ s.bytes := by
  cases s <;> decide

variable {s t : IntegerSize} {u w : Bool}

lemma high_le_high_iff : s.high u ≤ t.high w ↔ s.magnitudeBits u ≤ t.magnitudeBits w := by
  rw [high_eq, high_eq, sub_le_sub_iff_right, Nat.cast_le]
  exact Nat.pow_le_pow_iff_right (by decide)

lemma low_le_low_iff : t.low false ≤ s.low false ↔ s.magnitudeBits false ≤ t.magnitudeBits false := by
  rw [low_eq, low_eq, neg_le_neg_iff, Nat.cast_le]
  exact Nat.pow_le_pow_iff_right (by decide)

lemma low_signed_neg (s : IntegerSize) : s.low false < 0 := by
  have hpos : 0 < 2 ^ s.magnitudeBits false := Nat.two_pow_pos _
  rw [low_eq]
  omega

lemma low_nonpos (s : IntegerSize) (u : Bool) : s.low u ≤ 0 := by
  cases u with
  | true => exact le_of_eq s.low_unsigned
  | false => exact s.low_signed_neg.le

lemma high_nonneg (s : IntegerSize) (u : Bool) : 0 ≤ s.high u := by
  have hpos : 0 < 2 ^ s.magnitudeBits u := Nat.two_pow_pos _
  rw [high_eq]
  omega

end IntegerSize

namespace ColumnType

lemma integerFits_iff {s t : IntegerSize} {f g : NumberFlags} : integerFits s f t g = true ↔
    t.low g.isUnsigned ≤ s.low f.isUnsigned ∧ s.high f.isUnsigned ≤ t.high g.isUnsigned := by
  have hs := s.one_le_bytes
  have ht := t.one_le_bytes
  rw [IntegerSize.high_le_high_iff, integerFits]
  rcases f.isUnsigned <;> rcases g.isUnsigned
  case false.false =>
    rw [IntegerSize.low_le_low_iff, and_self, decide_eq_true_eq]
    simp only [IntegerSize.magnitudeBits, Bool.false_eq_true, if_false]
    omega
  case false.true =>
    have hlow := s.low_signed_neg
    rw [IntegerSize.low_unsigned]
    simp only [Bool.false_eq_true, false_iff, not_and]
    omega
  case true.false =>
    have hlow := t.low_nonpos false
    rw [IntegerSize.low_unsigned, decide_eq_true_eq]
    simp only [IntegerSize.magnitudeBits, Bool.false_eq_true, if_false, if_true]
    omega
  case true.true =>
    rw [IntegerSize.low_unsigned, IntegerSize.low_unsigned, decide_eq_true_eq]
    simp only [IntegerSize.magnitudeBits, if_true]
    omega

/-! ### The numbers of a type -/

/-- Types of exact numbers. A decimal type has a digit at least, and those after the point are among
its digits. -/
def IsExact : ColumnType → Prop
  | integer .. => True
  | decimal precision scale _ => 1 ≤ precision ∧ scale ≤ precision
  | _ => False

/-- Whether a column of the type can hold the number. -/
def HoldsNumber : ColumnType → ℚ → Prop
  | integer size _ flags, v =>
    ∃ n : ℤ, v = n ∧ size.low flags.isUnsigned ≤ n ∧ n ≤ size.high flags.isUnsigned
  | decimal precision scale flags, v =>
    HasScale scale v ∧ |v| < 10 ^ (precision - scale) ∧ (flags.isUnsigned = true → 0 ≤ v)
  | _, _ => False

def SameFamily : ColumnType → ColumnType → Prop
  | integer .., integer .. | decimal .., decimal .. => True
  | _, _ => False

section

variable {s t : IntegerSize} {width width' : Option ℕ} {f g : NumberFlags}

lemma holdsNumber_integer_iff {v : ℚ} : (integer s width f).HoldsNumber v ↔
    HasScale 0 v ∧ s.low f.isUnsigned ≤ v ∧ v ≤ s.high f.isUnsigned := by
  rw [HasScale.zero_iff]
  constructor
  · rintro ⟨n, rfl, hlow, hhigh⟩
    exact ⟨⟨n, rfl⟩, by exact_mod_cast hlow, by exact_mod_cast hhigh⟩
  · rintro ⟨⟨n, rfl⟩, hlow, hhigh⟩
    exact ⟨n, rfl, by exact_mod_cast hlow, by exact_mod_cast hhigh⟩

lemma integerFits_iff_holds : integerFits s f t g = true ↔
    ∀ v, (integer s width f).HoldsNumber v → (integer t width' g).HoldsNumber v := by
  rw [integerFits_iff]
  constructor
  · rintro ⟨hlow, hhigh⟩ _ ⟨n, rfl, hn, hn'⟩
    exact ⟨n, rfl, hlow.trans hn, hn'.trans hhigh⟩
  · intro h
    -- both bounds are numbers of the type
    have hbounds := (s.low_nonpos f.isUnsigned).trans (s.high_nonneg f.isUnsigned)
    obtain ⟨low, hlow, hle, -⟩ := h _ ⟨_, rfl, le_rfl, hbounds⟩
    obtain ⟨high, hhigh, -, hge⟩ := h _ ⟨_, rfl, hbounds, le_rfl⟩
    rw [Int.cast_injective hlow, Int.cast_injective hhigh]
    exact ⟨hle, hge⟩

end

section

variable {p s p' s' : ℕ} {f g : NumberFlags}

lemma holdsNumber_unit (hp : 1 ≤ p) (hs : s ≤ p) : (decimal p s f).HoldsNumber (1 / 10 ^ s) := by
  have hpos : (0 : ℚ) < 10 ^ s := by positivity
  refine ⟨HasScale.unit_iff.2 le_rfl, ?_, fun _ => by positivity⟩
  rw [abs_of_pos (by positivity), div_lt_iff₀ hpos, ← pow_add, Nat.sub_add_cancel hs]
  exact one_lt_pow₀ (by norm_num) (by omega)

lemma holdsNumber_neg_unit (hp : 1 ≤ p) (hs : s ≤ p) (hf : f.isUnsigned = false) :
    (decimal p s f).HoldsNumber (-(1 / 10 ^ s)) := by
  obtain ⟨⟨n, hn⟩, hlt, -⟩ := holdsNumber_unit (f := f) hp hs
  refine ⟨⟨-n, ?_⟩, ?_, fun hunsigned => ?_⟩
  · rw [hn, Int.cast_neg, neg_div]
  · rwa [abs_neg]
  · rw [hf] at hunsigned
    cases hunsigned

lemma holdsNumber_pow {k : ℕ} (hk : k < p - s) : (decimal p s f).HoldsNumber (10 ^ k) := by
  refine ⟨?_, ?_, fun _ => by positivity⟩
  · exact_mod_cast HasScale.intCast s (10 ^ k)
  · rw [abs_of_pos (by positivity)]
    exact pow_lt_pow_right₀ (by norm_num) hk

lemma digitsKept_iff_holds (hp : 1 ≤ p) (hs : s ≤ p) :
    (signKept f g && digitsKept p s p' s') = true ↔
      ∀ v, (decimal p s f).HoldsNumber v → (decimal p' s' g).HoldsNumber v := by
  simp only [signKept, digitsKept, Bool.and_eq_true, Bool.or_eq_true, Bool.not_eq_true',
    decide_eq_true_eq]
  constructor
  · rintro ⟨hsign, hscale, hwhole⟩ v ⟨hv, hlt, hnonneg⟩
    refine ⟨hv.mono hscale, ?_, fun hg => hnonneg ?_⟩
    · calc |v| < 10 ^ (p - s) := hlt
        _ ≤ 10 ^ (p' - s') := pow_le_pow_right₀ (by norm_num) hwhole
    · exact hsign.resolve_right (by simp [hg])
  · intro h
    refine ⟨?_, ?_, ?_⟩
    · by_contra hsign
      obtain ⟨hf, hg⟩ : f.isUnsigned = false ∧ g.isUnsigned = true := by
        simpa [not_or] using hsign
      obtain ⟨-, -, hnonneg⟩ := h _ (holdsNumber_neg_unit hp hs hf)
      have hpos : (0 : ℚ) < 1 / 10 ^ s := by positivity
      have hneg := hnonneg hg
      linarith
    · exact HasScale.unit_iff.1 (h _ (holdsNumber_unit hp hs)).1
    · by_contra hwhole
      obtain ⟨-, hlt, -⟩ := h _ (holdsNumber_pow (not_le.1 hwhole))
      rw [abs_of_pos (by positivity)] at hlt
      exact lt_irrefl _ hlt

end

/-- **Lossless conversions of exact numbers.** From integer to integer and from decimal to decimal a
conversion counts as lossless exactly if it keeps every number. -/
lemma losslessTo_iff_holds (catalog : Catalog) {a b : ColumnType} (ha : a.IsExact)
    (hfamily : a.SameFamily b) :
    losslessTo catalog a b = true ↔ ∀ v, a.HoldsNumber v → b.HoldsNumber v := by
  have hkept (kept : Bool) (hlossless : losslessTo catalog a b = (decide (a = b) || kept))
      (hiff : kept = true ↔ ∀ v, a.HoldsNumber v → b.HoldsNumber v) :
      losslessTo catalog a b = true ↔ ∀ v, a.HoldsNumber v → b.HoldsNumber v := by
    rw [hlossless, Bool.or_eq_true, decide_eq_true_eq, hiff]
    refine or_iff_right_of_imp ?_
    rintro rfl v hv
    exact hv
  cases a with
  | integer s width f =>
    cases b with
    | integer t width' g => exact hkept _ rfl integerFits_iff_holds
    | _ => exact hfamily.elim
  | decimal p s f =>
    cases b with
    | decimal p' s' g => exact hkept _ rfl (digitsKept_iff_holds ha.1 ha.2)
    | _ => exact hfamily.elim
  | _ => exact hfamily.elim

end ColumnType

end SchemaDrift
