import Mathlib
import SchemaDrift.ColumnType.Canonical
import SchemaDrift.Proofs.ExactNumber

/-!
Exact numbers as text. When a column of exact numbers becomes one of text, every number is written out
as a numeral. The widest numeral of a type is known exactly. The count by which a conversion is judged
falls short of it in two cases: zeros that fill an integer up to its display width, and the zero
before the point of a decimal type all of whose digits stand after it.
-/

namespace SchemaDrift

/-! ### Digits -/

namespace Text

/-- The number in decimal, with zeros in front up to the width. -/
def padded (width n : ℕ) : String := (decimal n).leftpad width '0'

lemma length_padded (width n : ℕ) : (padded width n).length = max width (decimal n).length :=
  String.length_leftpad width '0' (decimal n)

lemma length_decimal_pos (n : ℕ) : 0 < (decimal n).length := by
  rw [decimal, String.length_ofList]
  exact Nat.length_toDigits_pos

lemma length_decimal_le_iff {n k : ℕ} (hk : 0 < k) : (decimal n).length ≤ k ↔ n < 10 ^ k := by
  rw [decimal, String.length_ofList]
  exact Nat.length_toDigits_le_iff (by decide) hk

lemma length_decimal_mono {m n : ℕ} (h : m ≤ n) : (decimal m).length ≤ (decimal n).length := by
  have hn := length_decimal_pos n
  rw [length_decimal_le_iff hn]
  exact h.trans_lt ((length_decimal_le_iff hn).1 le_rfl)

lemma length_decimal_pow (k : ℕ) : (decimal (10 ^ k)).length = k + 1 := by
  refine le_antisymm ((length_decimal_le_iff k.succ_pos).2 ?_) ?_
  · exact Nat.pow_lt_pow_right (by decide) k.lt_succ_self
  · by_contra hshort
    have hpos := length_decimal_pos (10 ^ k)
    have hlt := (length_decimal_le_iff hpos).1 le_rfl
    have hle : (10 : ℕ) ^ (decimal (10 ^ k)).length ≤ 10 ^ k :=
      Nat.pow_le_pow_right (by decide) (by omega)
    omega

end Text

/-! ### Numerals -/

namespace ColumnType

/-- The digits after the point. -/
def places : ColumnType → ℕ
  | decimal _ scale _ => scale
  | _ => 0

/-- The digits before the point up to which zeros fill a numeral. -/
def filling : ColumnType → ℕ
  | integer _ width flags => if flags.zerofill then width.getD 0 else 0
  | decimal precision scale flags => if flags.zerofill then precision - scale else 0
  | _ => 0

def numeral (t : ColumnType) (v : ℚ) : String :=
  (if v < 0 then "-" else "") ++ Text.padded t.filling ⌊|v|⌋₊ ++
    if t.places = 0 then ""
    else "." ++ Text.padded t.places (⌊|v| * 10 ^ t.places⌋₊ % 10 ^ t.places)

example : (decimal 5 2 .none).numeral (-3 / 2) = "-1.50" := by decide +kernel

example : (integer .regular (some 5) ⟨true, true⟩).numeral 42 = "00042" := by decide +kernel

lemma length_numeral (t : ColumnType) (v : ℚ) : (t.numeral v).length =
    (if v < 0 then 1 else 0) + max t.filling (Text.decimal ⌊|v|⌋₊).length +
      (if t.places = 0 then 0 else t.places + 1) := by
  have hsign : (if v < 0 then "-" else "").length = if v < 0 then 1 else 0 := by
    split <;> rfl
  have hfraction : (if t.places = 0 then ""
      else "." ++ Text.padded t.places (⌊|v| * 10 ^ t.places⌋₊ % 10 ^ t.places)).length =
        if t.places = 0 then 0 else t.places + 1 := by
    split
    next => rfl
    next hplaces =>
      have hlt : ⌊|v| * 10 ^ t.places⌋₊ % 10 ^ t.places < 10 ^ t.places :=
        Nat.mod_lt _ (by positivity)
      rw [String.length_append, Text.length_padded,
        max_eq_left ((Text.length_decimal_le_iff (Nat.pos_of_ne_zero hplaces)).2 hlt), add_comm]
      rfl
  rw [numeral, String.length_append, String.length_append, Text.length_padded, hsign, hfraction]

def signChars (flags : NumberFlags) : ℕ := if flags.isUnsigned then 0 else 1

def numeralChars : ColumnType → ℕ
  | integer size width flags =>
    max (if flags.zerofill then width.getD 0 else 0) (size.maxChars flags.isUnsigned)
  | decimal precision scale flags =>
    signChars flags + max 1 (precision - scale) + if scale = 0 then 0 else scale + 1
  | _ => 0

/-- Zeros fill up unsigned numbers alone. -/
def FillsUnsigned : ColumnType → Prop
  | integer _ _ flags | decimal _ _ flags => flags.zerofill = true → flags.isUnsigned = true
  | _ => True

lemma zerofill_eq_false {flags : NumberFlags}
    (hfills : flags.zerofill = true → flags.isUnsigned = true) (hsigned : flags.isUnsigned = false) :
    flags.zerofill = false := by
  by_contra hzero
  rw [hfills (by simpa using hzero)] at hsigned
  cases hsigned

lemma fillsUnsigned_canonical (t : ColumnType) (defaults : Encoding) (catalog : Catalog) :
    (t.canonical defaults catalog).FillsUnsigned := by
  cases t with
  | integer size width flags =>
    intro hzero
    have hzero : flags.zerofill = true := hzero
    simp [impliedFlags, hzero]
  | decimal precision scale flags =>
    intro hzero
    have hzero : flags.zerofill = true := hzero
    simp [impliedFlags, hzero]
  | string _ content => cases content <;> trivial
  | lob _ content => cases content <;> trivial
  | _ => trivial

end ColumnType

/-! ### Integers -/

namespace IntegerSize

def farthest (s : IntegerSize) (isUnsigned : Bool) : ℤ :=
  if isUnsigned then s.high true else s.low false

lemma length_farthest (s : IntegerSize) (isUnsigned : Bool) :
    (if isUnsigned then 0 else 1) + (Text.decimal (s.farthest isUnsigned).natAbs).length =
      s.maxChars isUnsigned := by
  cases s <;> cases isUnsigned <;> decide +kernel

variable {s : IntegerSize} {u : Bool} {n : ℤ}

lemma natAbs_le_farthest (hlow : s.low u ≤ n) (hhigh : n ≤ s.high u) :
    n.natAbs ≤ (s.farthest u).natAbs := by
  cases u with
  | true =>
    rw [low_unsigned] at hlow
    rw [farthest, if_pos rfl]
    omega
  | false =>
    rw [high_eq] at hhigh
    rw [low_eq] at hlow
    rw [farthest, if_neg nofun, low_eq]
    omega

end IntegerSize

namespace ColumnType

section

variable {size : IntegerSize} {width : Option ℕ} {flags : NumberFlags} {v : ℚ}

lemma floor_abs_intCast (n : ℤ) : ⌊|(n : ℚ)|⌋₊ = n.natAbs := by
  rw [← Int.cast_abs, Int.abs_eq_natAbs, Int.cast_natCast, Nat.floor_natCast]

lemma length_numeral_integer (n : ℤ) : ((integer size width flags).numeral n).length =
    (if n < 0 then 1 else 0) +
      max (if flags.zerofill then width.getD 0 else 0) (Text.decimal n.natAbs).length := by
  rw [length_numeral, floor_abs_intCast]
  simp [places, filling]

lemma length_numeral_integer_le (hfills : (integer size width flags).FillsUnsigned)
    (hv : (integer size width flags).HoldsNumber v) :
    ((integer size width flags).numeral v).length ≤ (integer size width flags).numeralChars := by
  obtain ⟨n, rfl, hlow, hhigh⟩ := hv
  have hdigits := Text.length_decimal_mono (IntegerSize.natAbs_le_farthest hlow hhigh)
  have hwidest := size.length_farthest flags.isUnsigned
  rw [length_numeral_integer, numeralChars]
  cases hunsigned : flags.isUnsigned with
  | true =>
    rw [hunsigned, IntegerSize.low_unsigned] at hlow
    simp only [hunsigned, if_true, if_neg hlow.not_gt] at hwidest hdigits ⊢
    omega
  | false =>
    have hempty := zerofill_eq_false hfills hunsigned
    simp only [hunsigned, hempty, Bool.false_eq_true, if_false] at hwidest hdigits ⊢
    split <;> omega

lemma exists_length_numeral_integer (hfills : (integer size width flags).FillsUnsigned) :
    ∃ v, (integer size width flags).HoldsNumber v ∧
      ((integer size width flags).numeral v).length = (integer size width flags).numeralChars := by
  have hwidest := size.length_farthest flags.isUnsigned
  refine ⟨size.farthest flags.isUnsigned, ⟨_, rfl, ?_⟩, ?_⟩
  · have hbounds (u : Bool) := (size.low_nonpos u).trans (size.high_nonneg u)
    cases flags.isUnsigned
    · exact ⟨le_rfl, hbounds false⟩
    · exact ⟨hbounds true, le_rfl⟩
  · rw [length_numeral_integer, numeralChars, ← hwidest]
    cases hunsigned : flags.isUnsigned with
    | true =>
      have hhigh := size.high_nonneg true
      simp [IntegerSize.farthest, hhigh.not_gt]
    | false =>
      have hlow := size.low_signed_neg
      have hempty := zerofill_eq_false hfills hunsigned
      simp [IntegerSize.farthest, hlow, hempty]

end

/-! ### Decimals -/

section

variable {p s : ℕ} {flags : NumberFlags} {v : ℚ}

lemma length_numeral_decimal (v : ℚ) : ((decimal p s flags).numeral v).length =
    (if v < 0 then 1 else 0) +
      max (if flags.zerofill then p - s else 0) (Text.decimal ⌊|v|⌋₊).length +
        if s = 0 then 0 else s + 1 :=
  length_numeral _ _

lemma length_numeral_decimal_le (hv : (decimal p s flags).HoldsNumber v) :
    ((decimal p s flags).numeral v).length ≤ (decimal p s flags).numeralChars := by
  obtain ⟨-, hlt, hnonneg⟩ := hv
  have hsign : (if v < 0 then 1 else 0) ≤ signChars flags := by
    unfold signChars
    split
    next hneg =>
      rw [if_neg fun hunsigned => (hnonneg hunsigned).not_gt hneg]
    next => exact Nat.zero_le _
  have hfilling : (if flags.zerofill then p - s else 0) ≤ max 1 (p - s) := by
    split <;> omega
  have hwhole : (Text.decimal ⌊|v|⌋₊).length ≤ max 1 (p - s) := by
    have hfloor : ((⌊|v|⌋₊ : ℕ) : ℚ) < 10 ^ (p - s) := (Nat.floor_le (abs_nonneg v)).trans_lt hlt
    rw [Text.length_decimal_le_iff (by omega)]
    calc ⌊|v|⌋₊ < 10 ^ (p - s) := by exact_mod_cast hfloor
      _ ≤ 10 ^ max 1 (p - s) := Nat.pow_le_pow_right (by decide) (le_max_right _ _)
  rw [length_numeral_decimal, numeralChars]
  omega

lemma exists_widest_whole (hp : 1 ≤ p) (hs : s ≤ p) : ∃ v : ℚ, 0 < v ∧
    (decimal p s flags).HoldsNumber v ∧ (Text.decimal ⌊v⌋₊).length = max 1 (p - s) := by
  rcases hwhole : p - s with _ | k
  · have hunit := holdsNumber_unit (f := flags) hp hs
    have hpos : (0 : ℚ) < 1 / 10 ^ s := by positivity
    have hlt : (1 : ℚ) / 10 ^ s < 1 := by
      have hlt := hunit.2.1
      rwa [hwhole, pow_zero, abs_of_pos hpos] at hlt
    refine ⟨1 / 10 ^ s, hpos, hunit, ?_⟩
    rw [Nat.floor_eq_zero.2 hlt]
    rfl
  · refine ⟨10 ^ k, by positivity, holdsNumber_pow (by omega), ?_⟩
    have hfloor : ⌊(10 : ℚ) ^ k⌋₊ = 10 ^ k := by
      exact_mod_cast Nat.floor_natCast (R := ℚ) (10 ^ k)
    rw [hfloor, Text.length_decimal_pow]
    omega

lemma holdsNumber_neg (hv : (decimal p s flags).HoldsNumber v) (hsigned : flags.isUnsigned = false) :
    (decimal p s flags).HoldsNumber (-v) := by
  obtain ⟨⟨n, rfl⟩, hlt, -⟩ := hv
  refine ⟨⟨-n, by rw [Int.cast_neg, neg_div]⟩, by rwa [abs_neg], fun hunsigned => ?_⟩
  rw [hunsigned] at hsigned
  cases hsigned

lemma exists_length_numeral_decimal (hp : 1 ≤ p) (hs : s ≤ p) :
    ∃ v, (decimal p s flags).HoldsNumber v ∧
      ((decimal p s flags).numeral v).length = (decimal p s flags).numeralChars := by
  obtain ⟨v, hpos, hv, hwhole⟩ : ∃ v : ℚ, 0 < v ∧ (decimal p s flags).HoldsNumber v ∧
      (Text.decimal ⌊v⌋₊).length = max 1 (p - s) := exists_widest_whole hp hs
  have hfilling : (if flags.zerofill then p - s else 0) ≤ max 1 (p - s) := by
    split <;> omega
  have hneg : -v < 0 := by linarith
  cases hunsigned : flags.isUnsigned with
  | true =>
    have hsign : signChars flags = 0 := by simp [signChars, hunsigned]
    refine ⟨v, hv, ?_⟩
    rw [length_numeral_decimal, numeralChars, abs_of_pos hpos, hwhole, max_eq_right hfilling,
      if_neg hpos.not_gt, hsign]
  | false =>
    have hsign : signChars flags = 1 := by simp [signChars, hunsigned]
    refine ⟨-v, holdsNumber_neg hv hunsigned, ?_⟩
    rw [length_numeral_decimal, numeralChars, abs_neg, abs_of_pos hpos, hwhole,
      max_eq_right hfilling, if_pos hneg, hsign]

end

/-! ### Numerals in text columns -/

variable {a b : ColumnType} {bytes : ℕ}

def IsText : ColumnType → Prop
  | string _ .text _ _ | lob _ .text _ => True
  | _ => False

/-- The characters that a text type has room for when each of them takes so many bytes. -/
def room (bytes : ℕ) : ColumnType → ℕ
  | string _ .text length _ => length
  | lob size .text _ => size.capacity / bytes
  | _ => 0

/-- The type has no wider numerals than are counted for it, or there is room for them: for zeros up to
the display width, and for a zero before the point. In a long text there is room for the bytes. -/
def KeepsNumerals (bytes : ℕ) : ColumnType → ColumnType → Prop
  | integer _ width flags, string _ _ length _ => flags.zerofill = true → width.getD 0 ≤ length
  | decimal p s flags, string _ _ length _ => s = p → signChars flags + 2 + p ≤ length
  | a, lob size _ _ => a.numeralChars * bytes ≤ size.capacity
  | _, _ => True

lemma numerals_le_iff (ha : a.IsExact) (hfills : a.FillsUnsigned) (n : ℕ) :
    (∀ v, a.HoldsNumber v → (a.numeral v).length ≤ n) ↔ a.numeralChars ≤ n := by
  obtain ⟨hle, v, hv, hwidest⟩ : (∀ v, a.HoldsNumber v → (a.numeral v).length ≤ a.numeralChars) ∧
      ∃ v, a.HoldsNumber v ∧ (a.numeral v).length = a.numeralChars := by
    cases a with
    | integer =>
      exact ⟨fun _ => length_numeral_integer_le hfills, exists_length_numeral_integer hfills⟩
    | decimal => exact ⟨fun _ => length_numeral_decimal_le, exists_length_numeral_decimal ha.1 ha.2⟩
    | _ => exact ha.elim
  constructor
  · intro hall
    exact hwidest ▸ hall v hv
  · intro hn w hw
    exact (hle w hw).trans hn

lemma numberChars_le_of_losslessTo {catalog : Catalog} {padded : Bool} {length n : ℕ} {e : Encoding}
    (h : losslessTo catalog a (.string padded .text length e) = true) (hn : a.numberChars? = some n) :
    n ≤ length := by
  cases a with
  | integer | decimal => simpa [losslessTo, hn] using h
  | _ => cases hn

lemma numberChars?_decimal {p s : ℕ} {flags : NumberFlags} (hs : s < p) :
    (decimal p s flags).numberChars? = some (decimal p s flags).numeralChars := by
  have hwhole : max 1 (p - s) = p - s := max_eq_right (by omega)
  rw [numberChars?, numeralChars, hwhole, signChars]
  congr 1
  rcases s with _ | s
  · simp [add_comm]
  · simp only [Nat.succ_pos, if_true, Nat.succ_ne_zero, if_false]
    omega

lemma numeralChars_decimal_self {p : ℕ} {flags : NumberFlags} (hp : 1 ≤ p) :
    (decimal p p flags).numeralChars = signChars flags + 2 + p := by
  rw [numeralChars, Nat.sub_self, if_neg (by omega)]
  omega

lemma numeralChars_le_room_iff {catalog : Catalog} (ha : a.IsExact) (hb : b.IsText)
    (h : losslessTo catalog a b = true) (hbytes : 0 < bytes) :
    a.numeralChars ≤ b.room bytes ↔ KeepsNumerals bytes a b := by
  cases b with
  | string padded content length e =>
    cases content with
    | bytes => exact hb.elim
    | text =>
      cases a with
      | integer size width flags =>
        have hcounted := numberChars_le_of_losslessTo h rfl
        simp only [numeralChars, room, KeepsNumerals]
        split <;> simp_all
      | decimal p s flags =>
        obtain ⟨hp, hs⟩ := ha
        rcases hs.lt_or_eq with hlt | rfl
        · have hcounted := numberChars_le_of_losslessTo h (numberChars?_decimal hlt)
          exact iff_of_true hcounted fun heq => absurd heq hlt.ne
        · rw [numeralChars_decimal_self hp]
          exact (imp_iff_right rfl).symm
      | _ => exact ha.elim
  | lob size content e =>
    cases content with
    | bytes => exact hb.elim
    | text =>
      have hroom := Nat.le_div_iff_mul_le (x := a.numeralChars) (y := size.capacity) hbytes
      cases a with
      | integer => exact hroom
      | decimal => exact hroom
      | _ => exact ha.elim
  | _ => exact hb.elim

/-- **What a conversion of exact numbers into text has room for.** A lossless conversion of a type in
canonical form into a text type has room for the numeral of every number exactly when it keeps
numerals, however many bytes a character takes. -/
theorem numerals_fit_iff (catalog : Catalog) (defaults : Encoding) {a b : ColumnType}
    (ha : a.IsExact) (hb : b.IsText)
    (h : losslessTo catalog (a.canonical defaults catalog) b = true) {bytes : ℕ} (hbytes : 0 < bytes) :
    (∀ v, (a.canonical defaults catalog).HoldsNumber v →
        ((a.canonical defaults catalog).numeral v).length ≤ b.room bytes) ↔
      KeepsNumerals bytes (a.canonical defaults catalog) b := by
  have hexact : (a.canonical defaults catalog).IsExact := by
    cases a with
    | integer => trivial
    | decimal => exact ha
    | _ => exact ha.elim
  have hfills := a.fillsUnsigned_canonical defaults catalog
  rw [numerals_le_iff hexact hfills, numeralChars_le_room_iff hexact hb h hbytes]

/-- Zeros fill integers up to just as many characters as there is room for. -/
theorem numerals_fit_iff_filled :
    (integer .regular (some 11) ⟨false, true⟩).IsExact ∧ (string false .text 11 .none).IsText ∧
    losslessTo .builtin ((integer .regular (some 11) ⟨false, true⟩).canonical .none .builtin)
      (string false .text 11 .none) = true ∧ 0 < 1 ∧
    ∀ v, (integer .regular (some 11) ⟨true, true⟩).HoldsNumber v →
      ((integer .regular (some 11) ⟨true, true⟩).numeral v).length ≤ 11 := by
  have hlossless : losslessTo .builtin
      ((integer .regular (some 11) ⟨false, true⟩).canonical .none .builtin)
      (string false .text 11 .none) = true := by decide
  refine ⟨trivial, trivial, hlossless, Nat.one_pos, ?_⟩
  exact (numerals_fit_iff .builtin .none (a := integer .regular (some 11) ⟨false, true⟩)
    (b := string false .text 11 .none) trivial trivial hlossless Nat.one_pos).2 fun _ => le_rfl

/-- Numbers with all of their digits after the point take one character more than is counted. -/
theorem exists_numeral_too_wide :
    (decimal 2 2 ⟨true, false⟩).IsExact ∧
    (decimal 2 2 ⟨true, false⟩).canonical .none .builtin = decimal 2 2 ⟨true, false⟩ ∧
    losslessTo .builtin (decimal 2 2 ⟨true, false⟩) (string false .text 3 .none) = true ∧
    (decimal 2 2 ⟨true, false⟩).HoldsNumber (12 / 100) ∧
    (decimal 2 2 ⟨true, false⟩).numeral (12 / 100) = "0.12" ∧
    (string false .text 3 .none).room 1 < ((decimal 2 2 ⟨true, false⟩).numeral (12 / 100)).length := by
  have hnumeral : (decimal 2 2 ⟨true, false⟩).numeral (12 / 100) = "0.12" := by decide +kernel
  refine ⟨⟨by decide, by decide⟩, by decide, by decide, ⟨⟨12, by norm_num⟩, ?_, ?_⟩, hnumeral, ?_⟩
  · norm_num [abs_of_pos]
  · intro
    norm_num
  · rw [hnumeral]
    decide

end ColumnType

end SchemaDrift
