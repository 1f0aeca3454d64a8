import Mathlib
import SchemaDrift.LiveDatabase
import SchemaDrift.Drift.Table
import SchemaDrift.Proofs.WellFormedTable

/-!
Conversions and guards in machine words. The numbers of a type are 32-bit words, capacities 64-bit
ones and the bounds of integers signed words of 128 bits; a result that does not fit, or a difference
below zero, is none at all. Between the columns of tables that are read no result is lost.
-/

namespace SchemaDrift

/-! ### Words -/

namespace Word

/-- The number, if it fits into a word of so many bits. -/
def fit? (bits n : ℕ) : Option ℕ := if n < 2 ^ bits then some n else none

/-- The integer, if it fits into a signed word of so many bits. -/
def signed? (bits : ℕ) (i : ℤ) : Option ℤ :=
  if -2 ^ (bits - 1) ≤ i ∧ i < 2 ^ (bits - 1) then some i else none

def add? (bits m n : ℕ) : Option ℕ := fit? bits (m + n)

def mul? (bits m n : ℕ) : Option ℕ := fit? bits (m * n)

def pow? (bits m n : ℕ) : Option ℕ := fit? bits (m ^ n)

/-- The difference, if it is not below zero. -/
def sub? (m n : ℕ) : Option ℕ := if n ≤ m then some (m - n) else none

variable {bits m n : ℕ}

lemma add?_eq (h : m + n < 2 ^ bits) : add? bits m n = some (m + n) := if_pos h

lemma mul?_eq (h : m * n < 2 ^ bits) : mul? bits m n = some (m * n) := if_pos h

lemma pow?_eq (h : m ^ n < 2 ^ bits) : pow? bits m n = some (m ^ n) := if_pos h

lemma sub?_eq (h : n ≤ m) : sub? m n = some (m - n) := if_pos h

end Word

/-! ### Conversions -/

/-- The widths of the character sets are words. -/
def Catalog.InWords (catalog : Catalog) : Prop := ∀ f ∈ catalog.reported, f.maxBytes ≤ Text.max32

lemma Catalog.InWords.maxBytes_le {catalog : Catalog} (h : catalog.InWords) (charset : String) :
    catalog.maxBytes charset ≤ Text.max32 := by
  rw [maxBytes]
  split
  · next f hf =>
    rcases List.mem_append.1 (List.mem_of_find?_eq_some hf) with hf | hf
    · exact h f hf
    · have hbuiltin : ∀ f ∈ Charset.builtin, f.maxBytes ≤ Text.max32 := by decide
      exact hbuiltin f hf
  · decide

lemma Catalog.inWords_ofReport (rows : List Row) :
    (Catalog.ofReport (rows.filterMap LiveDatabase.charset?)).InWords := by
  intro f hf
  obtain ⟨⟨name, collation, n⟩, hn, rfl⟩ := List.mem_map.1 (List.mem_reverse.1 hf)
  obtain ⟨row, -, hrow⟩ := List.mem_filterMap.1 hn
  unfold LiveDatabase.charset? at hrow
  split at hrow
  · obtain ⟨m, hm, he⟩ := Option.map_eq_some_iff.1 hrow
    obtain ⟨-, -, rfl⟩ := he
    unfold Text.readCount at hm
    split at hm <;> exact Text.readNat_le hm
  · cases hrow

namespace ColumnType

/-- `numberChars?` in words. -/
def wordChars? : ColumnType → Option (Option ℕ)
  | integer size _ flags => some (size.maxChars flags.isUnsigned)
  | decimal precision scale flags => do
    let digits ← Word.add? 64 precision (if 0 < scale then 1 else 0)
    let chars ← Word.add? 64 digits (if flags.isUnsigned then 0 else 1)
    return some chars
  | _ => some none

/-- `capacity?` in words. -/
def wordCapacity? (catalog : Catalog) : ColumnType → Option (Option Capacity)
  | string padded .bytes length _ => do
    let bytes ← Word.mul? 64 length 1
    return some ⟨length, bytes, .bytes, padded, "binary"⟩
  | string padded .text length e => do
    let bytes ← Word.mul? 64 length (catalog.maxBytes (charsetOf e))
    return some ⟨length, bytes, .text, padded, charsetOf e⟩
  | t => some (capacity? catalog t)

/-- `losslessTo` in words. -/
def wordLosslessTo? (catalog : Catalog) (a b : ColumnType) : Option Bool :=
  if a = b then some true
  else match a, b with
    | integer .., string _ .text length _ | decimal .., string _ .text length _ => do
      return (← wordChars? a).any (· ≤ length)
    | string .., string .. | string .., lob .. | lob .., string .. | lob .., lob .. => do
      let c? ← wordCapacity? catalog a
      let d? ← wordCapacity? catalog b
      return match c?, d? with
        | some c, some d => c.fits d
        | _, _ => false
    | a, b => some (losslessTo catalog a b)

/-- The least and the greatest integer of a size, in words. -/
def wordBounds? (size : IntegerSize) (isUnsigned : Bool) : Option (ℤ × ℤ) := do
  let bits ← Word.mul? 32 size.bytes 8
  if isUnsigned then
    let top ← Word.signed? 128 (2 ^ bits)
    return (0, ← Word.signed? 128 (top - 1))
  else
    let top ← Word.signed? 128 (2 ^ (← Word.sub? bits 1))
    return (← Word.signed? 128 (-top), ← Word.signed? 128 (top - 1))

/-- `losses` in words. -/
def wordLosses? (a b : ColumnType) : Option (List Condition) :=
  match b with
  | integer size _ flags => do
    let (low, high) ← wordBounds? size flags.isUnsigned
    return (if a.isNumeric then [] else [.notWhole]) ++ [.below low, .above high] ++
      if a.hasFraction then [.fractional] else []
  | decimal precision scale flags => do
    let whole ← Word.sub? precision scale
    return (if a.isNumeric then [] else [.notDecimal]) ++ [.reaches whole, .finerThan scale] ++
      if flags.isUnsigned then [.below 0] else []
  | clock kind fraction =>
    match a with
    | clock old _ =>
      if old = kind && fraction < 6 then do
        let digits ← Word.sub? 6 fraction
        return [.finerMoment (← Word.pow? 64 10 digits)]
      else some [.isNotNull]
    | _ => some [.isNotNull]
  | b => some (losses a b)

end ColumnType

/-- `Guard.ofModifyColumn` in words. -/
def Guard.wordModifyColumn? (table : TableName) (catalog : Catalog) (before after : Column) :
    Option (Option Guard) := do
  let lossless ← before.type.wordLosslessTo? catalog after.type
  let kept := lossless && (before.type.removedMembers after.type).isEmpty
  let tightened := before.nullable && !after.nullable
  if kept && !tightened then return none
  let losses ← if kept then pure [] else before.type.wordLosses? after.type
  let endangered := if !kept && losses.isEmpty then [.isNotNull] else losses
  return some ⟨table, .matchingAny before.name (endangered ++ if tightened then [.isNull] else [])⟩

/-! ### Nothing is lost -/

namespace ColumnType

variable {a b : ColumnType}

lemma Allowed.canonical (h : a.Allowed) (defaults : Encoding) (catalog : Catalog) :
    (a.canonical defaults catalog).Allowed := by
  cases a with
  | integer size width flags =>
    intro n hn
    rcases hfill : flags.zerofill with _ | _
    · simp [hfill] at hn
    · rcases width with _ | w
      · obtain rfl : size.maxChars true = n := by simpa [hfill] using hn
        cases size <;> decide
      · obtain rfl : w = n := by simpa [hfill] using hn
        exact h w rfl
  | decimal | floating | choice | clock | bit | plain => exact h
  | string padded content length e =>
    cases content with
    | text => exact ⟨h.1, fun hbytes => by cases hbytes⟩
    | bytes => exact ⟨h.1, fun _ => rfl⟩
  | lob size content e =>
    cases content with
    | text => exact fun hbytes => by cases hbytes
    | bytes => exact fun _ => rfl

lemma wordChars?_eq (h : a.Allowed) : a.wordChars? = some a.numberChars? := by
  cases a with
  | decimal precision scale flags =>
    have hprecision : precision ≤ 65 := h.2.1
    have hpoint : (if 0 < scale then 1 else 0) ≤ 1 := by split <;> decide
    have hsign : (if flags.isUnsigned then 0 else 1) ≤ 1 := by split <;> decide
    rw [wordChars?, Word.add?_eq (by omega), Option.bind_eq_bind, Option.bind_some,
      Word.add?_eq (by omega)]
    rfl
  | _ => rfl

lemma wordCapacity?_eq {catalog : Catalog} (hcatalog : catalog.InWords) (h : a.Allowed) :
    a.wordCapacity? catalog = some (a.capacity? catalog) := by
  cases a with
  | string padded content length e =>
    have hlength : length ≤ 2 ^ 32 - 1 := h.1
    cases content with
    | bytes =>
      rw [wordCapacity?, Word.mul?_eq (by omega), Nat.mul_one]
      rfl
    | text =>
      have hmul : length * catalog.maxBytes (charsetOf e) < 2 ^ 64 :=
        (Nat.mul_le_mul hlength (hcatalog.maxBytes_le _)).trans_lt (by decide)
      rw [wordCapacity?, Word.mul?_eq hmul]
      rfl
  | _ => rfl

lemma wordLosslessTo?_eq {catalog : Catalog} (hcatalog : catalog.InWords) (ha : a.Allowed)
    (hb : b.Allowed) : a.wordLosslessTo? catalog b = some (a.losslessTo catalog b) := by
  unfold wordLosslessTo?
  split
  · next h => rw [h, losslessTo_self]
  · next h =>
    split
    case h_1 | h_2 =>
      rw [wordChars?_eq ha, losslessTo, decide_eq_false h]
      rfl
    case h_3 | h_4 | h_5 | h_6 =>
      rw [wordCapacity?_eq hcatalog ha, wordCapacity?_eq hcatalog hb, losslessTo, decide_eq_false h]
      rfl
    case h_7 => rfl

lemma wordBounds?_eq (size : IntegerSize) (isUnsigned : Bool) :
    wordBounds? size isUnsigned = some (size.low isUnsigned, size.high isUnsigned) := by
  cases size <;> cases isUnsigned <;> decide

lemma wordLosses?_eq (hb : b.Allowed) : a.wordLosses? b = some (a.losses b) := by
  cases b with
  | integer size width flags =>
    rw [wordLosses?, wordBounds?_eq]
    rfl
  | decimal precision scale flags =>
    rw [wordLosses?, Word.sub?_eq hb.2.2.2]
    rfl
  | clock kind fraction =>
    have hunit : Word.pow? 64 10 (6 - fraction) = some (Nat.pow 10 (6 - fraction)) :=
      Word.pow?_eq ((Nat.pow_le_pow_right (by decide) (Nat.sub_le 6 fraction)).trans_lt (by decide))
    cases a with
    | clock old fraction' =>
      simp only [wordLosses?, losses]
      split
      · have hfraction : fraction ≤ 6 := hb
        rw [Word.sub?_eq hfraction, Option.bind_eq_bind, Option.bind_some, hunit]
        rfl
      · rfl
    | _ => rfl
  | _ => rfl

end ColumnType

lemma Guard.wordModifyColumn?_eq (table : TableName) {catalog : Catalog}
    (hcatalog : catalog.InWords) {before after : Column} (hbefore : before.type.Allowed)
    (hafter : after.type.Allowed) :
    wordModifyColumn? table catalog before after =
      some (ofModifyColumn table catalog before after) := by
  rw [wordModifyColumn?, ColumnType.wordLosslessTo?_eq hcatalog hbefore hafter,
    ColumnType.wordLosses?_eq hafter]
  simp only [Option.bind_eq_bind, Option.bind_some, ofModifyColumn, keepsValues, endangeredValues]
  by_cases hkept : (before.type.losslessTo catalog after.type &&
    (before.type.removedMembers after.type).isEmpty) = true
  · by_cases htightened : (before.nullable && !after.nullable) = true
    · simp [hkept, htightened]
    · simp [hkept, htightened]
  · simp [hkept]

/-! ### Tables that are read -/

/-- A column of the table, as it is declared or in a form in which columns are compared. -/
def Table.Shows (t : Table) (c : Column) : Prop :=
  ∃ c₀ ∈ t.columns, c = c₀ ∨ ∃ catalog defaults, c = TablePair.canonicalColumn catalog defaults c₀

namespace Statement

lemma allowed_of_read {real : FloatSize} {text : String} {t : Table} (h : read real text = .table t)
    {c : Column} (hc : t.Shows c) : c.type.Allowed := by
  obtain ⟨c₀, hc₀, rfl | ⟨catalog, defaults, rfl⟩⟩ := hc
  · exact ((grammatical_of_read h).columns c hc₀).type
  · exact ((grammatical_of_read h).columns c₀ hc₀).type.canonical defaults catalog

/-- **Tables are read well-formed**, and that is enough for arithmetic: from a column of one table
to a column of another, whether a conversion is lossless and what a guard counts is found in machine
words as in numbers without a bound. -/
theorem wellFormed_and_inWords_of_read {real real' : FloatSize} {text text' : String} {t t' : Table}
    (h : read real text = .table t) (h' : read real' text' = .table t') :
    t.WellFormed ∧ ∀ catalog : Catalog, catalog.InWords → ∀ before, t.Shows before →
      ∀ after, t'.Shows after →
        before.type.wordLosslessTo? catalog after.type =
          some (before.type.losslessTo catalog after.type) ∧
        ∀ table, Guard.wordModifyColumn? table catalog before after =
          some (Guard.ofModifyColumn table catalog before after) := by
  refine ⟨wellFormed_of_read h, fun catalog hcatalog before hbefore after hafter => ?_⟩
  have hb := allowed_of_read h hbefore
  have ha := allowed_of_read h' hafter
  exact ⟨ColumnType.wordLosslessTo?_eq hcatalog hb ha, fun table =>
    Guard.wordModifyColumn?_eq table hcatalog hb ha⟩

/-- A statement with the greatest digits and length, and with two fractions of a second. -/
def widestText : String :=
  "CREATE TABLE t (a DECIMAL(65, 30), s VARCHAR(4294967295), m DATETIME(6), n DATETIME(3), " ++
  "PRIMARY KEY (a, m))"

def widest : Table where
  name := ⟨none, "t"⟩
  temporary := false
  ifNotExists := false
  columns := [
    ⟨"a", .decimal 65 30 .none, false, none, false, none, none, 0, .first⟩,
    ⟨"s", .string false .text 4294967295 .none, true, none, false, none, none, 1, .after "a"⟩,
    ⟨"m", .clock .datetime 6, false, none, false, none, none, 2, .after "s"⟩,
    ⟨"n", .clock .datetime 3, true, none, false, none, none, 3, .after "m"⟩]
  keys := [.ofParts .primary [.ofColumn "a", .ofColumn "m"]]
  constraints := []
  options := OrderedMap.empty

theorem wellFormed_and_inWords_of_read_widest : read .single widestText = .table widest ∧
    widest.WellFormed ∧ Catalog.builtin.InWords ∧
    Guard.wordModifyColumn? widest.name .builtin widest.columns[2]
        (TablePair.canonicalColumn .builtin .none widest.columns[3]) =
      some (some ⟨widest.name, .matchingAny "m" [.finerMoment 1000]⟩) := by
  have hread : read .single widestText = .table widest := by decide +kernel
  have hcatalog : Catalog.builtin.InWords := by simp [Catalog.InWords, Catalog.builtin]
  obtain ⟨hformed, hwords⟩ := wellFormed_and_inWords_of_read hread hread
  have hbefore : widest.Shows widest.columns[2] := ⟨_, by decide, .inl rfl⟩
  have hafter : widest.Shows (TablePair.canonicalColumn .builtin .none widest.columns[3]) :=
    ⟨_, by decide, .inr ⟨_, _, rfl⟩⟩
  exact ⟨hread, hformed, hcatalog,
    ((hwords .builtin hcatalog _ hbefore _ hafter).2 widest.name).trans (by decide +kernel)⟩

end Statement

end SchemaDrift
