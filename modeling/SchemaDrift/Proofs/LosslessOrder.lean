import Mathlib
import SchemaDrift.ColumnType.Lossless
import SchemaDrift.Proofs.ExactNumber
import SchemaDrift.Proofs.TableRoundTrip

/-!
Lossless conversion as an order. A conversion is one of nine kinds, each with a measure of its own:
bytes of an integer, digits around the point, characters of a numeral, capacities of strings, members
of a choice. Chains may change from exact numbers to strings but nowhere else, so that every measure
only has to be compared with itself and the numerals with the strings.
-/

namespace SchemaDrift

/-- The types of the columns that a statement declares. -/
def Statement.columnTypes : Statement → List ColumnType
  | .table t => t.columns.map (·.type)
  | _ => []

namespace ColumnType

/-- The ways in which all values of a type are values of another one. -/
inductive Conversion (catalog : Catalog) : ColumnType → ColumnType → Prop where
  | integer {s₁ s₂ : IntegerSize} {w₁ w₂ : Option Nat} {f₁ f₂ : NumberFlags}
    (fits : integerFits s₁ f₁ s₂ f₂ = true) :
    Conversion catalog (.integer s₁ w₁ f₁) (.integer s₂ w₂ f₂)
  | decimal {p₁ s₁ p₂ s₂ : Nat} {f₁ f₂ : NumberFlags} (sign : signKept f₁ f₂ = true)
    (digits : digitsKept p₁ s₁ p₂ s₂ = true) :
    Conversion catalog (.decimal p₁ s₁ f₁) (.decimal p₂ s₂ f₂)
  | floating {s₁ s₂ : FloatSize} {d₁ d₂ : Option (Nat × Nat)} {f₁ f₂ : NumberFlags}
    (sign : signKept f₁ f₂ = true) (fits : s₁.fits s₂ = true)
    (digits : ∀ d ∈ d₂, ∃ d' ∈ d₁, digitsKept d'.1 d'.2 d.1 d.2 = true) :
    Conversion catalog (.floating s₁ d₁ f₁) (.floating s₂ d₂ f₂)
  | numeral {a : ColumnType} {n length : Nat} {padded : Bool} {e : Encoding}
    (chars : a.numberChars? = some n) (le : n ≤ length) :
    Conversion catalog a (.string padded .text length e)
  | longNumeral {a : ColumnType} {n : Nat} {size : LobSize} {e : Encoding}
    (chars : a.numberChars? = some n) : Conversion catalog a (.lob size .text e)
  | string {a b : ColumnType} {c d : Capacity} (source : capacity? catalog a = some c)
    (target : capacity? catalog b = some d) (fits : c.fits d = true) : Conversion catalog a b
  | choice {k₁ k₂ : ChoiceKind} {m₁ m₂ : List String} {e₁ e₂ : Encoding}
    (kind : k₁ = .set → k₂ = .set)
    (room : k₁ = .enum → k₂ = .set → m₂.length ≤ maxSetMembers) (members : m₁ ⊆ m₂)
    (covers : Charset.covers (charsetOf e₁) (charsetOf e₂) = true) :
    Conversion catalog (.choice k₁ m₁ e₁) (.choice k₂ m₂ e₂)
  | clock {k : ClockKind} {n₁ n₂ : Nat} (le : n₁ ≤ n₂) :
    Conversion catalog (.clock k n₁) (.clock k n₂)
  | bit {n₁ n₂ : Option Nat} (le : n₁.getD 1 ≤ n₂.getD 1) :
    Conversion catalog (.bit n₁) (.bit n₂)

section

variable {catalog : Catalog} {a b c : ColumnType}

lemma capacity?_of_numberChars? {n : Nat} (h : a.numberChars? = some n) :
    capacity? catalog a = none := by
  cases a with
  | integer | decimal => rfl
  | _ => cases h

lemma conversion_of_losslessTo (h : losslessTo catalog a b = true) (hne : a ≠ b) :
    Conversion catalog a b := by
  unfold losslessTo at h
  replace h := (Bool.or_eq_true_iff.1 h).resolve_left (by simpa using hne)
  split at h
  case h_1 => exact .integer h
  case h_2 => exact .decimal (Bool.and_eq_true_iff.1 h).1 (Bool.and_eq_true_iff.1 h).2
  case h_3 s₁ d₁ f₁ s₂ d₂ f₂ =>
    simp only [Bool.and_eq_true] at h
    refine .floating h.1.1 h.1.2 fun d hd => ?_
    obtain rfl := Option.mem_def.1 hd
    rcases d₁ with _ | d'
    · exact absurd h.2 Bool.false_ne_true
    · exact ⟨d', rfl, h.2⟩
  case h_4 | h_5 =>
    obtain ⟨n, hn, hle⟩ := (Option.any_eq_true _ _).1 h
    exact .numeral hn (of_decide_eq_true hle)
  case h_6 | h_7 =>
    obtain rfl := of_decide_eq_true h
    exact .longNumeral rfl
  case h_8 | h_9 | h_10 | h_11 =>
    split at h
    case h_1 hc hd => exact .string hc hd h
    case h_2 => cases h
  case h_12 k₁ m₁ e₁ k₂ m₂ e₂ =>
    simp only [Bool.and_eq_true, List.all_eq_true, List.contains_iff_mem] at h
    obtain ⟨⟨hkind, hmembers⟩, hcovers⟩ := h
    refine .choice ?_ ?_ hmembers hcovers
    · rintro rfl
      cases k₂ with
      | enum => exact absurd hkind Bool.false_ne_true
      | set => rfl
    · rintro rfl rfl
      exact of_decide_eq_true hkind
  case h_13 =>
    obtain ⟨hkind, hle⟩ := Bool.and_eq_true_iff.1 h
    obtain rfl := of_decide_eq_true hkind
    exact .clock (of_decide_eq_true hle)
  case h_14 => exact .bit (of_decide_eq_true h)
  case h_15 => exact absurd (congrArg plain (of_decide_eq_true h)) hne
  case h_16 => cases h

lemma losslessTo_of_conversion (h : Conversion catalog a b) : losslessTo catalog a b = true := by
  unfold losslessTo
  refine Bool.or_eq_true_iff.2 (.inr ?_)
  cases h with
  | integer fits => exact fits
  | decimal sign digits => exact Bool.and_eq_true_iff.2 ⟨sign, digits⟩
  | @floating _ _ d₁ d₂ _ _ sign fits digits =>
    simp only [sign, fits, Bool.true_and]
    rcases d₂ with _ | d
    · rfl
    · obtain ⟨d', rfl, hkept⟩ := digits d rfl
      exact hkept
  | numeral chars le =>
    cases a with
    | integer | decimal => exact (Option.any_eq_true _ _).2 ⟨_, chars, decide_eq_true le⟩
    | _ => cases chars
  | longNumeral chars =>
    cases a with
    | integer | decimal => rfl
    | _ => cases chars
  | string source target fits =>
    cases a with
    | string | lob =>
      cases b with
      | string | lob => simpa only [source, target] using fits
      | _ => cases target
    | _ => cases source
  | @choice k₁ k₂ m₁ m₂ e₁ e₂ kind room members covers =>
    simp only [covers, Bool.and_true, Bool.and_eq_true, List.all_eq_true, List.contains_iff_mem]
    refine ⟨?_, members⟩
    cases k₁ with
    | enum =>
      cases k₂ with
      | enum => rfl
      | set => exact decide_eq_true (room rfl rfl)
    | set => rw [kind rfl]
  | clock le => simpa using le
  | bit le => exact decide_eq_true le

/-- **What a lossless conversion is**: none at all, or one of the listed ones. -/
theorem losslessTo_iff_conversion :
    losslessTo catalog a b = true ↔ a = b ∨ Conversion catalog a b := by
  constructor
  · intro h
    by_cases hsame : a = b
    · exact .inl hsame
    · exact .inr (conversion_of_losslessTo h hsame)
  · rintro (rfl | h)
    · exact losslessTo_self catalog a
    · exact losslessTo_of_conversion h

end

/-! ### The measures along a chain -/

lemma integerFits_trans {s₁ s₂ s₃ : IntegerSize} {f₁ f₂ f₃ : NumberFlags}
    (h : integerFits s₁ f₁ s₂ f₂ = true) (h' : integerFits s₂ f₂ s₃ f₃ = true) :
    integerFits s₁ f₁ s₃ f₃ = true := by
  rw [integerFits_iff] at *
  exact ⟨h'.1.trans h.1, h.2.trans h'.2⟩

lemma maxChars_le_of_integerFits {s₁ s₂ : IntegerSize} {f₁ f₂ : NumberFlags}
    (h : integerFits s₁ f₁ s₂ f₂ = true) :
    s₁.maxChars f₁.isUnsigned ≤ s₂.maxChars f₂.isUnsigned := by
  simp only [integerFits] at h
  revert h
  rcases f₁.isUnsigned <;> rcases f₂.isUnsigned <;> revert s₁ s₂ <;>
    rintro ⟨⟩ ⟨⟩ <;> decide

lemma signKept_trans {f₁ f₂ f₃ : NumberFlags} (h : signKept f₁ f₂ = true)
    (h' : signKept f₂ f₃ = true) : signKept f₁ f₃ = true := by
  simp only [signKept, Bool.or_eq_true, Bool.not_eq_true'] at *
  rcases h with h | h
  · exact .inl h
  · exact .inr (h'.resolve_left (by simp [h]))

lemma digitsKept_trans {p₁ s₁ p₂ s₂ p₃ s₃ : Nat} (h : digitsKept p₁ s₁ p₂ s₂ = true)
    (h' : digitsKept p₂ s₂ p₃ s₃ = true) : digitsKept p₁ s₁ p₃ s₃ = true := by
  simp only [digitsKept, Bool.and_eq_true, decide_eq_true_eq] at *
  exact ⟨h.1.trans h'.1, h.2.trans h'.2⟩

lemma FloatSize.fits_trans {s₁ s₂ s₃ : FloatSize} (h : s₁.fits s₂ = true)
    (h' : s₂.fits s₃ = true) : s₁.fits s₃ = true := by
  revert h h'
  revert s₁ s₂ s₃
  rintro ⟨⟩ ⟨⟩ ⟨⟩ <;> decide

lemma Capacity.fits_trans {a b c : Capacity} (h : a.fits b = true) (h' : b.fits c = true) :
    a.fits c = true := by
  simp only [Capacity.fits, Bool.and_eq_true, Bool.or_eq_true, Bool.not_eq_true',
    decide_eq_true_eq] at *
  obtain ⟨⟨⟨⟨hcontent, hpadded⟩, hcovers⟩, hchars⟩, hbytes⟩ := h
  obtain ⟨⟨⟨⟨hcontent', hpadded'⟩, hcovers'⟩, hchars'⟩, hbytes'⟩ := h'
  refine ⟨⟨⟨⟨hcontent.trans hcontent', ?_⟩, ?_⟩, hchars.trans hchars'⟩, hbytes.trans hbytes'⟩
  · rcases hpadded' with hpadded' | hpadded'
    · exact .inl hpadded'
    · exact .inr (hpadded.resolve_left (by simp [hpadded']))
  · rcases hcovers with hcovers | hcovers
    · exact .inl hcovers
    · rcases hcovers' with hcovers' | hcovers'
      · exact .inl (hcontent.trans hcovers')
      · exact .inr (Charset.covers_trans hcovers hcovers')

lemma numberChars_le_of_digitsKept {p₁ s₁ p₂ s₂ m n : Nat} {f₁ f₂ : NumberFlags}
    (h : (ColumnType.decimal p₁ s₁ f₁).Allowed) (h' : (ColumnType.decimal p₂ s₂ f₂).Allowed)
    (hsign : signKept f₁ f₂ = true) (hdigits : digitsKept p₁ s₁ p₂ s₂ = true)
    (hm : (ColumnType.decimal p₁ s₁ f₁).numberChars? = some m)
    (hn : (ColumnType.decimal p₂ s₂ f₂).numberChars? = some n) : m ≤ n := by
  obtain ⟨-, -, -, hle⟩ := h
  obtain ⟨-, -, -, hle'⟩ := h'
  simp only [digitsKept, Bool.and_eq_true, decide_eq_true_eq] at hdigits
  have hpoint : (if 0 < s₁ then 1 else 0) ≤ if 0 < s₂ then 1 else 0 := by
    split_ifs <;> omega
  have hminus : (if f₁.isUnsigned then 0 else 1) ≤ if f₂.isUnsigned then 0 else 1 := by
    simp only [signKept, Bool.or_eq_true, Bool.not_eq_true'] at hsign
    rcases hsign with hsign | hsign <;> simp only [hsign] <;> split_ifs <;> simp_all
  cases hm
  cases hn
  omega

lemma numberChars_le_capacity {a : ColumnType} {n : Nat} (ha : a.Allowed)
    (h : a.numberChars? = some n) (size : LobSize) : n ≤ size.capacity := by
  have hsize : 255 ≤ size.capacity := by cases size <;> decide
  cases a with
  | integer s _ f =>
    cases h
    have hchars : s.maxChars f.isUnsigned ≤ 20 := by
      rcases f.isUnsigned <;> cases s <;> decide
    omega
  | decimal p s f =>
    obtain ⟨-, hprecision, -, -⟩ := ha
    have hbound : Grammar.maxPrecision = 65 := rfl
    cases h
    split_ifs <;> omega
  | _ => cases h

/-! ### Chains -/

/-- A set does not list more members than a set may have. -/
def FitsSet : ColumnType → Prop
  | choice .set members _ => members.length ≤ maxSetMembers
  | _ => True

lemma Conversion.of_numeral {catalog : Catalog} {a c : ColumnType} {n : Nat} {d e : Capacity}
    (chars : a.numberChars? = some n) (le : n ≤ d.chars) (htext : d.content = .text)
    (target : capacity? catalog c = some e) (fits : d.fits e = true) : Conversion catalog a c := by
  simp only [Capacity.fits, Bool.and_eq_true, decide_eq_true_eq] at fits
  obtain ⟨⟨⟨⟨hcontent, -⟩, -⟩, hchars⟩, -⟩ := fits
  rw [htext] at hcontent
  cases c with
  | string _ content =>
    cases content <;> cases target
    · exact .numeral chars (le.trans hchars)
    · cases hcontent
  | lob _ content =>
    cases content <;> cases target
    · exact .longNumeral chars
    · cases hcontent
  | _ => cases target

/-- Conversions follow each other. Without the bound on sets, members of an `ENUM` could move through
a longer one to a set that cannot hold them. -/
lemma Conversion.trans {catalog : Catalog} {a b c : ColumnType} (ha : a.Allowed) (hb : b.Allowed)
    (hc : c.FitsSet) (h : Conversion catalog a b) (h' : Conversion catalog b c) :
    Conversion catalog a c := by
  -- The first conversion says what `b` is, which leaves one or two kinds for the second.
  cases h with
  | integer fits =>
    cases h' with
    | integer fits' => exact .integer (integerFits_trans fits fits')
    | numeral chars le =>
      cases chars
      exact .numeral rfl ((maxChars_le_of_integerFits fits).trans le)
    | longNumeral => exact .longNumeral rfl
    | string source => cases source
  | decimal sign digits =>
    cases h' with
    | decimal sign' digits' =>
      exact .decimal (signKept_trans sign sign') (digitsKept_trans digits digits')
    | numeral chars le =>
      exact .numeral rfl ((numberChars_le_of_digitsKept ha hb sign digits rfl chars).trans le)
    | longNumeral => exact .longNumeral rfl
    | string source => cases source
  | floating sign fits digits =>
    cases h' with
    | floating sign' fits' digits' =>
      refine .floating (signKept_trans sign sign') (FloatSize.fits_trans fits fits') fun d hd => ?_
      obtain ⟨d', hd', hkept'⟩ := digits' d hd
      obtain ⟨d'', hd'', hkept⟩ := digits d' hd'
      exact ⟨d'', hd'', digitsKept_trans hkept hkept'⟩
    | numeral chars | longNumeral chars => cases chars
    | string source => cases source
  | numeral chars le =>
    cases h' with
    | numeral chars' | longNumeral chars' => cases chars'
    | string source target fits =>
      cases source
      exact .of_numeral chars le rfl target fits
  | @longNumeral _ _ size _ chars =>
    cases h' with
    | numeral chars' | longNumeral chars' => cases chars'
    | string source target fits =>
      cases source
      exact .of_numeral chars (numberChars_le_capacity ha chars size) rfl target fits
  | string source target fits =>
    cases h' with
    | string source' target' fits' =>
      obtain rfl := Option.some.inj (target.symm.trans source')
      exact .string source target' (Capacity.fits_trans fits fits')
    | numeral chars | longNumeral chars =>
      exact absurd target (by simp [capacity?_of_numberChars? chars])
    | _ => cases target
  | choice kind room members covers =>
    cases h' with
    | choice kind' _ members' covers' =>
      refine .choice (kind' ∘ kind) ?_ (List.Subset.trans members members')
        (Charset.covers_trans covers covers')
      -- Only `c` bounds the members here: `b` may be an `ENUM` without a bound.
      rintro - rfl
      exact hc
    | numeral chars | longNumeral chars => cases chars
    | string source => cases source
  | clock le =>
    cases h' with
    | clock le' => exact .clock (le.trans le')
    | numeral chars | longNumeral chars => cases chars
    | string source => cases source
  | bit le =>
    cases h' with
    | bit le' => exact .bit (le.trans le')
    | numeral chars | longNumeral chars => cases chars
    | string source => cases source

lemma losslessTo_trans {catalog : Catalog} {a b c : ColumnType} (ha : a.Allowed) (hb : b.Allowed)
    (hc : c.FitsSet) (h : losslessTo catalog a b = true) (h' : losslessTo catalog b c = true) :
    losslessTo catalog a c = true := by
  rw [losslessTo_iff_conversion] at *
  rcases h with rfl | h
  · exact h'
  · rcases h' with rfl | h'
    · exact .inr h
    · exact .inr (h.trans ha hb hc h')

/-- A statement that is read declares a column of the type. -/
def IsRead (t : ColumnType) : Prop :=
  ∃ (real : FloatSize) (text : String), t ∈ (Statement.read real text).columnTypes

lemma IsRead.allowed {t : ColumnType} (h : t.IsRead) : t.Allowed := by
  obtain ⟨real, text, ht⟩ := h
  cases hread : Statement.read real text with
  | table u =>
    rw [hread] at ht
    obtain ⟨c, hc, rfl⟩ := List.mem_map.1 ht
    exact ((Statement.grammatical_of_read hread).columns c hc).type
  | _ =>
    rw [hread] at ht
    cases ht

/-- **Lossless conversion is a preorder** on the types of columns that are read, whatever the server
reports of its character sets, as long as no set has more members than a set may have. So is
coverage, on all names of character sets. -/
theorem losslessTo_preorder (catalog : Catalog) :
    ((∀ a : ColumnType, a.IsRead → losslessTo catalog a a = true) ∧
      ∀ a b c : ColumnType, a.IsRead → b.IsRead → c.IsRead → a.FitsSet → b.FitsSet → c.FitsSet →
        losslessTo catalog a b = true → losslessTo catalog b c = true →
          losslessTo catalog a c = true) ∧
    (∀ s : String, Charset.covers s s = true) ∧
      ∀ s t u : String, Charset.covers s t = true → Charset.covers t u = true →
        Charset.covers s u = true :=
  ⟨⟨fun a _ => losslessTo_self catalog a, fun _ _ _ ha hb _ _ _ hc h h' =>
      losslessTo_trans ha.allowed hb.allowed hc h h'⟩,
    Charset.covers_self, fun _ _ _ => Charset.covers_trans⟩

/-- A statement with two chains of conversions: from exact numbers into strings, and along choices. -/
def chainsText : String :=
  "CREATE TABLE t (a DECIMAL(9, 4), b TINYTEXT, c VARCHAR(255), " ++
  "d ENUM('x') CHARACTER SET ascii, e SET('y', 'x'), f SET('x', 'y', 'z'))"

def chains : List ColumnType := [
  .decimal 9 4 .none, .lob .tiny .text .none, .string false .text 255 .none,
  .choice .enum ["x"] ⟨some "ascii", none⟩, .choice .set ["y", "x"] .none,
  .choice .set ["x", "y", "z"] .none]

theorem losslessTo_preorder_chains :
    (Statement.read .single chainsText).columnTypes = chains ∧
      losslessTo .builtin (.decimal 9 4 .none) (.string false .text 255 .none) = true ∧
      losslessTo .builtin (.choice .enum ["x"] ⟨some "ascii", none⟩)
        (.choice .set ["x", "y", "z"] .none) = true := by
  have htypes : (Statement.read .single chainsText).columnTypes = chains := by decide +kernel
  have hread : ∀ t ∈ chains, t.IsRead := fun t ht => ⟨.single, chainsText, htypes ▸ ht⟩
  have htrans := (losslessTo_preorder .builtin).1.2
  refine ⟨htypes, ?_, ?_⟩
  · exact htrans _ (.lob .tiny .text .none) _ (hread _ (by decide)) (hread _ (by decide))
      (hread _ (by decide)) trivial trivial trivial (by decide) (by decide)
  · exact htrans _ (.choice .set ["y", "x"] .none) _ (hread _ (by decide)) (hread _ (by decide))
      (hread _ (by decide)) trivial (by decide : 2 ≤ 64) (by decide : 3 ≤ 64) (by decide) (by decide)

end ColumnType

end SchemaDrift
