import Mathlib
import SchemaDrift.Guard
import SchemaDrift.Proofs.ExactNumber

/-!
Guards of exact numbers. A condition on numbers is a comparison of two terms in the value of its
column, and in exact arithmetic each comparison holds of a value or does not. The guard of a conversion
between exact numbers is a disjunction of such comparisons, which holds of just those values of the old
type that the new one cannot hold.
-/

namespace SchemaDrift

/-! ### Arithmetic in queries -/

/-- The nearest integer; of two equally near ones that which is further from zero. -/
def roundAway (v : ℚ) : ℤ := if 0 ≤ v then ⌊v + 1 / 2⌋ else ⌈v - 1 / 2⌉

/-- The nearest number with so many digits after the point. -/
def roundToScale (scale : ℕ) (v : ℚ) : ℚ := roundAway (v * 10 ^ scale) / 10 ^ scale

lemma roundAway_intCast (n : ℤ) : roundAway n = n := by
  unfold roundAway
  split
  · rw [Int.floor_eq_iff]
    constructor <;> linarith
  · rw [Int.ceil_eq_iff]
    constructor <;> linarith

lemma roundToScale_eq_iff {scale : ℕ} {v : ℚ} : roundToScale scale v = v ↔ HasScale scale v := by
  constructor
  · intro h
    exact ⟨_, h.symm⟩
  · rintro ⟨n, rfl⟩
    have hpow : (10 : ℚ) ^ scale ≠ 0 := by positivity
    rw [roundToScale, div_mul_cancel₀ _ hpow, roundAway_intCast]

/-- A term in the value of a column. -/
inductive Term where
  | value
  | whole (n : ℤ)
  | powerOfTen (n : ℕ)
  | abs (t : Term)
  | round (t : Term)
  | roundTo (t : Term) (scale : ℕ)

namespace Term

/-- The term as SQL, on the column with the written name `col`. -/
def sql (col : String) : Term → String
  | value => col
  | whole n => Text.signedDecimal n
  | powerOfTen n => "1e" ++ Text.decimal n
  | abs t => "ABS(" ++ t.sql col ++ ")"
  | round t => "ROUND(" ++ t.sql col ++ ")"
  | roundTo t scale => "ROUND(" ++ t.sql col ++ ", " ++ Text.decimal scale ++ ")"

/-- What the term stands for when the column has the value `v`. -/
def eval (v : ℚ) : Term → ℚ
  | value => v
  | whole n => n
  | powerOfTen n => 10 ^ n
  | abs t => |t.eval v|
  | round t => roundToScale 0 (t.eval v)
  | roundTo t scale => roundToScale scale (t.eval v)

end Term

inductive Comparator where
  | below
  | above
  | atLeast
  | unequal

namespace Comparator

def sql : Comparator → String
  | below => " < "
  | above => " > "
  | atLeast => " >= "
  | unequal => " <> "

def Holds : Comparator → ℚ → ℚ → Prop
  | below, x, y => x < y
  | above, x, y => y < x
  | atLeast, x, y => y ≤ x
  | unequal, x, y => x ≠ y

end Comparator

structure Comparison where
  left : Term
  comparator : Comparator
  right : Term

namespace Comparison

def sql (col : String) (e : Comparison) : String :=
  e.left.sql col ++ e.comparator.sql ++ e.right.sql col

def Holds (e : Comparison) (v : ℚ) : Prop := e.comparator.Holds (e.left.eval v) (e.right.eval v)

end Comparison

namespace Condition

def comparison? : Condition → Option Comparison
  | below bound => some ⟨.value, .below, .whole bound⟩
  | above bound => some ⟨.value, .above, .whole bound⟩
  | fractional => some ⟨.value, .unequal, .round .value⟩
  | reaches power => some ⟨.abs .value, .atLeast, .powerOfTen power⟩
  | finerThan scale => some ⟨.value, .unequal, .roundTo .value scale⟩
  | _ => none

lemma sql_eq_of_comparison? {c : Condition} {e : Comparison} (h : c.comparison? = some e)
    (col : String) : c.sql col = e.sql col := by
  cases c <;> cases h
  case below bound => rfl
  case above bound => rfl
  case reaches power =>
    change "ABS(" ++ col ++ ") >= 1e" ++ Text.decimal power =
      "ABS(" ++ col ++ ")" ++ " >= " ++ ("1e" ++ Text.decimal power)
    simp only [String.append_assoc]
    rfl
  case fractional =>
    change col ++ " <> ROUND(" ++ col ++ ")" = col ++ " <> " ++ ("ROUND(" ++ col ++ ")")
    simp only [String.append_assoc]
    rfl
  case finerThan scale =>
    change col ++ " <> ROUND(" ++ col ++ ", " ++ Text.decimal scale ++ ")" =
      col ++ " <> " ++ ("ROUND(" ++ col ++ ", " ++ Text.decimal scale ++ ")")
    simp only [String.append_assoc]
    rfl

lemma map_sql_eq {cs : List Condition} (h : ∀ c ∈ cs, c.comparison?.isSome) (col : String) :
    cs.map (Condition.sql col) = (cs.filterMap comparison?).map (Comparison.sql col) := by
  induction cs with
  | nil => rfl
  | cons c cs ih =>
    obtain ⟨e, he⟩ := Option.isSome_iff_exists.1 (h c List.mem_cons_self)
    have hcs := ih fun d hd => h d (List.mem_cons_of_mem _ hd)
    rw [List.filterMap_cons_some he, List.map_cons, List.map_cons, hcs, sql_eq_of_comparison? he]

end Condition

/-! ### What is lost -/

namespace ColumnType

open Condition (comparison?)

def lossComparisons (a b : ColumnType) : List Comparison := (losses a b).filterMap comparison?

variable {a b : ColumnType} {v : ℚ}

lemma isNumeric_of_isExact (ha : a.IsExact) : a.isNumeric = true := by
  cases a with
  | integer => rfl
  | decimal => rfl
  | _ => exact ha.elim

lemma hasScale_zero_of_holdsNumber (ha : a.IsExact) (hfraction : a.hasFraction = false)
    (hv : a.HoldsNumber v) : HasScale 0 v := by
  cases a with
  | integer =>
    obtain ⟨n, rfl, -, -⟩ := hv
    exact HasScale.intCast 0 n
  | decimal => cases hfraction
  | _ => exact ha.elim

lemma losses_of_isExact (ha : a.IsExact) (hb : b.IsExact) :
    losses a b ≠ [] ∧ ∀ c ∈ losses a b, (comparison? c).isSome := by
  have hnumeric := isNumeric_of_isExact ha
  cases b with
  | integer size width flags =>
    refine ⟨by simp [losses], ?_⟩
    rcases hfraction : a.hasFraction <;> simp [losses, hnumeric, hfraction, comparison?]
  | decimal precision scale flags =>
    refine ⟨by simp [losses], ?_⟩
    rcases hunsigned : flags.isUnsigned <;> simp [losses, hnumeric, hunsigned, comparison?]
  | _ => exact hb.elim

lemma exists_lossComparison_integer_iff (ha : a.IsExact) {size : IntegerSize} {width : Option ℕ}
    {flags : NumberFlags} : (∃ e ∈ lossComparisons a (integer size width flags), e.Holds v) ↔
      v < size.low flags.isUnsigned ∨ size.high flags.isUnsigned < v ∨
        a.hasFraction = true ∧ ¬ HasScale 0 v := by
  have hround : v ≠ roundToScale 0 v ↔ ¬ HasScale 0 v := by
    rw [ne_comm, ne_eq, roundToScale_eq_iff]
  rcases hfraction : a.hasFraction <;>
    simp [lossComparisons, losses, isNumeric_of_isExact ha, hfraction, comparison?,
      Comparison.Holds, Comparator.Holds, Term.eval, ← hround]

lemma exists_lossComparison_decimal_iff (ha : a.IsExact) {precision scale : ℕ}
    {flags : NumberFlags} :
    (∃ e ∈ lossComparisons a (decimal precision scale flags), e.Holds v) ↔
      10 ^ (precision - scale) ≤ |v| ∨ ¬ HasScale scale v ∨ flags.isUnsigned = true ∧ v < 0 := by
  have hround : v ≠ roundToScale scale v ↔ ¬ HasScale scale v := by
    rw [ne_comm, ne_eq, roundToScale_eq_iff]
  rcases hunsigned : flags.isUnsigned <;>
    simp [lossComparisons, losses, isNumeric_of_isExact ha, hunsigned, comparison?,
      Comparison.Holds, Comparator.Holds, Term.eval, ← hround]

lemma exists_lossComparison_iff (ha : a.IsExact) (hb : b.IsExact) (hv : a.HoldsNumber v) :
    (∃ e ∈ lossComparisons a b, e.Holds v) ↔ ¬ b.HoldsNumber v := by
  cases b with
  | integer size width flags =>
    -- The guard of integers does not look for fractions, and need not.
    have hfraction : a.hasFraction = true ∧ ¬ HasScale 0 v ↔ ¬ HasScale 0 v := by
      refine and_iff_right_of_imp fun hfine => ?_
      by_contra hnone
      exact hfine (hasScale_zero_of_holdsNumber ha (by simpa using hnone) hv)
    rw [exists_lossComparison_integer_iff ha, hfraction, holdsNumber_integer_iff, not_and_or,
      not_and_or, not_le, not_le]
    tauto
  | decimal precision scale flags =>
    have hsign : flags.isUnsigned = true ∧ v < 0 ↔ ¬ (flags.isUnsigned = true → 0 ≤ v) := by
      rw [Classical.not_imp, not_le]
    rw [exists_lossComparison_decimal_iff ha, hsign, HoldsNumber, not_and_or, not_and_or, not_lt]
    tauto
  | _ => exact hb.elim

end ColumnType

namespace Guard

/-- The query that counts the rows in which one of the alternatives holds. -/
def countQuery (table : TableName) (alternatives : List String) : String :=
  "SELECT count(*) FROM " ++ table.sql ++ " WHERE " ++
    Text.joined " OR " (alternatives.map fun s => "(" ++ s ++ ")")

lemma sql_matchingAny (table : TableName) (column : String) (conditions : List Condition) :
    Guard.sql ⟨table, .matchingAny column conditions⟩ =
      countQuery table (conditions.map (Condition.sql (Sql.name column))) := by
  unfold Guard.sql countQuery
  dsimp only
  rw [List.map_map, ← String.append_assoc]
  rfl

def nullTexts (before after : Column) : List String :=
  if before.nullable && !after.nullable then [Sql.name before.name ++ " IS NULL"] else []

lemma sql_ofModifyColumn {catalog : Catalog} {before after : Column} (hbefore : before.type.IsExact)
    (hafter : after.type.IsExact)
    (hloses : ColumnType.losslessTo catalog before.type after.type = false) (table : TableName) :
    (ofModifyColumn table catalog before after).map Guard.sql = some (countQuery table
      ((before.type.lossComparisons after.type).map (Comparison.sql (Sql.name before.name)) ++
        nullTexts before after)) := by
  obtain ⟨hne, hall⟩ := ColumnType.losses_of_isExact hbefore hafter
  have hkept : keepsValues catalog before after = false := by
    rw [keepsValues, hloses, Bool.false_and]
  have hendangered : endangeredValues before.type after.type = before.type.losses after.type := by
    rw [endangeredValues, if_neg (by simpa using hne)]
  have hguard : ofModifyColumn table catalog before after =
      some ⟨table, .matchingAny before.name (before.type.losses after.type ++
        if before.nullable && !after.nullable then [.isNull] else [])⟩ := by
    simp only [ofModifyColumn, hkept, Bool.false_and, Bool.false_eq_true, if_false, hendangered]
  have hnull : (if before.nullable && !after.nullable then [Condition.isNull] else []).map
      (Condition.sql (Sql.name before.name)) = nullTexts before after := by
    unfold nullTexts
    split <;> rfl
  have hloss : (before.type.losses after.type).map (Condition.sql (Sql.name before.name)) =
      (before.type.lossComparisons after.type).map (Comparison.sql (Sql.name before.name)) :=
    Condition.map_sql_eq hall _
  rw [hguard, Option.map_some, sql_matchingAny, List.map_append, hnull, hloss]

/-- **Exact numbers are judged exactly.** From integer to integer and from decimal to decimal, a
conversion counts as lossless exactly if every number of the old type is one of the new type. The guard
of a conversion between exact types that does not count as lossless is a disjunction of comparisons,
beside one that looks for nulls, and of the numbers of the old type they hold of those that the new
type cannot hold. -/
theorem judges_exact_numbers (catalog : Catalog) (table : TableName) {before after : Column}
    (hbefore : before.type.IsExact) (hafter : after.type.IsExact) :
    (before.type.SameFamily after.type →
      (ColumnType.losslessTo catalog before.type after.type = true ↔
        ∀ v, before.type.HoldsNumber v → after.type.HoldsNumber v)) ∧
      (ColumnType.losslessTo catalog before.type after.type = false →
        ∃ comparisons : List Comparison,
          (ofModifyColumn table catalog before after).map Guard.sql = some (countQuery table
            (comparisons.map (Comparison.sql (Sql.name before.name)) ++ nullTexts before after)) ∧
          ∀ v, before.type.HoldsNumber v →
            ((∃ e ∈ comparisons, e.Holds v) ↔ ¬ after.type.HoldsNumber v)) := by
  refine ⟨ColumnType.losslessTo_iff_holds catalog hbefore, fun hloses => ?_⟩
  exact ⟨before.type.lossComparisons after.type,
    sql_ofModifyColumn hbefore hafter hloses table,
    fun v => ColumnType.exists_lossComparison_iff hbefore hafter⟩

theorem judges_exact_numbers_shifted :
    let before := Column.ofType "n" (.decimal 5 2 .none)
    let after := Column.ofType "n" (.decimal 5 3 .none)
    (before.type.IsExact ∧ after.type.IsExact ∧ before.type.SameFamily after.type ∧
      ColumnType.losslessTo .builtin before.type after.type = false) ∧
    ¬ (∀ v, before.type.HoldsNumber v → after.type.HoldsNumber v) ∧
    ∃ comparisons : List Comparison,
      some "SELECT count(*) FROM t WHERE (ABS(n) >= 1e2) OR (n <> ROUND(n, 3))" =
        some (countQuery ⟨none, "t"⟩ (comparisons.map (Comparison.sql (Sql.name "n")))) ∧
      ∀ v, before.type.HoldsNumber v →
        ((∃ e ∈ comparisons, e.Holds v) ↔ ¬ after.type.HoldsNumber v) := by
  intro before after
  have hbefore : before.type.IsExact := ⟨by decide, by decide⟩
  have hafter : after.type.IsExact := ⟨by decide, by decide⟩
  have hloses : ColumnType.losslessTo .builtin before.type after.type = false := by decide +kernel
  obtain ⟨hlossless, hguard⟩ := judges_exact_numbers .builtin ⟨none, "t"⟩ hbefore hafter
  refine ⟨⟨hbefore, hafter, trivial, hloses⟩, fun hall => ?_, ?_⟩
  · rw [(hlossless trivial).2 hall] at hloses
    cases hloses
  · obtain ⟨comparisons, htext, hholds⟩ := hguard hloses
    refine ⟨comparisons, ?_, hholds⟩
    have hcase : (ofModifyColumn ⟨none, "t"⟩ .builtin before after).map Guard.sql =
        some "SELECT count(*) FROM t WHERE (ABS(n) >= 1e2) OR (n <> ROUND(n, 3))" := by
      decide +kernel
    rw [← hcase, htext]
    simp [before, after, Column.ofType, nullTexts]

end Guard

end SchemaDrift
