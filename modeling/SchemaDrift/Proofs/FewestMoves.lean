import Mathlib
import SchemaDrift.Proofs.ColumnReplay

/-!
How few columns move. The sequence found to be common to two lists is as long as any that is. The
columns outside of it can be taken out of the two orders of a table's common columns to make these
equal, and no smaller set of columns can.
-/

namespace SchemaDrift

open Text (lower)

/-! ### The longest common sequence -/

namespace Moves

variable {α : Type} [DecidableEq α]

structure IsLongestCommon (s xs ys : List α) : Prop where
  left : s.Sublist xs
  right : s.Sublist ys
  longest : ∀ t : List α, t.Sublist xs → t.Sublist ys → t.length ≤ s.length

omit [DecidableEq α] in
lemma length_longer (s t : List α) : (longer s t).length = max s.length t.length := by
  unfold longer
  split <;> omega

theorem length_le_longestCommon {s xs ys : List α} (hx : s.Sublist xs) (hy : s.Sublist ys) :
    s.length ≤ (longestCommon xs ys).length := by
  induction xs generalizing s ys with
  | nil => rw [List.sublist_nil.1 hx, List.length_nil]; exact Nat.zero_le _
  | cons x xs ihx =>
    induction ys generalizing s with
    | nil => rw [List.sublist_nil.1 hy, List.length_nil]; exact Nat.zero_le _
    | cons y ys ihy =>
      rw [longestCommon_cons_cons]
      split
      · -- Without its head, whatever that is, the sequence is common to the tails.
        have htails : s.tail.length ≤ (longestCommon xs ys).length := ihx hx.tail hy.tail
        rw [List.length_tail] at htails
        rw [List.length_cons]
        omega
      · rename_i hne
        rw [length_longer]
        -- A sequence that begins with one of two different heads leaves out the other.
        rcases List.sublist_cons_iff.1 hx with hxs | ⟨s', rfl, -⟩
        · exact (ihx hxs hy).trans (le_max_left _ _)
        · rcases List.sublist_cons_iff.1 hy with hys | ⟨t, he, -⟩
          · exact (ihy hx hys).trans (le_max_right _ _)
          · exact absurd (List.cons.inj he).1 hne

theorem isLongestCommon_longestCommon (xs ys : List α) :
    IsLongestCommon (longestCommon xs ys) xs ys :=
  ⟨longestCommon_sublist_left xs ys, longestCommon_sublist_right xs ys,
    fun _ => length_le_longestCommon⟩

/-! ### What moved -/

lemma length_moved_add {new : List α} (hn : new.Nodup) (old : List α) :
    (moved new old).length + (longestCommon new old).length = new.length := by
  have hstable : new.filter (· ∈ longestCommon new old) = longestCommon new old :=
    filter_mem_sublist (longestCommon_sublist_left new old) hn
  have hsplit := List.length_eq_length_filter_add (l := new) (· ∈ longestCommon new old)
  have hmoved : moved new old = new.filter (fun x => !decide (x ∈ longestCommon new old)) := by
    simp only [moved, List.contains_eq_mem]
  rw [hstable, ← hmoved] at hsplit
  omega

theorem length_moved_le {new old : List α} (hn : new.Nodup) {s : Finset α}
    (h : new.filter (· ∉ s) = old.filter (· ∉ s)) : (moved new old).length ≤ s.card := by
  have hkept : (new.filter (· ∉ s)).length ≤ (longestCommon new old).length :=
    length_le_longestCommon List.filter_sublist (h ▸ List.filter_sublist)
  have htaken : (new.filter (· ∈ s)).length ≤ s.card := by
    rw [← List.toFinset_card_of_nodup (hn.filter _)]
    refine Finset.card_le_card fun x hx => ?_
    simpa using (List.mem_filter.1 (List.mem_toFinset.1 hx)).2
  have hall := length_moved_add hn old
  have hsplit := List.length_eq_length_filter_add (l := new) (· ∈ s)
  simp only [← decide_not] at hsplit
  omega

end Moves

/-! ### Columns -/

namespace TablePair

variable (p : TablePair)

def declaredOrder : List String :=
  (columnNames p.declared).filter (columnNames p.live).contains

def liveOrder : List String :=
  (columnNames p.live).filter (columnNames p.declared).contains

/-- The columns `s` are common ones, and both sides list the other common ones alike. -/
structure AgreesWithout (s : Finset String) : Prop where
  common : ∀ n ∈ s, n ∈ columnNames p.live ∧ n ∈ columnNames p.declared
  order : p.declaredOrder.filter (· ∉ s) = p.liveOrder.filter (· ∉ s)

variable {p}

lemma agreesWithout_movedColumns (hlive : (columnNames p.live).Nodup)
    (hdeclared : (columnNames p.declared).Nodup) :
    p.AgreesWithout p.movedColumns.toFinset := by
  refine ⟨fun n hn => (p.mem_movedColumns (List.mem_toFinset.1 hn)).symm, ?_⟩
  simp only [List.mem_toFinset]
  exact (Moves.filter_not_moved (hdeclared.filter _) (hlive.filter _)
    fun n => by simp [and_comm]).symm

end TablePair

/-- **The fewest moves.** The sequence found to be common to two lists is a longest one. The columns
of two tables that were read which count as moved are some common ones, each once, without which
both sides list the common columns alike, and no fewer columns are like that. -/
theorem TableDrift.moves_fewest {real real' : FloatSize} {liveText declaredText : String}
    {live declared : Table} (catalog : Catalog)
    (hlive : Statement.read real liveText = .table live)
    (hdeclared : Statement.read real' declaredText = .table declared) :
    (∀ (α : Type) [DecidableEq α] (xs ys : List α),
        Moves.IsLongestCommon (Moves.longestCommon xs ys) xs ys) ∧
      let p : TablePair := ⟨live, declared, catalog⟩
      p.movedColumns.Nodup ∧ p.AgreesWithout p.movedColumns.toFinset ∧
        ∀ s, p.AgreesWithout s → p.movedColumns.length ≤ s.card := by
  have hliveNames := (Statement.wellPlaced_of_read hlive).nodup
  have hdeclaredNames := (Statement.wellPlaced_of_read hdeclared).nodup
  refine ⟨fun α _ xs ys => Moves.isLongestCommon_longestCommon xs ys, ?_, ?_, fun s hs => ?_⟩
  · exact (hdeclaredNames.filter _).filter _
  · exact TablePair.agreesWithout_movedColumns hliveNames hdeclaredNames
  · exact Moves.length_moved_le (hdeclaredNames.filter _) hs.order

/-- Of two columns that change places one moves. -/
theorem TableDrift.moves_fewest_swapped :
    let p : TablePair :=
      ⟨.ofNames ["a", "c", "b", "d"], .ofNames ["a", "b", "C", "n", "d"], .builtin⟩
    Statement.read .double "CREATE TABLE t (a INT, c INT, b INT, d INT)" = .table p.live ∧
      Statement.read .double "CREATE TABLE t (a INT, b INT, C INT, n INT, d INT)" =
        .table p.declared ∧
      p.movedColumns = ["b"] ∧ p.AgreesWithout {"b"} ∧
        ∀ s, p.AgreesWithout s → 1 ≤ s.card := by
  intro p
  have hlive : Statement.read .double "CREATE TABLE t (a INT, c INT, b INT, d INT)" =
      .table p.live := by decide +kernel
  have hdeclared :
      Statement.read .double "CREATE TABLE t (a INT, b INT, C INT, n INT, d INT)" =
        .table p.declared := by decide +kernel
  have hmoved : p.movedColumns = ["b"] := by decide +kernel
  obtain ⟨-, -, hagrees, hfewest⟩ := TableDrift.moves_fewest .builtin hlive hdeclared
  rw [hmoved] at hagrees hfewest
  exact ⟨hlive, hdeclared, hmoved, hagrees, hfewest⟩

end SchemaDrift
