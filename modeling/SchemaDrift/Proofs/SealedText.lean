import Mathlib
import SchemaDrift.Proofs.StatementCut
import SchemaDrift.Proofs.WrittenConstraint
import SchemaDrift.Table

/-!
Statements that the cut keeps whole. Names and string literals are sealed, whatever characters they
hold, so that a text which is put together from plain text, names and literals is one statement.
-/

namespace SchemaDrift

open Text (isBlank trim)

namespace Script

variable {r : Region} {q : Char} {s t : String}

lemma sealed_append (hs : Sealed r s.toList) (ht : Sealed r t.toList) :
    Sealed r (s ++ t).toList := by
  rw [String.toList_append]
  exact hs.append ht

/-! ### Texts that end visibly -/

/-- A sealed text whose last character is not blank. -/
structure Solid (s : String) : Prop where
  isSealed : Sealed .plain s.toList
  last : ∃ c ∈ s.toList.getLast?, isBlank c = false

lemma Solid.append (hs : Sealed .plain s.toList) (ht : Solid t) : Solid (s ++ t) := by
  obtain ⟨c, hc, hblank⟩ := ht.last
  refine ⟨sealed_append hs ht.isSealed, c, ?_, hblank⟩
  rw [String.toList_append, List.getLast?_append, Option.mem_def.1 hc]
  rfl

lemma solid_quoted {w : List Char} (h : Sealed .plain (q :: (w ++ [q]))) (hq : isBlank q = false)
    (hs : s.toList = q :: (w ++ [q])) : Solid s := by
  refine ⟨hs ▸ h, q, ?_, hq⟩
  rw [hs, ← List.cons_append, List.getLast?_concat]
  rfl

lemma solid_literal (s : String) : Solid (Sql.literal s) := by
  have hsealed : Sealed .plain ('\x27' :: ((Sql.escape s).toList ++ ['\x27'])) :=
    sealed_quotation (spells_escape s) (by decide) (by decide)
  exact solid_quoted hsealed (by decide) (by simp [Sql.literal])

lemma solid_name (n : String) : Solid (Sql.name n) := by
  by_cases hbare : Sql.isBareName n = true
  · rw [Sql.name, if_pos hbare]
    simp only [Sql.isBareName, Bool.and_eq_true, Bool.not_eq_true'] at hbare
    obtain ⟨⟨⟨hne, hall⟩, -⟩, -⟩ := hbare
    have hname (c : Char) (hc : c ∈ n.toList) : Sql.isNameChar c = true :=
      List.all_eq_true.1 hall c hc
    have hmarks : ∀ c ∈ marks, Sql.isNameChar c = false := by
      simp [marks, Sql.isNameChar]
    refine ⟨sealed_of_notMem_marks fun c hc hmark => ?_, ?_⟩
    · have hnot := hmarks c hmark
      rw [hname c hc] at hnot
      cases hnot
    · obtain ⟨c, hc⟩ := Option.isSome_iff_exists.1
        (List.getLast?_isSome.2 (List.isEmpty_eq_false_iff.1 hne))
      exact ⟨c, hc, isBlank_of_isWordChar
        (isWordChar_of_isNameChar (hname c (List.mem_of_getLast? hc)))⟩
  · rw [Sql.name, if_neg hbare]
    have hsealed : Sealed .plain ('\x60' :: (Text.doubled '\x60' n.toList ++ ['\x60'])) :=
      sealed_quotation (spells_doubled n.toList) (by decide) (by decide)
    exact solid_quoted hsealed (by decide) (by simp)

lemma solid_tableName (n : TableName) : Solid n.sql := by
  unfold TableName.sql
  rcases n.database? with _ | d
  · exact solid_name n.name
  · refine .append ?_ (solid_name n.name)
    exact sealed_append (solid_name d).isSealed (sealed_of_notMem_marks (by simp [marks]))

lemma sealed_joined {separator : String} (hseparator : Sealed .plain separator.toList)
    {l : List String} (h : ∀ s ∈ l, Sealed .plain s.toList) :
    Sealed .plain (Text.joined separator l).toList := by
  fun_induction Text.joined separator l with
  | case1 => exact sealed_nil _
  | case2 s => exact h s List.mem_cons_self
  | case3 s t rest ih =>
    have hrest := ih fun u hu => h u (List.mem_cons_of_mem s hu)
    exact sealed_append (sealed_append (h s List.mem_cons_self) hseparator) hrest

/-! ### One statement -/

lemma statements_of_solid (h : Solid s) (hhead : ∃ c ∈ s.toList.head?, isBlank c = false) :
    statements s = [s] := by
  obtain ⟨c, hc, hblank⟩ := hhead
  obtain ⟨d, hd, hblank'⟩ := h.last
  obtain ⟨u, hu⟩ := List.head?_eq_some_iff.1 hc
  obtain ⟨v, hv⟩ := List.getLast?_eq_some_iff.1 hd
  have htrim : trim s.toList = s.toList := by
    rw [hu]
    exact trim_eq_self (hu.symm.trans hv) hblank hblank'
  have hne : s.toList ≠ [] := by
    rw [hu]
    exact List.cons_ne_nil c u
  have hcut : cut .plain s.toList = [s.toList] := by
    have hwhole := h.isSealed []
    rwa [List.append_nil, cut_nil, kept_cons, List.append_nil] at hwhole
  rw [statements_eq, hcut, trimmedPieces, List.map_singleton, htrim,
    List.filter_cons_of_pos (by simpa using hne)]
  simp

end Script

end SchemaDrift
