import Mathlib
import SchemaDrift.Charset

/-!
Names of character sets and collations. The canonical form of a name is its own, coverage is a
preorder on the names, and what a catalog knows of a character set does not depend on how it is named.
-/

namespace SchemaDrift

open Text (lower)

namespace Text

lemma lower_lower (s : String) : lower (lower s) = lower s := by
  simp [lower, Function.comp_def]

lemma eq_append_of_afterStart? {start cs rest : List Char} (h : afterStart? start cs = some rest) :
    cs = start ++ rest := by
  induction start generalizing cs with
  | nil => exact Option.some.inj h
  | cons p ps ih =>
    cases cs with
    | nil => cases h
    | cons c cs =>
      rw [afterStart?] at h
      split at h
      · rename_i hpc
        rw [hpc, ih h, List.cons_append]
      · cases h

end Text

namespace Charset

lemma canonical_canonical (name : String) : canonical (canonical name) = canonical name := by
  unfold canonical
  by_cases h : lower name = "utf8"
  · simp only [h, if_true]
    decide
  · simp [h, Text.lower_lower]

/-- Where one character set covers another: they are the same, or neither is the set of bytes and the
containment is one of those listed. -/
lemma covers_iff {a b : String} : covers a b = true ↔ canonical a = canonical b ∨
    (canonical a ≠ "binary" ∧ canonical b ≠ "binary") ∧ (canonical a = "ascii" ∨
      canonical b ∈ fullUnicode ∨ canonical b ∈ basicPlane ∧
        (canonical a = "latin1" ∨ canonical a ∈ basicPlane)) := by
  unfold covers
  simp only
  split_ifs with hsame hbinary hascii hfull hplane
  · simp [hsame]
  · simp only [Bool.or_eq_true, decide_eq_true_eq] at hbinary
    simp only [hsame, false_or, false_iff]
    tauto
  · simp only [Bool.or_eq_true, decide_eq_true_eq, not_or] at hbinary
    simp [hbinary, hascii]
  · simp only [Bool.or_eq_true, decide_eq_true_eq, not_or] at hbinary
    simp [hbinary, List.contains_iff_mem.1 hfull]
  · simp only [Bool.or_eq_true, decide_eq_true_eq, not_or] at hbinary
    rw [List.contains_iff_mem] at hfull hplane
    simp [hsame, hbinary, hascii, hfull, hplane]
  · simp only [Bool.or_eq_true, decide_eq_true_eq, not_or] at hbinary
    rw [List.contains_iff_mem] at hfull hplane
    simp [hsame, hbinary, hascii, hfull, hplane]

@[simp] lemma covers_self (a : String) : covers a a = true := covers_iff.2 (.inl rfl)

lemma covers_trans {a b c : String} (hab : covers a b = true) (hbc : covers b c = true) :
    covers a c = true := by
  have hfull : ∀ n ∈ fullUnicode, n ≠ "ascii" ∧ n ≠ "latin1" ∧ n ∉ basicPlane := by decide
  have hplane : ∀ n ∈ basicPlane, n ≠ "ascii" ∧ n ≠ "latin1" := by decide
  rw [covers_iff] at hab hbc ⊢
  obtain hab | ⟨⟨hna, hnb⟩, hab⟩ := hab
  · rwa [hab]
  obtain hbc | ⟨⟨-, hnc⟩, hbc⟩ := hbc
  · exact .inr ⟨⟨hna, hbc ▸ hnb⟩, hbc ▸ hab⟩
  refine .inr ⟨⟨hna, hnc⟩, ?_⟩
  rcases hab with hab | hab | ⟨hab, ha⟩
  · exact .inl hab
  · obtain ⟨hascii, hlatin, hnot⟩ := hfull _ hab
    rcases hbc with hbc | hbc | ⟨-, hbc | hbc⟩
    · exact absurd hbc hascii
    · exact .inr (.inl hbc)
    · exact absurd hbc hlatin
    · exact absurd hbc hnot
  · obtain ⟨hascii, -⟩ := hplane _ hab
    rcases hbc with hbc | hbc | ⟨hbc, -⟩
    · exact absurd hbc hascii
    · exact .inr (.inl hbc)
    · exact .inr (.inr ⟨hbc, ha⟩)

lemma lower_canonicalCollation (collation : String) :
    lower (canonicalCollation collation) = canonicalCollation collation := by
  rcases h : Text.afterStart? "utf8_".toList (lower collation).toList with _ | rest
  · simp only [canonicalCollation, h, Text.lower_lower]
  · have hrest : rest.map Char.toLower = rest := by
      have hl := Text.eq_append_of_afterStart? h
      have hll := congrArg String.toList (Text.lower_lower collation)
      rw [lower, String.toList_ofList, hl, List.map_append] at hll
      exact (List.append_inj hll (by simp)).2
    have hlist : (String.ofList rest).toList = rest := String.toList_ofList
    simp only [canonicalCollation, h]
    rw [← String.toList_inj, lower, String.toList_ofList, String.toList_append, List.map_append,
      hlist, hrest]
    rfl

lemma canonicalCollation_canonicalCollation (collation : String) :
    canonicalCollation (canonicalCollation collation) = canonicalCollation collation := by
  have hnone : Text.afterStart? "utf8_".toList (canonicalCollation collation).toList = none := by
    rcases h : Text.afterStart? "utf8_".toList (lower collation).toList with _ | rest
    · simp only [canonicalCollation, h]
    · simp only [canonicalCollation, h]
      rw [String.toList_append]
      rfl
  rw [canonicalCollation, lower_canonicalCollation, hnone]

end Charset

namespace Catalog

lemma find?_congr (catalog : Catalog) {a b : String}
    (h : Charset.canonical a = Charset.canonical b) : catalog.find? a = catalog.find? b := by
  rw [find?, find?, h]

lemma maxBytes_congr (catalog : Catalog) {a b : String}
    (h : Charset.canonical a = Charset.canonical b) : catalog.maxBytes a = catalog.maxBytes b := by
  rw [maxBytes, maxBytes, catalog.find?_congr h]

lemma one_le_maxBytes_builtin (charset : String) : 1 ≤ builtin.maxBytes charset := by
  have hfacts : ∀ f ∈ Charset.builtin, 1 ≤ f.maxBytes := by decide
  unfold maxBytes
  split
  next f hf => exact hfacts f (List.mem_of_find?_eq_some hf)
  next => decide

end Catalog

end SchemaDrift
