import Mathlib
import SchemaDrift.Drift.Account
import SchemaDrift.Proofs.TableYield

/-!
The first word of a statement, which decides what it is about. A text that starts with a letter
other than those of the known first words is no statement on accounts, however many blanks stand
before it.
-/

namespace SchemaDrift

open Text (isBlank lower)

lemma dropGap_of_dropWhile {cs rest : List Char} {c : Char} (h : cs.dropWhile isBlank = c :: rest)
    (hc : c ∉ ['#', '-', '/']) : dropGap .blanks cs = c :: rest := by
  have hstart : ∀ b ∈ ['#', '-', '/'], isBlank b = false := by simp [isBlank]
  induction cs with
  | nil => cases h
  | cons b cs ih =>
    have hb (hb : b ∉ ['#', '-', '/']) : dropGap .blanks (b :: cs) =
        if isBlank b then dropGap .blanks cs else b :: cs := by
      simp only [List.mem_cons, not_or, List.not_mem_nil, not_false_eq_true, and_true] at hb
      rw [dropGap] <;> simp [hb]
    by_cases hblank : isBlank b = true
    · rw [List.dropWhile_cons_of_pos hblank] at h
      have hne : b ∉ ['#', '-', '/'] := fun hm => by simp [hstart b hm] at hblank
      rw [hb hne, if_pos hblank, ih h]
    · rw [List.dropWhile_cons_of_neg hblank] at h
      obtain ⟨rfl, rfl⟩ := List.cons.inj h
      rw [hb hc, if_neg hblank]

lemma isScientific_S (cs : List Char) : isScientific ('S' :: cs) = false := by
  have hlower : Char.toLower 'S' = 's' := by decide
  unfold isScientific
  rw [List.map_cons, hlower, Text.cutFirst, List.dropWhile_cons_of_pos (by decide),
    List.takeWhile_cons_of_pos (by decide)]
  rcases (cs.map Char.toLower).dropWhile (· != 'e') with _ | ⟨c, exponent⟩
  · rfl
  · simp [allDigits]

lemma read_S (rest : List Char) : (Lexeme.read 'S' rest).1 =
    .word (String.ofList ('S' :: rest.takeWhile isWordChar)) := by
  have hpunctuation : Lexeme.ofPunctuation? 'S' = none := by decide
  have hword : isWordChar 'S' = true := by decide +kernel
  have hread : Lexeme.read 'S' rest = readWord ('S' :: rest) := by
    unfold Lexeme.read
    rw [hpunctuation]
    simp [hword]
  have hdigits (cs : List Char) : allDigits ('S' :: cs) = false := by simp [allDigits]
  have hhex (cs : List Char) : isHexLiteral ('S' :: cs) = false := rfl
  rw [hread, readWord, List.takeWhile_cons_of_pos hword]
  simp [hdigits, hhex, isScientific_S]

lemma lexemeAt_ofText {text : String} {rest : List Char}
    (h : text.toList.dropWhile isBlank = 'S' :: rest) : (Cursor.ofText text).lexemeAt 0 =
      .word (String.ofList ('S' :: rest.takeWhile isWordChar)) := by
  have hgap := dropGap_of_dropWhile h (by decide)
  unfold Cursor.ofText tokens
  rw [tokensFrom]
  simp only
  split
  · rename_i hnil
    rw [hgap] at hnil
    cases hnil
  · rename_i c more hcons
    rw [hgap] at hcons
    obtain ⟨rfl, rfl⟩ := List.cons.inj hcons
    exact read_S rest

lemma Cursor.hasWords_cons_eq_false {c : Cursor} {w : String} (ws : List String)
    (h : (c.lexemeAt 0).isWord w = false) : c.hasWords (w :: ws) = false := by
  rw [hasWords, List.length_cons, List.range_succ_eq_map, List.zip_cons_cons, List.all_cons]
  simp only [h, Bool.false_and]

lemma Statement.isWord_of_accounts {real : FloatSize} {text : String} {cs : List AccountClause}
    (h : read real text = .accounts cs) :
    ((Cursor.ofText text).lexemeAt 0).isWord "CREATE" = true ∨
      ((Cursor.ofText text).lexemeAt 0).isWord "ALTER" = true := by
  have hkind : kindAt (Cursor.ofText text) = .account := by
    unfold read at h
    simp only at h
    split at h
    case h_4 hkind => exact hkind
    all_goals try contradiction
    all_goals rcases eq_of_outcome h with ⟨a, c', hg, ha⟩ | ⟨fault, hf⟩ <;> contradiction
  by_contra hnot
  rw [not_or, Bool.not_eq_true, Bool.not_eq_true] at hnot
  have hcreate := Cursor.hasWords_cons_eq_false ["USER"] hnot.1
  have halter := Cursor.hasWords_cons_eq_false ["USER"] hnot.2
  unfold kindAt at hkind
  rw [hcreate, halter] at hkind
  grind

lemma Statement.dropWhile_ne_of_accounts {real : FloatSize} {text : String}
    {cs : List AccountClause} (h : read real text = .accounts cs) (rest : List Char) :
    text.toList.dropWhile isBlank ≠ 'S' :: rest := by
  intro hstart
  have hword (w : String) (hw : (lower w).toList.head? ≠ some 's') :
      ((Cursor.ofText text).lexemeAt 0).isWord w = false := by
    rw [lexemeAt_ofText hstart, Lexeme.isWord, Bool.eq_false_iff]
    intro hsame
    refine hw ?_
    rw [← Text.sameName_iff.1 hsame, lower, String.toList_ofList, String.toList_ofList,
      List.map_cons]
    rfl
  rcases isWord_of_accounts h with hcreate | halter
  · rw [hword "CREATE" (by decide)] at hcreate
    cases hcreate
  · rw [hword "ALTER" (by decide)] at halter
    cases halter

namespace AccountChange

lemma isPrefix_dropEndWhile (p : Char → Bool) (cs : List Char) : Text.dropEndWhile p cs <+: cs := by
  unfold Text.dropEndWhile
  rw [← List.reverse_suffix, List.reverse_reverse]
  exact List.dropWhile_suffix p

lemma head?_closedText {real : FloatSize} {text : String} {cs : List AccountClause}
    (h : Statement.read real text = .accounts cs) :
    (closedText text).toList.head? ≠ some 'S' := by
  intro hhead
  unfold closedText at hhead
  rw [String.toList_append, String.toList_ofList] at hhead
  rcases hkept : Text.dropEndWhile (· = ';') (Text.trim text.toList) with _ | ⟨c, kept⟩
  · rw [hkept] at hhead
    cases hhead
  · rw [hkept] at hhead
    obtain rfl : c = 'S' := Option.some.inj hhead
    have hstart := (isPrefix_dropEndWhile (· = ';') (Text.trim text.toList)).trans
      (isPrefix_dropEndWhile isBlank (text.toList.dropWhile isBlank))
    rw [hkept] at hstart
    obtain ⟨rest, hrest⟩ := hstart
    exact Statement.dropWhile_ne_of_accounts h (kept ++ rest) (by simpa using hrest.symm)

end AccountChange

end SchemaDrift
