import Mathlib
import SchemaDrift.Proofs.Taking
import SchemaDrift.Proofs.WrittenToken

/-!
Names as they are written. Whatever its characters, a written name is one token. It is the name again,
unless the name looks like a number with an exponent or like a hex literal: such a name stands bare,
and is read as what it looks like.
-/

namespace SchemaDrift

/-! ### Names that look like numbers -/

/-- Digits, the letter `e` and digits, or `0x` and hex digits. -/
inductive IsNumeral : List Char → Prop where
  | scientific {mantissa exponent : List Char} {c : Char} (hc : c = 'e' ∨ c = 'E')
    (hmantissa : mantissa ≠ []) (hexponent : exponent ≠ [])
    (hdigits : ∀ d ∈ mantissa ++ exponent, d.isDigit = true) : IsNumeral (mantissa ++ c :: exponent)
  | hex {x : Char} {digits : List Char} (hx : x = 'x' ∨ x = 'X') (hne : digits ≠ [])
    (hdigits : ∀ d ∈ digits, isHexDigit d = true) : IsNumeral ('0' :: x :: digits)

lemma isDigit_toLower (c : Char) : c.toLower.isDigit = c.isDigit := by
  grind [Char.toLower, Char.isDigit]

lemma toLower_eq_e_iff {c : Char} : c.toLower = 'e' ↔ c = 'e' ∨ c = 'E' := by
  constructor
  · intro h
    have hval : c.toLower.val = 101 := congrArg Char.val h
    unfold Char.toLower at hval
    split at hval
    · have hsum : (c.val + 32).toNat = 101 := congrArg UInt32.toNat hval
      refine .inr (Char.ext ?_)
      change c.val = 69
      grind
    · exact .inl (Char.ext hval)
  · rintro (rfl | rfl) <;> decide

lemma allDigits_map_toLower (cs : List Char) : allDigits (cs.map Char.toLower) = allDigits cs := by
  simp [allDigits, List.all_map, Function.comp_def, isDigit_toLower]

lemma cutFirst_e {cs m e : List Char} (h : Text.cutFirst 'e' (cs.map Char.toLower) = some (m, e)) :
    ∃ mantissa c exponent, cs = mantissa ++ c :: exponent ∧ (c = 'e' ∨ c = 'E') ∧
      m = mantissa.map Char.toLower ∧ e = exponent.map Char.toLower := by
  rw [Text.cutFirst, List.dropWhile_map, List.takeWhile_map] at h
  rcases hdrop : cs.dropWhile ((· != 'e') ∘ Char.toLower) with _ | ⟨c, exponent⟩
  · rw [hdrop] at h
    cases h
  · rw [hdrop, List.map_cons] at h
    obtain ⟨rfl, rfl⟩ := Prod.mk.inj (Option.some.inj h)
    have hc := head?_dropWhile c (by rw [hdrop]; rfl)
    refine ⟨_, c, exponent, ?_, toLower_eq_e_iff.1 (by simpa using hc), rfl, rfl⟩
    rw [← hdrop, List.takeWhile_append_dropWhile]

lemma isNumeral_of_isScientific {cs : List Char} (h : isScientific cs = true) : IsNumeral cs := by
  unfold isScientific at h
  split at h
  · next m e hcut =>
    obtain ⟨mantissa, c, exponent, rfl, hc, rfl, rfl⟩ := cutFirst_e hcut
    simp only [allDigits_map_toLower, Bool.and_eq_true, Bool.not_eq_true', List.isEmpty_map,
      List.isEmpty_eq_false_iff] at h
    obtain ⟨⟨⟨hm, hmdigits⟩, he⟩, hedigits⟩ := h
    refine .scientific hc hm he fun d hd => ?_
    rcases List.mem_append.1 hd with hd | hd
    · exact List.all_eq_true.1 hmdigits d hd
    · exact List.all_eq_true.1 hedigits d hd
  · cases h

lemma isNumeral_of_isHexLiteral {cs : List Char} (h : isHexLiteral cs = true) : IsNumeral cs := by
  unfold isHexLiteral at h
  split at h
  · next x digits =>
    simp only [Bool.and_eq_true, Bool.or_eq_true, decide_eq_true_eq, Bool.not_eq_true',
      List.isEmpty_eq_false_iff] at h
    obtain ⟨⟨hx, hne⟩, hdigits⟩ := h
    exact .hex hx hne (List.all_eq_true.1 hdigits)
  · cases h

lemma IsNumeral.reads {cs : List Char} (h : IsNumeral cs) :
    isHexLiteral cs = true ∨ isScientific cs = true := by
  cases h with
  | @scientific mantissa exponent c hc hmantissa hexponent hdigits =>
    have hbefore : ∀ d ∈ mantissa.map Char.toLower, (d != 'e') = true := by
      intro d hd
      obtain ⟨b, hb, rfl⟩ := List.mem_map.1 hd
      have hdigit := hdigits b (List.mem_append_left _ hb)
      rw [bne_iff_ne]
      intro he
      rcases toLower_eq_e_iff.1 he with rfl | rfl <;> cases hdigit
    have hat : ∀ d ∈ ('e' :: exponent.map Char.toLower).head?, (d != 'e') = false := by
      rintro d ⟨⟩
      rfl
    obtain ⟨htake, hdrop⟩ := span_append hbefore hat
    have hcut : Text.cutFirst 'e' ((mantissa ++ c :: exponent).map Char.toLower) =
        some (mantissa.map Char.toLower, exponent.map Char.toLower) := by
      rw [List.map_append, List.map_cons, toLower_eq_e_iff.2 hc, Text.cutFirst, htake, hdrop]
    right
    simp only [isScientific, hcut, allDigits_map_toLower, Bool.and_eq_true, Bool.not_eq_true',
      List.isEmpty_map, List.isEmpty_eq_false_iff]
    refine ⟨⟨⟨hmantissa, ?_⟩, hexponent⟩, ?_⟩
    · exact List.all_eq_true.2 fun d hd => hdigits d (List.mem_append_left _ hd)
    · exact List.all_eq_true.2 fun d hd => hdigits d (List.mem_append_right _ hd)
  | @hex x digits hx hne hdigits =>
    left
    simp only [isHexLiteral, Bool.and_eq_true, Bool.or_eq_true, decide_eq_true_eq,
      Bool.not_eq_true', List.isEmpty_eq_false_iff]
    exact ⟨⟨hx, hne⟩, List.all_eq_true.2 hdigits⟩

lemma isNameChar_of_isHexDigit {c : Char} (h : isHexDigit c = true) : Sql.isNameChar c = true := by
  simp only [isHexDigit, Bool.or_eq_true, Bool.and_eq_true, decide_eq_true_eq, Char.le_def] at h
  grind [Sql.isNameChar, Char.isAlphanum, Char.isAlpha, Char.isDigit, Char.isLower, Char.isUpper]

lemma IsNumeral.shape {cs : List Char} (h : IsNumeral cs) : (∃ d ∈ cs.head?, d.isDigit = true) ∧
    (∃ c ∈ cs, c.isDigit = false) ∧ ∀ c ∈ cs, Sql.isNameChar c = true := by
  have hdigit {c : Char} (hc : c.isDigit = true) : Sql.isNameChar c = true :=
    isNameChar_of_isHexDigit (by simp [isHexDigit, hc])
  cases h with
  | @scientific mantissa exponent c hc hmantissa hexponent hdigits =>
    obtain ⟨d, mantissa, rfl⟩ := List.exists_cons_of_ne_nil hmantissa
    have hletter : c.isDigit = false ∧ Sql.isNameChar c = true := by
      rcases hc with rfl | rfl <;> decide
    refine ⟨⟨d, rfl, hdigits d (by simp)⟩, ⟨c, by simp, hletter.1⟩, fun b hb => ?_⟩
    rcases List.mem_append.1 hb with hb | hb
    · exact hdigit (hdigits b (List.mem_append_left _ hb))
    · rcases List.mem_cons.1 hb with rfl | hb
      · exact hletter.2
      · exact hdigit (hdigits b (List.mem_append_right _ hb))
  | @hex x digits hx hne hdigits =>
    have hletter : x.isDigit = false ∧ Sql.isNameChar x = true := by
      rcases hx with rfl | rfl <;> decide
    refine ⟨⟨'0', rfl, rfl⟩, ⟨x, by simp, hletter.1⟩, fun b hb => ?_⟩
    rcases List.mem_cons.1 hb with rfl | hb
    · decide
    · rcases List.mem_cons.1 hb with rfl | hb
      · exact hletter.2
      · exact isNameChar_of_isHexDigit (hdigits b hb)

lemma not_sameName_of_reserved {w n : String} (hw : w ∈ Sql.reserved)
    (hn : ∃ d ∈ n.toList.head?, d.isDigit = true) : Text.sameName w n = false := by
  have hreserved : Sql.reserved.all (fun w => w.toList.head?.any (! ·.isDigit)) = true := by
    decide +kernel
  obtain ⟨d, hd, hdigit⟩ := hn
  have hletter := List.all_eq_true.1 hreserved w hw
  rw [Bool.eq_false_iff, ne_eq, Text.sameName_iff]
  intro hsame
  have hheads := congrArg (fun s : String => s.toList.head?.any Char.isDigit) hsame
  simp only [Text.lower, String.toList_ofList, List.head?_map, Option.any_map,
    isDigit_toLower, Option.mem_def.1 hd, Option.any_some, hdigit] at hheads
  rcases hhead : w.toList.head? with _ | c
  · rw [hhead] at hheads
    cases hheads
  · rw [hhead] at hheads hletter
    simp_all

lemma isBareName_of_isNumeral {n : String} (h : IsNumeral n.toList) : Sql.isBareName n = true := by
  obtain ⟨hhead, ⟨c, hc, hletter⟩, hchars⟩ := h.shape
  have hne : n.toList.isEmpty = false := List.isEmpty_eq_false_iff.2 (List.ne_nil_of_mem hc)
  have hdigits : n.toList.all Char.isDigit = false :=
    List.all_eq_false.2 ⟨c, hc, by simp [hletter]⟩
  have hreserved : (Sql.reserved.any fun w => Text.sameName w n) = false :=
    List.any_eq_false.2 fun w hw => by simp [not_sameName_of_reserved hw hhead]
  simp only [Sql.isBareName, hne, hdigits, hreserved, List.all_eq_true.2 hchars]
  rfl

lemma bareNameIsWord_of_not_isNumeral {n : String} (h : ¬ IsNumeral n.toList) :
    BareNameIsWord n := fun _ =>
  ⟨Bool.eq_false_iff.2 (mt isNumeral_of_isHexLiteral h),
    Bool.eq_false_iff.2 (mt isNumeral_of_isScientific h)⟩

/-! ### The token of a name -/

lemma lexes_numeral {n : String} (h : IsNumeral n.toList) :
    ∃ l, Lexes n.toList l [] ∧ (l = .number n ∨ l = .literal n) := by
  obtain ⟨⟨d, hd, hdigit⟩, ⟨c, hc, hletter⟩, hchars⟩ := h.shape
  obtain ⟨rest, hn⟩ := List.head?_eq_some_iff.1 hd
  have hwords : ∀ c ∈ n.toList, isWordChar c = true :=
    fun c hc => isWordChar_of_isNameChar (hchars c hc)
  have hdigits : allDigits n.toList = false := List.all_eq_false.2 ⟨c, hc, by simp [hletter]⟩
  have hread : readWord (n.toList ++ []) = _ := readWord_of_not_digits hwords (by simp) hdigits
  rw [List.append_nil, String.ofList_toList] at hread
  have hopens : opensLiteral d = false := by
    rw [Bool.eq_false_iff]
    intro hopens
    rcases opensLiteral_cases hopens with rfl | rfl | rfl | rfl <;> cases hdigit
  have hword : isWordChar d = true := isWordChar_of_isDigit hdigit
  have hlexes : Lexes n.toList (readWord n.toList).1 (readWord n.toList).2 := by
    rw [hn]
    exact .of_starts (startsToken_of_isWordChar hword rest)
      (Reads.word hword (by simp [hopens])).eq_read.symm
  rw [hread] at hlexes
  refine ⟨_, hlexes, ?_⟩
  by_cases hhex : isHexLiteral n.toList = true
  · exact .inr (if_pos hhex)
  · exact .inl (by rw [if_neg hhex, if_pos (h.reads.resolve_left hhex)])

/-- **A written name is one token**, and it is the name again exactly if the name does not look like a
number with an exponent or like a hex literal; if it does, it is read as that. -/
theorem name_readsBack_iff (n : String) :
    ∃ l, (tokens (Sql.name n)).map (·.lexeme) = [l, .ending] ∧
      (l = .word n ∨ l = .quotedName n ↔ ¬ IsNumeral n.toList) ∧
      (l = .number n ∨ l = .literal n ↔ IsNumeral n.toList) := by
  have hone {l : Lexeme} (h : Lexes (Sql.name n).toList l []) :
      (tokens (Sql.name n)).map (·.lexeme) = [l, .ending] := by
    rw [tokens, map_lexeme_eq, h.lexemes_eq, lexemes_of_nil (by rw [dropGap])]
    rfl
  by_cases hn : IsNumeral n.toList
  · obtain ⟨l, hlexes, hl⟩ := lexes_numeral hn
    refine ⟨l, hone ?_, ?_, ?_⟩
    · rwa [Sql.name, if_pos (isBareName_of_isNumeral hn)]
    · rcases hl with rfl | rfl <;> simp [hn]
    · exact iff_of_true hl hn
  · have hlexes : Lexes ((Sql.name n).toList ++ []) (nameLexeme n) [] :=
      lexes_name (bareNameIsWord_of_not_isNumeral hn) (by simp)
    rw [List.append_nil] at hlexes
    refine ⟨_, hone hlexes, ?_, ?_⟩
    · refine iff_of_true ?_ hn
      unfold nameLexeme
      split <;> simp
    · refine iff_of_false ?_ hn
      unfold nameLexeme
      split <;> simp

/-- The name `1e5` is read as a number. -/
theorem not_name_readsBack_exponent : ¬ ∀ n : String, ∃ l,
    (tokens (Sql.name n)).map (·.lexeme) = [l, .ending] ∧ (l = .word n ∨ l = .quotedName n) := by
  intro h
  obtain ⟨l, hl, hname⟩ := h "1e5"
  have hnumber : (tokens (Sql.name "1e5")).map (·.lexeme) = [.number "1e5", .ending] := by
    decide +kernel
  rw [hnumber] at hl
  obtain rfl := (List.cons.inj hl).1
  simp at hname

end SchemaDrift
