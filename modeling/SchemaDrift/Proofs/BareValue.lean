import Mathlib
import SchemaDrift.Proofs.CharsetName
import SchemaDrift.Proofs.QuotedText
import SchemaDrift.Proofs.WrittenOption

/-!
Option values that are written bare. What is read in the place of such a value is the value again only
if it is one word, number or literal: nothing else spells itself. A value that begins with a comment is
left out, for its first token may stand anywhere.
-/

namespace SchemaDrift

open Text (isBlank)
open Grammar (storedValue)

/-! ### The token in the place of a value -/

/-- The token is a word, number, literal, string or quoted name of the text. -/
def Lexeme.Carries (l : Lexeme) (p : String) : Prop := l.IsValue p ∨ l = .string p ∨ l = .quotedName p

lemma isWordChar_of_isAlpha {c : Char} (h : c.isAlpha = true) : isWordChar c = true :=
  isWordChar_of_isAlphanum (by simp [Char.isAlphanum, h])

lemma Folds.isWordChar {f : Char → Char} (hf : Folds f) {c : Char} (h : isWordChar c = true) :
    isWordChar (f c) = true := by
  by_cases hc : c.isAlpha = true
  · exact isWordChar_of_isAlpha (by rw [hf.isAlpha, hc])
  · rwa [hf.fixes c (by simpa using hc)]

lemma isAlpha_of_isBlank {c : Char} (h : isBlank c = true) : c.isAlpha = false := by
  have hneutral := isNeutral_of_isBlank h
  by_contra hc
  have hword := isWordChar_of_isAlpha (by simpa using hc)
  simp [isNeutral, hword] at hneutral

lemma spells_of_read {c : Char} {more rest : List Char} {l : Lexeme} {p : String}
    (h : Lexeme.read c more = (l, rest)) (hl : l = .string p ∨ l = .quotedName p) :
    c ∈ quotationMarks ∧ ∃ escapes w, Spells c escapes w p.toList ∧ more = w ++ c :: rest := by
  have hreads := reads_read c more
  rw [h] at hreads
  generalize hr : (l, rest) = r at hreads
  cases hreads with
  | name hc hname =>
    obtain ⟨rfl, rfl⟩ := Prod.mk.inj hr
    obtain ⟨⟨⟩⟩ | hl := hl
    obtain ⟨w, hw, hmore, -⟩ := spells_of_readQuotedName hname
    rw [← Lexeme.quotedName.inj hl, String.toList_ofList, hc]
    exact ⟨by decide, false, w, hw, hmore⟩
  | string hc hstring =>
    obtain ⟨rfl, rfl⟩ := Prod.mk.inj hr
    obtain hl | ⟨⟨⟩⟩ := hl
    obtain ⟨w, hw, hmore, -⟩ := spells_of_readString hstring
    rw [← Lexeme.string.inj hl, String.toList_ofList]
    refine ⟨?_, true, w, hw, hmore⟩
    rcases hc with rfl | rfl <;> decide
  | punctuation hc =>
    obtain rfl := (Prod.mk.inj hr).1
    have hmem := mem_of_ofPunctuation? hc
    rcases hl with rfl | rfl <;> simp at hmem
  | word hc hmore =>
    have hfst := congrArg Prod.fst hr
    obtain ⟨w, -, hword | hword | hword⟩ := readWord_cases (c :: more) <;>
      rcases hl with rfl | rfl <;> simp [hword] at hfst
  | openName | openString | literal | openLiteral | other =>
    obtain rfl := (Prod.mk.inj hr).1
    rcases hl with hl | hl <;> cases hl

/-! ### What begins a value -/

/-- No comment stands before the first character that is not blank. -/
def BeginsPlainly (v : String) : Prop := dropGap .blanks v.toList = v.toList.dropWhile isBlank

lemma StartsToken.append {c : Char} {more behind : List Char} (h : StartsToken c more)
    (hbehind : ∀ d ∈ behind.head?, d ≠ '-' ∧ d ≠ '*') : StartsToken c (more ++ behind) := by
  refine ⟨h.blank, h.hash, fun hc rest hrest => ?_, fun hc hhead => ?_⟩
  · rcases more with _ | ⟨d, more⟩
    · rw [List.nil_append] at hrest
      exact absurd rfl (hbehind '-' (by rw [hrest]; rfl)).1
    · obtain ⟨rfl, rfl⟩ := List.cons.inj hrest
      have hopens := h.dashes hc more rfl
      rcases more with _ | ⟨e, more⟩
      · cases hopens
      · exact hopens
  · rcases more with _ | ⟨d, more⟩
    · exact (hbehind '*' hhead).2 rfl
    · exact h.slash hc hhead

lemma dropGap_append {v : String} (h : BeginsPlainly v) {behind : List Char}
    (hbehind : ∀ d ∈ behind.head?, d ≠ '-' ∧ d ≠ '*') :
    ∃ b u, v.toList = b ++ u ∧ (∀ c ∈ b, isBlank c = true) ∧
      dropGap .blanks (v.toList ++ behind) =
        if u = [] then dropGap .blanks behind else u ++ behind := by
  obtain ⟨b, u, hv, hb, hu⟩ : ∃ b u, v.toList = b ++ u ∧ (∀ c ∈ b, isBlank c = true) ∧
      dropGap .blanks v.toList = u :=
    ⟨_, _, (List.takeWhile_append_dropWhile (p := isBlank)).symm,
      fun c hc => List.mem_takeWhile_imp hc, h⟩
  refine ⟨b, u, hv, hb, ?_⟩
  rw [hv, List.append_assoc, dropGap_blanks_append hb]
  rcases u with _ | ⟨d, u⟩
  · rfl
  · exact ((startsToken_of_dropGap hu).append hbehind).dropGap

/-! ### Values that come back -/

/-- A value is stored with its letters in lower case or as it is, but for the old names of a character
set and its collations. -/
lemma storedValue_cases (o : TableOption) (p : String) :
    (∃ f, Folds f ∧ (storedValue o p).toList = p.toList.map f) ∨ storedValue o p = "utf8mb3" ∨
      ∃ s, (storedValue o p).toList = "utf8mb3_".toList ++ s ∧
        p.toList.map Char.toLower = "utf8_".toList ++ s := by
  have hlower : (Text.lower p).toList = p.toList.map Char.toLower := by simp [Text.lower]
  unfold storedValue
  split_ifs
  · simp only [Charset.canonical]
    split_ifs
    · exact .inr (.inl rfl)
    · exact .inl ⟨_, folds_toLower, hlower⟩
  · simp only [Charset.canonicalCollation]
    split
    · rename_i s hstart
      have happend := Text.eq_append_of_afterStart? hstart
      rw [hlower] at happend
      exact .inr (.inr ⟨s, by simp, happend⟩)
    · exact .inl ⟨_, folds_toLower, hlower⟩
  · exact .inl ⟨_, folds_id, by rw [List.map_id]⟩

section

variable {v p : String} {behind rest : List Char} {l : Lexeme}

lemma isValue_of_lexes {f : Char → Char} (hf : Folds f) (h : Lexes (v.toList ++ behind) l rest)
    (hl : l.IsValue p) (hv : v.toList = p.toList.map f) : IsValue v := by
  obtain ⟨c, more, hdrop, hread⟩ := h
  obtain ⟨hc, hp⟩ := read_value hread hl
  have hformed : ∀ reason, l ≠ .malformed reason := by
    rintro reason rfl
    rcases hl with hl | hl | hl <;> cases hl
  obtain ⟨w, rfl, -⟩ := read_local hread hformed
  rw [← List.cons_append, List.append_left_inj] at hp
  rw [← hp] at hv
  rw [hv, List.map_cons, List.cons_append,
    (startsToken_of_isWordChar (hf.isWordChar hc) _).dropGap] at hdrop
  -- Both stand at the start of one text, and they have one length.
  have hsame : v.toList = c :: w := by
    have htext : v.toList ++ behind = (c :: w) ++ rest := by
      rw [hv]
      exact hdrop
    exact List.append_inj_left htext (by rw [hv, List.length_map])
  obtain rfl : v = p := String.toList_inj.1 (hsame.trans hp)
  have hlexes := lexes_of_read hread hl neutral_nil
  rw [List.append_nil] at hlexes
  refine ⟨l, ?_, hl⟩
  rw [hlexes.lexemes_eq, lexemes_of_nil (by rw [dropGap])]

lemma not_lexes_quoted {f : Char → Char} (hf : Folds f) (hplain : BeginsPlainly v)
    (hbehind : StartsSpaced behind) (hl : l = .string p ∨ l = .quotedName p)
    (hv : v.toList = p.toList.map f) :
    ¬ Lexes (v.toList ++ behind) l rest := by
  rintro ⟨q, more, hdrop, hread⟩
  obtain ⟨hq, escapes, w, hspells, rfl⟩ := spells_of_read hread hl
  have hmarks : ∀ c ∈ quotationMarks, c.isAlpha = false := by simp [quotationMarks]
  have hhead : ∀ d ∈ behind.head?, d ≠ '-' ∧ d ≠ '*' := by
    obtain rfl | ⟨n, more, rfl, -⟩ := hbehind
    · simp
    · rintro _ ⟨⟩
      decide
  obtain ⟨b, u, hbu, hb, hgap⟩ := dropGap_append hplain hhead
  rw [hgap] at hdrop
  split_ifs at hdrop with hu
  · -- A letter stands behind the blanks.
    obtain rfl | ⟨n, more, rfl, hn⟩ := hbehind
    · rw [dropGap] at hdrop
      cases hdrop
    · have hletter := isWordChar_of_isAlpha hn
      rw [dropGap_of_isBlank (by decide), (startsToken_of_isWordChar hletter _).dropGap] at hdrop
      rw [(List.cons.inj hdrop).1, hmarks q hq] at hn
      cases hn
  · obtain ⟨d, u, rfl⟩ := List.exists_cons_of_ne_nil hu
    obtain ⟨rfl, htext⟩ := List.cons.inj hdrop
    have hclosed : SpacesClosed (b ++ [d]) := by
      intro e he
      have hmem : e ∈ b ++ [d] := he.mem (by simp)
      rcases List.mem_append.1 hmem with he | he
      · exact isAlpha_of_isBlank (hb e he)
      · rw [List.mem_singleton.1 he, hmarks d hq]
    exact not_spells_itself hq hf hbehind hclosed hspells (hv.symm.trans hbu) htext.symm

theorem isValue_of_storedValue {o : TableOption} (hplain : BeginsPlainly v)
    (hbehind : StartsSpaced behind) (hl : l.Carries p) (h : Lexes (v.toList ++ behind) l rest)
    (hv : storedValue o p = v) : IsValue v := by
  obtain ⟨f, hf, hfold⟩ | hname | ⟨s, hs, hp⟩ := storedValue_cases o p
  · rw [hv] at hfold
    rcases hl with hl | hl
    · exact isValue_of_lexes hf h hl hfold
    · exact absurd h (not_lexes_quoted hf hplain hbehind hl hfold)
  · rw [← hv, hname]
    decide +kernel
  · -- The old name is shorter than the new one, and so is not read in its place.
    rw [hv] at hs
    obtain ⟨c, more, hdrop, hread⟩ := h
    have hu : dropGap .blanks (v.toList ++ behind) = v.toList ++ behind := by
      rw [hs]
      exact (startsToken_of_isWordChar (c := 'u') (isWordChar_of_isAlpha (by decide)) _).dropGap
    rw [hu] at hdrop
    rcases hl with hl | hl
    · obtain ⟨-, htext⟩ := read_value hread hl
      have hfifth := congrArg (fun cs => (cs.map Char.toLower)[4]?) (hdrop.trans htext)
      rw [List.map_append, List.map_append, hp, hs] at hfifth
      simp at hfifth
    · obtain ⟨hc, -⟩ := spells_of_read hread hl
      rw [hs] at hdrop
      rw [← (List.cons.inj hdrop).1] at hc
      exact absurd hc (by decide)

end

end SchemaDrift
