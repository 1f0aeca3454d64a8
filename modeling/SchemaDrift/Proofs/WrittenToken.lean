import Mathlib
import SchemaDrift.Sql
import SchemaDrift.Proofs.TokenRead

/-!
Names, strings and numbers as they are written are single tokens again, before every text that does
not go on with them.
-/

namespace SchemaDrift

open Text (isBlank)

/-! ### What follows -/

/-- No token goes on with the text. -/
def Neutral (rest : List Char) : Prop := ∀ c ∈ rest.head?, isNeutral c = true

lemma neutral_of_isBlank {c : Char} (h : isBlank c = true) (rest : List Char) :
    Neutral (c :: rest) := by
  rintro d ⟨⟩
  exact isNeutral_of_isBlank h

lemma neutral_space (rest : List Char) : Neutral (' ' :: rest) :=
  neutral_of_isBlank (by decide) rest

lemma neutral_nil : Neutral [] := by
  simp [Neutral]

lemma neutral_cons {c : Char} (h : c ∈ ['(', ')', ',', '=']) (rest : List Char) :
    Neutral (c :: rest) := by
  rintro d ⟨⟩
  simp only [List.mem_cons, List.not_mem_nil, or_false] at h
  rcases h with rfl | rfl | rfl | rfl <;> simp [isNeutral, isWordChar_eq_false]

lemma Neutral.not_word {rest : List Char} (h : Neutral rest) :
    ∀ c ∈ rest.head?, isWordChar c = false ∧ c ≠ '\x27' := by
  intro c hc
  have hneutral := h c hc
  simp only [isNeutral, Bool.not_eq_true', Bool.or_eq_false_iff] at hneutral
  refine ⟨hneutral.1, ?_⟩
  rintro rfl
  simp at hneutral

lemma Neutral.not_quote {rest : List Char} (h : Neutral rest) : rest.head? ≠ some '\x27' :=
  fun hc => (h.not_word _ hc).2 rfl

/-! ### The first token -/

/-- The first token of the text is `l`, and `rest` follows it. -/
def Lexes (cs : List Char) (l : Lexeme) (rest : List Char) : Prop :=
  ∃ c more, dropGap .blanks cs = c :: more ∧ Lexeme.read c more = (l, rest)

/-- What the first token of the text is. -/
def firstLexeme (cs : List Char) : Lexeme := (lexemes cs).headD .ending

namespace Lexes

variable {cs rest : List Char} {l : Lexeme}

lemma lexemes_eq (h : Lexes cs l rest) : lexemes cs = l :: lexemes rest := by
  obtain ⟨c, more, hdrop, hread⟩ := h
  rw [lexemes_of_cons hdrop, hread]

lemma first (h : Lexes cs l rest) : firstLexeme cs = l := by
  rw [firstLexeme, h.lexemes_eq]
  rfl

lemma blank {c : Char} (hc : isBlank c = true) (h : Lexes cs l rest) : Lexes (c :: cs) l rest := by
  obtain ⟨d, more, hdrop, hread⟩ := h
  exact ⟨d, more, by rw [dropGap_of_isBlank hc, hdrop], hread⟩

lemma space (h : Lexes cs l rest) : Lexes (' ' :: cs) l rest := h.blank (by decide)

lemma blanks {b : List Char} (hb : ∀ c ∈ b, isBlank c = true) (h : Lexes cs l rest) :
    Lexes (b ++ cs) l rest := by
  obtain ⟨d, more, hdrop, hread⟩ := h
  exact ⟨d, more, by rw [dropGap_blanks_append hb, hdrop], hread⟩

lemma of_starts {c : Char} {more : List Char} (hstarts : StartsToken c more)
    (hread : Lexeme.read c more = (l, rest)) : Lexes (c :: more) l rest :=
  ⟨c, more, hstarts.dropGap, hread⟩

end Lexes

lemma firstLexeme_nil : firstLexeme [] = .ending := by
  rw [firstLexeme, lexemes_of_nil (by rw [dropGap])]
  rfl

lemma Lexes.punctuation {c : Char} {l : Lexeme} (h : Lexeme.ofPunctuation? c = some l)
    (rest : List Char) : Lexes (c :: rest) l rest := by
  have hmem := mem_of_ofPunctuation? h
  have hc : c ∉ ['#', '-', '/'] ∧ isBlank c = false := by
    simp only [List.mem_cons, Prod.mk.injEq, List.not_mem_nil, or_false] at hmem
    rcases hmem with ⟨rfl, -⟩ | ⟨rfl, -⟩ | ⟨rfl, -⟩ | ⟨rfl, -⟩ | ⟨rfl, -⟩ | ⟨rfl, -⟩ | ⟨rfl, -⟩ |
      ⟨rfl, -⟩ <;> decide
  exact .of_starts (startsToken_of_notMem hc.2 hc.1 rest) (Reads.punctuation h).eq_read.symm

/-! ### Words -/

/-- The characters are a word by themselves, neither a number nor a literal. -/
structure SpellsWord (w : List Char) : Prop where
  chars : ∀ c ∈ w, isWordChar c = true
  digits : allDigits w = false
  hex : isHexLiteral w = false
  scientific : isScientific w = false

lemma SpellsWord.lexes {w : List Char} (h : SpellsWord w) {rest : List Char}
    (hrest : ∀ c ∈ rest.head?, isWordChar c = false ∧ c ≠ '\x27') :
    Lexes (w ++ rest) (.word (String.ofList w)) rest := by
  rcases w with _ | ⟨c, w⟩
  · cases h.digits
  · have hc := h.chars c List.mem_cons_self
    have hquote : (w ++ rest).head? ≠ some '\x27' := by
      rcases w with _ | ⟨d, w⟩
      · exact fun hd => (hrest _ hd).2 rfl
      · have hd := h.chars d (by simp)
        rintro ⟨⟩
        simp [isWordChar_eq_false '\x27' (by decide)] at hd
    have hread := readWord_of_not_digits h.chars (fun c hc => (hrest c hc).1) h.digits
    rw [List.cons_append, h.hex, h.scientific] at hread
    exact .of_starts (startsToken_of_isWordChar hc _)
      ((Reads.word hc fun _ => hquote).eq_read.symm.trans hread)

lemma isScientific_of_not_digit {c : Char} (hc : c.isDigit = false) (cs : List Char) :
    isScientific (c :: cs) = false := by
  have hlower : c.toLower.isDigit = false := by grind [Char.toLower, Char.isDigit]
  unfold isScientific
  rw [List.map_cons, Text.cutFirst]
  by_cases he : c.toLower = 'e'
  · rw [he, List.dropWhile_cons_of_neg (by decide), List.takeWhile_cons_of_neg (by decide)]
    rfl
  · rw [List.dropWhile_cons_of_pos (by simpa using he),
      List.takeWhile_cons_of_pos (by simpa using he)]
    rcases (cs.map Char.toLower).dropWhile (· != 'e') with _ | ⟨d, exponent⟩
    · rfl
    · simp [allDigits, hlower]

/-- Whether a text is a name character after another, the first of which is no digit. -/
def isPlainWord (w : String) : Bool :=
  w.toList.head?.any (!·.isDigit) && w.toList.all Sql.isNameChar

lemma isWordChar_of_isNameChar {c : Char} (h : Sql.isNameChar c = true) : isWordChar c = true := by
  simp only [Sql.isNameChar, Bool.or_eq_true, decide_eq_true_eq] at h
  rcases h with (h | rfl) | rfl
  · exact isWordChar_of_isAlphanum h
  · simp [isWordChar]
  · simp [isWordChar]

lemma spellsWord_of_isPlainWord {w : String} (h : isPlainWord w = true) : SpellsWord w.toList := by
  rw [isPlainWord, Bool.and_eq_true] at h
  obtain ⟨hhead, hall⟩ := h
  rcases hw : w.toList with _ | ⟨c, cs⟩
  · rw [hw] at hhead
    cases hhead
  · rw [hw] at hhead hall
    have hc : c.isDigit = false := by simpa using hhead
    refine ⟨fun d hd => isWordChar_of_isNameChar (List.all_eq_true.1 hall d hd), ?_, ?_, ?_⟩
    · simp [allDigits, hc]
    · unfold isHexLiteral
      split
      · rename_i hzero
        obtain rfl := (List.cons.inj hzero).1
        cases hc
      · rfl
    · exact isScientific_of_not_digit hc cs

lemma Lexes.word {w : String} (h : isPlainWord w = true) {rest : List Char} (hrest : Neutral rest) :
    Lexes (w.toList ++ rest) (.word w) rest := by
  have hlexes := (spellsWord_of_isPlainWord h).lexes hrest.not_word
  rwa [String.ofList_toList] at hlexes

/-! ### Names -/

/-- A name that stands bare is spelled like neither a number nor a literal. -/
def BareNameIsWord (n : String) : Prop :=
  Sql.isBareName n = true → isHexLiteral n.toList = false ∧ isScientific n.toList = false

lemma spells_doubled (cs : List Char) : Spells '\x60' false (Text.doubled '\x60' cs) cs := by
  refine .flatMap (fun c w v h => ?_) cs
  by_cases hc : c = '\x60'
  · rw [if_pos hc, hc]
    exact .twice h
  · rw [if_neg hc]
    exact .plain hc (by simp) h

def nameLexeme (n : String) : Lexeme := if Sql.isBareName n then .word n else .quotedName n

lemma lexes_name {n : String} (h : BareNameIsWord n) {rest : List Char}
    (hrest : ∀ c ∈ rest.head?, isNeutral c = true ∨ c = '.') :
    Lexes ((Sql.name n).toList ++ rest) (nameLexeme n) rest := by
  by_cases hbare : Sql.isBareName n = true
  · rw [Sql.name, nameLexeme, if_pos hbare, if_pos hbare]
    obtain ⟨hhex, hscientific⟩ := h hbare
    simp only [Sql.isBareName, Bool.and_eq_true, Bool.not_eq_true'] at hbare
    obtain ⟨⟨⟨-, hall⟩, hdigits⟩, -⟩ := hbare
    have hword : SpellsWord n.toList :=
      ⟨fun c hc => isWordChar_of_isNameChar (List.all_eq_true.1 hall c hc), hdigits, hhex,
        hscientific⟩
    have hend : ∀ c ∈ rest.head?, isWordChar c = false ∧ c ≠ '\x27' := fun c hc => by
      rcases hrest c hc with hneutral | rfl
      · simp only [isNeutral, Bool.not_eq_true', Bool.or_eq_false_iff] at hneutral
        refine ⟨hneutral.1, ?_⟩
        rintro rfl
        simp at hneutral
      · exact ⟨isWordChar_eq_false '.' (by decide), by decide⟩
    have hlexes := hword.lexes hend
    rwa [String.ofList_toList] at hlexes
  · rw [Sql.name, nameLexeme, if_neg hbare, if_neg hbare]
    have hquote : rest.head? ≠ some '\x60' := fun hc => by
      rcases hrest _ hc with hneutral | hdot
      · simp [isNeutral] at hneutral
      · exact absurd hdot (by decide)
    have hread := (Reads.name rfl ((spells_doubled n.toList).reads_name hquote)).eq_read
    have htext : ("`" ++ String.ofList (Text.doubled '\x60' n.toList) ++ "`").toList ++ rest =
        '\x60' :: (Text.doubled '\x60' n.toList ++ '\x60' :: rest) := by simp
    rw [htext]
    rw [String.ofList_toList] at hread
    exact .of_starts (startsToken_of_notMem (by decide) (by decide) _) hread.symm

/-! ### Strings -/

lemma escapedControl?_cases (c : Char) : Sql.escapedControl? c = none ∧ c ≠ '\\' ∨
    ∃ d, Sql.escapedControl? c = some ['\\', d] ∧ unescaped d = [c] := by
  unfold Sql.escapedControl?
  split_ifs with hslash hzero hfeed hreturn hend
  · exact .inr ⟨_, rfl, by rw [hslash]; decide⟩
  · exact .inr ⟨_, rfl, by rw [hzero]; decide⟩
  · exact .inr ⟨_, rfl, by rw [hfeed]; decide⟩
  · exact .inr ⟨_, rfl, by rw [hreturn]; decide⟩
  · exact .inr ⟨_, rfl, by rw [hend]; decide⟩
  · exact .inl ⟨rfl, hslash⟩

/-- There are two ways to write a string, which differ in what stands before a quote. -/
lemma spells_escaped {before : Char} (hquote : ∀ w v, Spells '\x27' true w v →
    Spells '\x27' true (before :: '\x27' :: w) ('\x27' :: v)) (cs : List Char) :
    Spells '\x27' true (cs.flatMap fun c =>
      if c = '\x27' then [before, '\x27'] else (Sql.escapedControl? c).getD [c]) cs := by
  refine .flatMap (fun c w v h => ?_) cs
  by_cases hc : c = '\x27'
  · rw [if_pos hc, hc]
    exact hquote w v h
  · rw [if_neg hc]
    obtain ⟨hcontrol, hslash⟩ | ⟨d, hcontrol, hd⟩ := escapedControl?_cases c
    · rw [hcontrol]
      exact .plain hc (fun _ => hslash) h
    · have hescaped := Spells.escaped d rfl h
      rw [hd] at hescaped
      rw [hcontrol]
      exact hescaped

lemma spells_string (s : String) :
    ∃ w, (Sql.string s).toList = '\x27' :: (w ++ ['\x27']) ∧ Spells '\x27' true w s.toList :=
  ⟨_, by simp [Sql.string], spells_escaped (fun _ _ => .twice) s.toList⟩

lemma spells_escape (s : String) : Spells '\x27' true (Sql.escape s).toList s.toList := by
  rw [Sql.escape, String.toList_ofList]
  exact spells_escaped (fun _ _ => .escaped '\x27' rfl) s.toList

lemma lexes_string (s : String) {rest : List Char} (hrest : rest.head? ≠ some '\x27') :
    Lexes ((Sql.string s).toList ++ rest) (.string s) rest := by
  obtain ⟨w, hw, hspells⟩ := spells_string s
  have hread := (Reads.string (.inl rfl) (hspells.reads (by decide) hrest)).eq_read
  rw [String.ofList_toList] at hread
  have htext : (Sql.string s).toList ++ rest = '\x27' :: (w ++ '\x27' :: rest) := by simp [hw]
  rw [htext]
  exact .of_starts (startsToken_of_notMem (by decide) (by decide) _) hread.symm

/-! ### Numbers -/

lemma isDigit_of_mem_decimal {n : Nat} : ∀ c ∈ (Text.decimal n).toList, c.isDigit = true := by
  intro c hc
  rw [Text.decimal, String.toList_ofList] at hc
  exact Nat.isDigit_of_mem_toDigits (by decide) (by decide) hc

lemma decimal_ne_nil (n : Nat) : (Text.decimal n).toList ≠ [] := by
  rw [Text.decimal, String.toList_ofList]
  exact Nat.toDigits_ne_nil

lemma lexes_decimal (n : Nat) {rest : List Char}
    (hrest : Neutral rest) :
    Lexes ((Text.decimal n).toList ++ rest) (.number (Text.decimal n)) rest := by
  have hdigits := isDigit_of_mem_decimal (n := n)
  have hword : ∀ c ∈ (Text.decimal n).toList, isWordChar c = true :=
    fun c hc => isWordChar_of_isDigit (hdigits c hc)
  have hend : ∀ c ∈ rest.head?, isWordChar c = false := fun c hc => (hrest.not_word c hc).1
  have hwhole : ∀ d more, rest = '.' :: d :: more → d.isDigit = false := by
    rintro d more rfl
    exact absurd (hrest '.' rfl) (by simp [isNeutral])
  have hread := readWord_digits hword hend (List.all_eq_true.2 hdigits) hwhole
  rw [String.ofList_toList] at hread
  rcases hn : (Text.decimal n).toList with _ | ⟨c, cs⟩
  · exact absurd hn (decimal_ne_nil n)
  · rw [hn] at hdigits hread
    have hc := hdigits c List.mem_cons_self
    have hopens : opensLiteral c = false := by
      by_contra hopens
      rcases opensLiteral_cases (by simpa using hopens) with rfl | rfl | rfl | rfl <;> cases hc
    exact .of_starts (startsToken_of_isWordChar (isWordChar_of_isDigit hc) _)
      ((Reads.word (isWordChar_of_isDigit hc) (by simp [hopens])).eq_read.symm.trans hread)

lemma readNat_decimal {n : Nat} (h : n ≤ Text.max32) :
    Text.readNat Text.max32 (Text.decimal n).toList = some n := by
  have hvalue : Nat.ofDigitChars 10 (Text.decimal n).toList 0 = n := by
    rw [Text.decimal, String.toList_ofList, Nat.ofDigitChars_ten_toDigits]
  have hdigits : (Text.decimal n).toList.all Char.isDigit = true :=
    List.all_eq_true.2 isDigit_of_mem_decimal
  have hempty : (Text.decimal n).toList.isEmpty = false := by
    simpa using decimal_ne_nil n
  simp [Text.readNat, hvalue, hdigits, hempty, h]

/-! ### Values -/

/-- The lexeme is a word, number or literal of the text. -/
def Lexeme.IsValue (l : Lexeme) (v : String) : Prop := l = .word v ∨ l = .number v ∨ l = .literal v

lemma read_value {c : Char} {more rest : List Char} {l : Lexeme} {v : String}
    (h : Lexeme.read c more = (l, rest)) (hl : l.IsValue v) :
    isWordChar c = true ∧ c :: more = v.toList ++ rest := by
  have hreads := reads_read c more
  rw [h] at hreads
  generalize hr : (l, rest) = r at hreads
  cases hreads with
  | literal hc hinner hmore =>
    obtain ⟨rfl, rfl⟩ := Prod.mk.inj hr
    obtain ⟨⟨⟩⟩ | ⟨⟨⟩⟩ | hl := hl
    rw [← Lexeme.literal.inj hl, hmore]
    exact ⟨isWordChar_of_opensLiteral hc, by simp⟩
  | word hc hmore =>
    obtain ⟨w, hw, hword⟩ := readWord_cases (c :: more)
    rw [← hr] at hw hword
    refine ⟨hc, ?_⟩
    have hv : v = String.ofList w := by
      rcases hl with rfl | rfl | rfl <;> simpa using hword
    rw [hv, String.toList_ofList]
    exact hw
  | punctuation hc =>
    obtain rfl := (Prod.mk.inj hr).1
    have hmem := mem_of_ofPunctuation? hc
    rcases hl with rfl | rfl | rfl <;> simp at hmem
  | name hc hname | openName hc hname | string hc hstring | openString hc hstring
  | openLiteral hc hinner hmore | other hpunctuation hc hquote =>
    obtain rfl := (Prod.mk.inj hr).1
    rcases hl with hl | hl | hl <;> cases hl

lemma lexes_of_read {c : Char} {more rest : List Char} {l : Lexeme} {v : String}
    (h : Lexeme.read c more = (l, rest)) (hl : l.IsValue v) {rest' : List Char}
    (hrest : Neutral rest') : Lexes (v.toList ++ rest') l rest' := by
  obtain ⟨hc, hv⟩ := read_value h hl
  have hformed : ∀ reason, l ≠ .malformed reason := by
    rintro reason rfl
    rcases hl with hl | hl | hl <;> cases hl
  obtain ⟨w, rfl, hw⟩ := read_local h hformed
  rw [← List.cons_append, List.append_left_inj] at hv
  rw [← hv]
  exact .of_starts (startsToken_of_isWordChar hc _) (hw rest' (.of_neutral hrest))

def IsValue (v : String) : Prop := ∃ l, lexemes v.toList = [l] ∧ l.IsValue v

lemma isValue_iff {v : String} : IsValue v ↔
    ∃ l ∈ [Lexeme.word v, .number v, .literal v], lexemes v.toList = [l] := by
  simp [IsValue, Lexeme.IsValue, and_or_left, exists_or]

instance (v : String) : Decidable (IsValue v) := decidable_of_iff _ isValue_iff.symm

lemma IsValue.lexes {v : String} (h : IsValue v) {rest : List Char}
    (hrest : Neutral rest) :
    ∃ l, Lexes (v.toList ++ rest) l rest ∧ l.IsValue v := by
  obtain ⟨l, hlexemes, hl⟩ := h
  rcases hdrop : dropGap .blanks v.toList with _ | ⟨c, more⟩
  · rw [lexemes_of_nil hdrop] at hlexemes
    cases hlexemes
  · rw [lexemes_of_cons hdrop] at hlexemes
    obtain rfl := (List.cons.inj hlexemes).1
    exact ⟨_, lexes_of_read rfl hl hrest, hl⟩

end SchemaDrift
