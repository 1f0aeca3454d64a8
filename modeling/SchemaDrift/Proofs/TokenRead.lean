import Mathlib
import SchemaDrift.Proofs.Spelling

/-!
Reading one token looks at no more of what follows it than its first character, or its first two
where a fraction could begin. So a token is read alike before every text that starts in the same
way, and before every text that starts with a character no token goes on with.
-/

namespace SchemaDrift

open Text (isBlank isAlphanumeric)

/-! ### What does not go on with a token -/

lemma isWordChar_of_isAlphanum {c : Char} (h : c.isAlphanum = true) : isWordChar c = true := by
  simp [isWordChar, Text.isAlphanumeric_of_isAlphanum h]

lemma isWordChar_of_isDigit {c : Char} (h : c.isDigit = true) : isWordChar c = true :=
  isWordChar_of_isAlphanum (by simp [Char.isAlphanum, h])

lemma isWordChar_eq_false : ∀ c ∈ ['(', ')', ',', '.', '=', '@', ';', '*', '\x60', '\x27', '\x22',
    '#', '-', '/'], isWordChar c = false := by
  simp [isWordChar, isAlphanumeric]

/-- No token goes on with the character. -/
def isNeutral (c : Char) : Bool :=
  !(isWordChar c || ['\x27', '\x22', '\x60', '.', '*', '-'].contains c)

lemma isNeutral_of_isBlank {c : Char} (h : isBlank c = true) : isNeutral c = true := by
  have hmem : c.toNat ∈ List.range' 0x09 5 ++ List.range' 0x2000 11 ++
      [0x20, 0x85, 0xA0, 0x1680, 0x2028, 0x2029, 0x202F, 0x205F, 0x3000] := by
    simp only [isBlank, Bool.or_eq_true, Bool.and_eq_true, beq_iff_eq, decide_eq_true_eq] at h
    simp only [List.mem_append, List.mem_range'_1, List.mem_cons, List.not_mem_nil]
    omega
  have hneutral : ∀ n ∈ List.range' 0x09 5 ++ List.range' 0x2000 11 ++
      [0x20, 0x85, 0xA0, 0x1680, 0x2028, 0x2029, 0x202F, 0x205F, 0x3000],
      isNeutral (Char.ofNat n) = true := by decide +kernel
  simpa using hneutral _ hmem

/-- `rest'` goes on with no token that `rest` does not go on with. -/
structure Continues (rest rest' : List Char) : Prop where
  head : ∀ c ∈ rest'.head?, isNeutral c = true ∨ rest.head? = some c
  fraction : ∀ d more, rest' = '.' :: d :: more → d.isDigit = true →
    ∃ d' more', rest = '.' :: d' :: more' ∧ d'.isDigit = true

namespace Continues

variable {rest rest' : List Char}

lemma of_neutral (h : ∀ c ∈ rest'.head?, isNeutral c = true) : Continues rest rest' := by
  refine ⟨fun c hc => .inl (h c hc), ?_⟩
  rintro d more rfl -
  exact absurd (h '.' rfl) (by simp [isNeutral])

lemma append_left (w : List Char) (h : ∀ c ∈ rest'.head?, isNeutral c = true) :
    Continues (w ++ rest) (w ++ rest') := by
  rcases w with _ | ⟨c, w⟩
  · exact of_neutral h
  · refine ⟨fun d hd => .inr hd, fun d more hmore hd => ?_⟩
    obtain ⟨rfl, hw⟩ := List.cons.inj hmore
    rcases w with _ | ⟨e, w⟩
    · have hneutral := h d (congrArg List.head? hw)
      simp [isNeutral, isWordChar_of_isDigit hd] at hneutral
    · obtain ⟨rfl, -⟩ := List.cons.inj hw
      exact ⟨e, w ++ rest, rfl, hd⟩

lemma head_ne (h : Continues rest rest') {c : Char} (hc : isNeutral c = false)
    (hrest : rest.head? ≠ some c) : rest'.head? ≠ some c := fun hc' =>
  (h.head c hc').elim (fun hn => by simp [hc] at hn) hrest

end Continues

/-! ### Words and numbers -/

lemma span_append {p : Char → Bool} {w rest : List Char} (hw : ∀ c ∈ w, p c = true)
    (hrest : ∀ c ∈ rest.head?, p c = false) :
    (w ++ rest).takeWhile p = w ∧ (w ++ rest).dropWhile p = rest := by
  have hempty : rest.takeWhile p = [] ∧ rest.dropWhile p = rest := by
    cases rest with
    | nil => exact ⟨rfl, rfl⟩
    | cons c more => simp [hrest c rfl]
  rw [List.takeWhile_append_of_pos hw, List.dropWhile_append_of_pos hw, hempty.1, hempty.2,
    List.append_nil]
  exact ⟨rfl, rfl⟩

lemma head?_dropWhile {p : Char → Bool} {cs : List Char} :
    ∀ c ∈ (cs.dropWhile p).head?, p c = false := by
  intro c hc
  simpa [Option.mem_def.1 hc] using List.head?_dropWhile_not p cs

lemma Continues.head_eq_false {rest rest' : List Char} (h : Continues rest rest')
    {p : Char → Bool} (hp : ∀ c, p c = true → isWordChar c = true)
    (hrest : ∀ c ∈ rest.head?, p c = false) : ∀ c ∈ rest'.head?, p c = false := by
  intro c hc
  rcases h.head c hc with hn | hr
  · by_contra hpc
    have hword := hp c (by simpa using hpc)
    simp [isNeutral, hword] at hn
  · exact hrest c hr

section

variable {w rest : List Char} (hw : ∀ c ∈ w, isWordChar c = true)
  (hrest : ∀ c ∈ rest.head?, isWordChar c = false)

include hw hrest in
lemma readWord_digits (hdigits : allDigits w = true)
    (hwhole : ∀ d more, rest = '.' :: d :: more → d.isDigit = false) :
    readWord (w ++ rest) = (.number (String.ofList w), rest) := by
  obtain ⟨htake, hdrop⟩ := span_append hw hrest
  simp only [readWord, htake, hdrop, hdigits, if_true]
  split
  · rw [if_neg (by simp [hwhole _ _ rfl])]
  · rfl

include hw in
lemma readWord_fraction (hdigits : allDigits w = true) {d : Char} {ds : List Char}
    (hd : d.isDigit = true) (hds : ∀ c ∈ ds, c.isDigit = true)
    (hrest : ∀ c ∈ rest.head?, c.isDigit = false) : readWord (w ++ '.' :: d :: ds ++ rest) =
      (.number (String.ofList (w ++ '.' :: d :: ds)), rest) := by
  have hdot : ∀ c ∈ ('.' :: d :: (ds ++ rest)).head?, isWordChar c = false := by
    rintro c ⟨⟩
    exact isWordChar_eq_false '.' (by decide)
  obtain ⟨htake, hdrop⟩ := span_append hw hdot
  obtain ⟨htake', hdrop'⟩ := span_append (w := d :: ds) (by simpa using ⟨hd, hds⟩) hrest
  rw [List.cons_append] at htake' hdrop'
  rw [List.append_assoc, List.cons_append, List.cons_append]
  simp only [readWord, htake, hdrop, hdigits, hd, if_true, htake', hdrop']

include hw hrest in
lemma readWord_of_not_digits (hdigits : allDigits w = false) : readWord (w ++ rest) =
    (if isHexLiteral w then .literal (String.ofList w)
      else if isScientific w then .number (String.ofList w) else .word (String.ofList w), rest) := by
  obtain ⟨htake, hdrop⟩ := span_append hw hrest
  simp only [readWord, htake, hdrop, hdigits, Bool.false_eq_true, if_false]
  split
  · rfl
  · split <;> rfl

end

lemma readWord_local {c : Char} {more rest : List Char} {l : Lexeme} (hc : isWordChar c = true)
    (h : readWord (c :: more) = (l, rest)) : ∃ w, more = w ++ rest ∧
      (∀ d ∈ w, isWordChar d = true ∨ d = '.') ∧
      ∀ rest', Continues rest rest' → readWord (c :: (w ++ rest')) = (l, rest') := by
  obtain ⟨text, tail, rfl, htext, htail⟩ : ∃ text tail, more = text ++ tail ∧
      (∀ d ∈ text, isWordChar d = true) ∧ ∀ d ∈ tail.head?, isWordChar d = false :=
    ⟨_, _, (List.takeWhile_append_dropWhile ..).symm, fun d hd => List.mem_takeWhile_imp hd,
      head?_dropWhile⟩
  have hin : ∀ d ∈ c :: text, isWordChar d = true := by simpa using ⟨hc, htext⟩
  have hnext {rest' : List Char} (h : Continues tail rest') :
      ∀ d ∈ rest'.head?, isWordChar d = false := h.head_eq_false (fun _ hd => hd) htail
  rw [← List.cons_append] at h
  -- Digits alone may go on with a fraction; all other words end at the first other character.
  rcases hdigits : allDigits (c :: text) with _ | _
  · rw [readWord_of_not_digits hin htail hdigits] at h
    obtain ⟨rfl, rfl⟩ := Prod.mk.inj h
    exact ⟨text, rfl, fun d hd => .inl (htext d hd), fun rest' hrest' =>
      readWord_of_not_digits hin (hnext hrest') hdigits⟩
  · by_cases hfraction : ∃ d more, tail = '.' :: d :: more ∧ d.isDigit = true
    · obtain ⟨d, more, rfl, hd⟩ := hfraction
      obtain ⟨ds, after, rfl, hds, hafter⟩ : ∃ ds after, more = ds ++ after ∧
          (∀ e ∈ ds, e.isDigit = true) ∧ ∀ e ∈ after.head?, e.isDigit = false :=
        ⟨_, _, (List.takeWhile_append_dropWhile ..).symm, fun e he => List.mem_takeWhile_imp he,
          head?_dropWhile⟩
      have hwhole := readWord_fraction hin hdigits hd hds hafter
      rw [List.append_assoc] at hwhole
      obtain ⟨rfl, rfl⟩ := Prod.mk.inj (hwhole.symm.trans h)
      refine ⟨text ++ '.' :: d :: ds, by simp, fun e he => ?_, fun rest' hrest' => ?_⟩
      · simp only [List.mem_append, List.mem_cons] at he
        rcases he with he | rfl | rfl | he
        · exact .inl (htext e he)
        · exact .inr rfl
        · exact .inl (isWordChar_of_isDigit hd)
        · exact .inl (isWordChar_of_isDigit (hds e he))
      · exact readWord_fraction hin hdigits hd hds
          (hrest'.head_eq_false (fun _ => isWordChar_of_isDigit) hafter)
    · have hwhole : ∀ d more, tail = '.' :: d :: more → d.isDigit = false := fun d more htail =>
        Bool.eq_false_iff.2 fun hd => hfraction ⟨d, more, htail, hd⟩
      rw [readWord_digits hin htail hdigits hwhole] at h
      obtain ⟨rfl, rfl⟩ := Prod.mk.inj h
      refine ⟨text, rfl, fun d hd => .inl (htext d hd), fun rest' hrest' =>
        readWord_digits hin (hnext hrest') hdigits ?_⟩
      intro d more hr
      rcases hd : d.isDigit with _ | _
      · rfl
      · exact absurd (hrest'.fraction d more hr hd) hfraction

/-! ### All tokens -/

lemma readPrefixed_append {inner : List Char} (h : '\x27' ∉ inner) (c : Char) (rest : List Char) :
    readPrefixed c (inner ++ '\x27' :: rest) =
      (.literal (String.ofList (c :: '\x27' :: inner ++ ['\x27'])), rest) := by
  have hinner : ∀ d ∈ inner, (d != '\x27') = true := by
    intro d hd
    have hne : d ≠ '\x27' := fun he => h (he ▸ hd)
    simpa using hne
  have hquote : ∀ d ∈ ('\x27' :: rest).head?, (d != '\x27') = false := by simp
  obtain ⟨htake, hdrop⟩ := span_append hinner hquote
  simp only [readPrefixed, htake, hdrop]

lemma readPrefixed_open {inner : List Char} (h : '\x27' ∉ inner) (c : Char) :
    readPrefixed c inner = (.malformed .literal, []) := by
  have hdrop : inner.dropWhile (· != '\x27') = [] := by
    rw [List.dropWhile_eq_nil_iff]
    intro d hd
    have hne : d ≠ '\x27' := fun he => h (he ▸ hd)
    simpa using hne
  simp only [readPrefixed, hdrop]

/-- The letters before the quote of a bit or hex literal. -/
def opensLiteral (c : Char) : Bool := c = 'b' || c = 'B' || c = 'x' || c = 'X'

/-- What is read from `c` on, by the kind of token that `c` opens. -/
inductive Reads (c : Char) (more : List Char) : Lexeme × List Char → Prop where
  | punctuation {l : Lexeme} (hc : Lexeme.ofPunctuation? c = some l) : Reads c more (l, more)
  | name (hc : c = '\x60') {value rest : List Char} (h : readQuotedName more = some (value, rest)) :
      Reads c more (.quotedName (String.ofList value), rest)
  | openName (hc : c = '\x60') (h : readQuotedName more = none) :
      Reads c more (.malformed .identifier, [])
  | string (hc : c = '\x27' ∨ c = '\x22') {value rest : List Char}
      (h : readString c more = some (value, rest)) :
      Reads c more (.string (String.ofList value), rest)
  | openString (hc : c = '\x27' ∨ c = '\x22') (h : readString c more = none) :
      Reads c more (.malformed .string, [])
  | literal (hc : opensLiteral c = true) {inner rest : List Char} (hinner : '\x27' ∉ inner)
      (hmore : more = '\x27' :: inner ++ '\x27' :: rest) :
      Reads c more (.literal (String.ofList (c :: '\x27' :: inner ++ ['\x27'])), rest)
  | openLiteral (hc : opensLiteral c = true) {inner : List Char} (hinner : '\x27' ∉ inner)
      (hmore : more = '\x27' :: inner) : Reads c more (.malformed .literal, [])
  | word (hc : isWordChar c = true) (hmore : opensLiteral c = true → more.head? ≠ some '\x27') :
      Reads c more (readWord (c :: more))
  | other (hpunctuation : Lexeme.ofPunctuation? c = none) (hc : isWordChar c = false)
      (hquote : c ∉ ['\x60', '\x27', '\x22']) : Reads c more (.other c, more)

lemma opensLiteral_cases {c : Char} (h : opensLiteral c = true) :
    c = 'b' ∨ c = 'B' ∨ c = 'x' ∨ c = 'X' := by
  simpa [opensLiteral, or_assoc] using h

lemma isWordChar_of_opensLiteral {c : Char} (h : opensLiteral c = true) : isWordChar c = true := by
  rcases opensLiteral_cases h with rfl | rfl | rfl | rfl <;> exact isWordChar_of_isAlphanum (by decide)

lemma ofPunctuation?_eq_none {c : Char} (h : isWordChar c = true) :
    Lexeme.ofPunctuation? c = none ∧ c ∉ ['\x60', '\x27', '\x22'] := by
  have hne := mt (isWordChar_eq_false c) (by simp [h])
  simp only [List.mem_cons, not_or, List.not_mem_nil, not_false_eq_true, and_true] at hne
  simp [Lexeme.ofPunctuation?, hne]

lemma reads_read (c : Char) (more : List Char) : Reads c more (Lexeme.read c more) := by
  unfold Lexeme.read
  rcases hpunctuation : Lexeme.ofPunctuation? c with _ | l
  · simp only
    split
    · rename_i hc
      rcases hread : readQuotedName more with _ | ⟨value, rest⟩
      · exact .openName hc hread
      · exact .name hc hread
    · rename_i hname
      split
      · rename_i hc
        rcases hread : readString c more with _ | ⟨value, rest⟩
        · exact .openString (by simpa using hc) hread
        · exact .string (by simpa using hc) hread
      · rename_i hstring
        split
        · rename_i hliteral
          obtain ⟨hopens, hquote⟩ : opensLiteral c = true ∧ more.head? = some '\x27' := by
            simpa [opensLiteral] using hliteral
          obtain ⟨inner, rfl⟩ := List.head?_eq_some_iff.1 hquote
          rw [List.tail_cons]
          by_cases hclosed : '\x27' ∈ inner
          · obtain ⟨inner, rest, rfl, hinner⟩ := List.eq_append_cons_of_mem hclosed
            rw [readPrefixed_append hinner]
            exact .literal hopens hinner rfl
          · rw [readPrefixed_open hclosed]
            exact .openLiteral hopens hclosed rfl
        · rename_i hliteral
          split
          · rename_i hc
            refine .word hc fun hopens hquote => hliteral ?_
            simpa [hquote, opensLiteral] using hopens
          · rename_i hc
            refine .other hpunctuation (by simpa using hc) ?_
            simpa [hname] using hstring
  · exact .punctuation hpunctuation

lemma Reads.eq_read {c : Char} {more : List Char} {r : Lexeme × List Char} (h : Reads c more r) :
    r = Lexeme.read c more := by
  unfold Lexeme.read
  cases h with
  | punctuation hc => simp [hc]
  | name hc h | openName hc h =>
    subst hc
    simp [h, Lexeme.ofPunctuation?]
  | string hc h | openString hc h =>
    rcases hc with rfl | rfl <;> simp [h, Lexeme.ofPunctuation?]
  | literal hc hinner hmore =>
    obtain ⟨hnone, hquotes⟩ := ofPunctuation?_eq_none (isWordChar_of_opensLiteral hc)
    simp only [List.mem_cons, not_or, List.not_mem_nil, not_false_eq_true, and_true] at hquotes
    unfold opensLiteral at hc
    simp [hnone, hquotes, hmore, hc, readPrefixed_append hinner]
  | openLiteral hc hinner hmore =>
    obtain ⟨hnone, hquotes⟩ := ofPunctuation?_eq_none (isWordChar_of_opensLiteral hc)
    simp only [List.mem_cons, not_or, List.not_mem_nil, not_false_eq_true, and_true] at hquotes
    unfold opensLiteral at hc
    simp [hnone, hquotes, hmore, hc, readPrefixed_open hinner]
  | word hc hmore =>
    obtain ⟨hnone, hquotes⟩ := ofPunctuation?_eq_none hc
    simp only [List.mem_cons, not_or, List.not_mem_nil, not_false_eq_true, and_true] at hquotes
    have hnot : ¬ (opensLiteral c && more.head? = some '\x27') = true := by
      simpa using hmore
    unfold opensLiteral at hnot
    simp only [hnone, hquotes, hc, if_neg hnot]
    simp
  | other hpunctuation hc hquote =>
    simp only [List.mem_cons, not_or, List.not_mem_nil, not_false_eq_true, and_true] at hquote
    have hopens : opensLiteral c = false := by
      by_contra hopens
      simp [isWordChar_of_opensLiteral (by simpa using hopens)] at hc
    unfold opensLiteral at hopens
    simp [hpunctuation, hquote, hc, hopens]

/-- **A token ends where it ends**: it is read alike before all that goes on in the same way. -/
theorem read_local {c : Char} {more rest : List Char} {l : Lexeme}
    (h : Lexeme.read c more = (l, rest)) (hl : ∀ reason, l ≠ .malformed reason) :
    ∃ w, more = w ++ rest ∧
      ∀ rest', Continues rest rest' → Lexeme.read c (w ++ rest') = (l, rest') := by
  have hreads := reads_read c more
  rw [h] at hreads
  generalize hr : (l, rest) = r at hreads
  cases hreads with
  | punctuation hc =>
    obtain ⟨rfl, rfl⟩ := Prod.mk.inj hr
    exact ⟨[], rfl, fun rest' _ => (Reads.punctuation hc).eq_read.symm⟩
  | name hc hname =>
    obtain ⟨rfl, rfl⟩ := Prod.mk.inj hr
    obtain ⟨w, hw, rfl, hrest⟩ := spells_of_readQuotedName hname
    refine ⟨w ++ ['\x60'], List.append_cons .., fun rest' hrest' => ?_⟩
    rw [← List.append_cons]
    exact (Reads.name hc (hw.reads_name (hrest'.head_ne (by simp [isNeutral]) hrest))).eq_read.symm
  | string hc hstring =>
    obtain ⟨rfl, rfl⟩ := Prod.mk.inj hr
    have hquote : c ≠ '\\' ∧ isNeutral c = false := by
      rcases hc with rfl | rfl <;> simp [isNeutral]
    obtain ⟨w, hw, rfl, hrest⟩ := spells_of_readString hstring
    refine ⟨w ++ [c], List.append_cons .., fun rest' hrest' => ?_⟩
    rw [← List.append_cons]
    exact (Reads.string hc (hw.reads hquote.1 (hrest'.head_ne hquote.2 hrest))).eq_read.symm
  | literal hc hinner hmore =>
    obtain ⟨rfl, rfl⟩ := Prod.mk.inj hr
    refine ⟨_, hmore.trans (List.append_cons ..), fun rest' _ => ?_⟩
    exact (Reads.literal hc hinner (List.append_cons ..).symm).eq_read.symm
  | openName hc hname | openString hc hstring | openLiteral hc hinner hmore =>
    exact absurd (Prod.mk.inj hr).1 (hl _)
  | word hc hmore =>
    obtain ⟨w, rfl, -, hw⟩ := readWord_local hc hr.symm
    refine ⟨w, rfl, fun rest' hrest' => ?_⟩
    rw [← hw rest' hrest']
    refine (Reads.word hc fun hopens hquote => ?_).eq_read.symm
    have hhead := hmore hopens
    -- A letter that opens literals begins a word only if no quote comes next.
    rcases w with _ | ⟨d, w⟩
    · exact hrest'.head_ne (by simp [isNeutral]) hhead hquote
    · exact hhead hquote
  | other hpunctuation hc hquote =>
    obtain ⟨rfl, rfl⟩ := Prod.mk.inj hr
    exact ⟨[], rfl, fun rest' _ => (Reads.other hpunctuation hc hquote).eq_read.symm⟩

/-! ### Gaps -/

/-- No gap begins with `c` before `more`. -/
structure StartsToken (c : Char) (more : List Char) : Prop where
  blank : isBlank c = false
  hash : c ≠ '#'
  dashes : c = '-' → ∀ rest, more = '-' :: rest → opensComment rest = false
  slash : c = '/' → more.head? ≠ some '*'

lemma startsToken_of_notMem {c : Char} (hblank : isBlank c = false) (hc : c ∉ ['#', '-', '/'])
    (more : List Char) : StartsToken c more := by
  simp only [List.mem_cons, not_or] at hc
  exact ⟨hblank, hc.1, fun hdash => absurd hdash hc.2.1, fun hslash => absurd hslash hc.2.2.1⟩

lemma startsToken_of_isWordChar {c : Char} (h : isWordChar c = true) (more : List Char) :
    StartsToken c more := by
  have hne := mt (isWordChar_eq_false c) (by simp [h])
  simp only [List.mem_cons, not_or] at hne
  refine startsToken_of_notMem ?_ (by simp [hne]) more
  by_contra hblank
  have hneutral := isNeutral_of_isBlank (by simpa using hblank)
  simp [isNeutral, h] at hneutral

lemma dropGap_of_isBlank {c : Char} (h : isBlank c = true) (rest : List Char) :
    dropGap .blanks (c :: rest) = dropGap .blanks rest := by
  have hne (d : Char) (hd : isBlank d = false) : c ≠ d := by
    rintro rfl
    simp [hd] at h
  rw [dropGap.eq_5, if_pos h]
  · exact hne '#' (by decide)
  · exact fun _ hc => absurd hc (hne '-' (by decide))
  · exact fun _ hc => absurd hc (hne '/' (by decide))

lemma dropGap_blanks_append {b : List Char} (hb : ∀ c ∈ b, isBlank c = true) (cs : List Char) :
    dropGap .blanks (b ++ cs) = dropGap .blanks cs := by
  induction b with
  | nil => rfl
  | cons c b ih =>
    rw [List.cons_append, dropGap_of_isBlank (hb c List.mem_cons_self)]
    exact ih fun d hd => hb d (List.mem_cons_of_mem _ hd)

lemma exists_trim (cs : List Char) : ∃ b b', cs = b ++ Text.trim cs ++ b' ∧
    (∀ c ∈ b, isBlank c = true) ∧ ∀ c ∈ b', isBlank c = true := by
  have hend (cs : List Char) : cs =
      Text.dropEndWhile isBlank cs ++ (cs.reverse.takeWhile isBlank).reverse := by
    rw [Text.dropEndWhile, ← List.reverse_append, List.takeWhile_append_dropWhile,
      List.reverse_reverse]
  refine ⟨cs.takeWhile isBlank, ((cs.dropWhile isBlank).reverse.takeWhile isBlank).reverse, ?_,
    fun c hc => List.mem_takeWhile_imp hc,
    fun c hc => List.mem_takeWhile_imp (List.mem_reverse.1 hc)⟩
  rw [List.append_assoc, Text.trim, ← hend, List.takeWhile_append_dropWhile]

lemma StartsToken.dropGap {c : Char} {more : List Char} (h : StartsToken c more) :
    dropGap .blanks (c :: more) = c :: more := by
  by_cases hdashes : c = '-' ∧ more.head? = some '-'
  · obtain ⟨rfl, hmore⟩ := hdashes
    obtain ⟨rest, rfl⟩ := List.head?_eq_some_iff.1 hmore
    rw [SchemaDrift.dropGap, if_neg (by simp [h.dashes rfl rest rfl])]
  · rw [SchemaDrift.dropGap.eq_5, if_neg (by simp [h.blank])]
    · exact fun hc => h.hash hc
    · exact fun rest hc hmore => hdashes ⟨hc, by rw [hmore]; rfl⟩
    · exact fun rest hc hmore => h.slash hc (by rw [hmore]; rfl)

lemma startsToken_of_dropGap {m : GapMode} {cs : List Char} {c : Char} {more : List Char}
    (h : dropGap m cs = c :: more) : StartsToken c more := by
  fun_induction dropGap m cs with
  | case1 => cases h
  | case2 rest ih | case8 rest ih | case5 rest ih | case10 rest ih => exact ih h
  | case3 rest hopens ih => exact ih h
  | case4 rest hopens =>
    obtain ⟨rfl, rfl⟩ := List.cons.inj h
    refine ⟨by decide, by decide, fun _ rest' hrest => ?_, fun h => absurd h (by decide)⟩
    obtain rfl := (List.cons.inj hrest).2
    simpa using hopens
  | case6 c rest _ _ _ hblank ih => exact ih h
  | case7 d rest hhash hdashes hslash hblank =>
    obtain ⟨rfl, rfl⟩ := List.cons.inj h
    refine ⟨by simpa using hblank, hhash, fun hd rest' hrest => ?_, fun hd hrest => ?_⟩
    · exact absurd hrest (hdashes rest' hd)
    · obtain ⟨rest', hrest⟩ := List.head?_eq_some_iff.1 hrest
      exact absurd hrest (hslash rest' hd)
  | case9 d rest _ ih | case11 d rest _ ih => exact ih h

lemma dropGap_dropGap (m : GapMode) (cs : List Char) :
    dropGap .blanks (dropGap m cs) = dropGap m cs := by
  rcases h : dropGap m cs with _ | ⟨c, more⟩
  · rw [dropGap]
  · exact (startsToken_of_dropGap h).dropGap

/-! ### The tokens of a text -/

lemma mem_of_ofPunctuation? {c : Char} {l : Lexeme} (h : Lexeme.ofPunctuation? c = some l) :
    (c, l) ∈ [('(', .openParen), (')', .closeParen), (',', .comma), ('.', .dot), ('=', .equals),
      ('@', .atSign), (';', .semicolon), ('*', .star)] := by
  unfold Lexeme.ofPunctuation? at h
  split_ifs at h <;> simp_all

lemma readWord_cases (cs : List Char) : ∃ w, cs = w ++ (readWord cs).2 ∧
    ((readWord cs).1 = .word (String.ofList w) ∨ (readWord cs).1 = .number (String.ofList w) ∨
      (readWord cs).1 = .literal (String.ofList w)) := by
  have hspan := (List.takeWhile_append_dropWhile (p := isWordChar) (l := cs)).symm
  simp only [readWord]
  split
  · split
    · rename_i d more hrest
      split
      · refine ⟨_, ?_, .inr (.inl rfl)⟩
        rw [List.append_assoc, List.cons_append, List.takeWhile_append_dropWhile, ← hrest]
        exact hspan
      · exact ⟨_, hspan, .inr (.inl rfl)⟩
    · exact ⟨_, hspan, .inr (.inl rfl)⟩
  · split
    · exact ⟨_, hspan, .inr (.inr rfl)⟩
    · split
      · exact ⟨_, hspan, .inr (.inl rfl)⟩
      · exact ⟨_, hspan, .inl rfl⟩

lemma read_ne_ending (c : Char) (more : List Char) : (Lexeme.read c more).1 ≠ .ending := by
  have hreads := reads_read c more
  generalize Lexeme.read c more = r at hreads
  cases hreads with
  | punctuation hc =>
    rintro rfl
    simpa using mem_of_ofPunctuation? hc
  | word hc hmore =>
    obtain ⟨w, -, h | h | h⟩ := readWord_cases (c :: more) <;> simp [h]
  | _ => simp

lemma read_malformed {c : Char} {more rest : List Char} {reason : Malformed}
    (h : Lexeme.read c more = (.malformed reason, rest)) : rest = [] ∧
      (reason = .identifier ∧ c = '\x60' ∧ readQuotedName more = none ∨
        reason = .string ∧ (c = '\x27' ∨ c = '\x22') ∧ readString c more = none ∨
        reason = .literal ∧ opensLiteral c = true ∧
          ∃ inner, '\x27' ∉ inner ∧ more = '\x27' :: inner) := by
  have hreads := reads_read c more
  rw [h] at hreads
  generalize hr : (Lexeme.malformed reason, rest) = r at hreads
  cases hreads with
  | openName hc hname =>
    obtain ⟨⟨⟩, rfl⟩ := Prod.mk.inj hr
    exact ⟨rfl, .inl ⟨rfl, hc, hname⟩⟩
  | openString hc hstring =>
    obtain ⟨⟨⟩, rfl⟩ := Prod.mk.inj hr
    exact ⟨rfl, .inr (.inl ⟨rfl, hc, hstring⟩)⟩
  | openLiteral hc hinner hmore =>
    obtain ⟨⟨⟩, rfl⟩ := Prod.mk.inj hr
    exact ⟨rfl, .inr (.inr ⟨rfl, hc, _, hinner, hmore⟩)⟩
  | punctuation hc =>
    obtain rfl := (Prod.mk.inj hr).1
    simpa using mem_of_ofPunctuation? hc
  | word hc hmore =>
    have hfst := congrArg Prod.fst hr
    obtain ⟨w, -, hword | hword | hword⟩ := readWord_cases (c :: more) <;> rw [hword] at hfst <;>
      cases hfst
  | name hc hname | string hc hstring | literal hc hinner hmore | other hpunctuation hc hquote =>
    cases (Prod.mk.inj hr).1

lemma tokensFrom_of_nil (start : Nat) {cs : List Char} (h : dropGap .blanks cs = []) :
    tokensFrom start cs = [⟨cs, [], .ending, start + Text.byteSize cs⟩] := by
  have hgap : consumed cs (dropGap .blanks cs) = cs := by
    rw [h, consumed, List.length_nil, Nat.sub_zero, List.take_length]
  rw [tokensFrom, hgap]
  split
  · rfl
  · rename_i hcons
    rw [h] at hcons
    cases hcons

lemma tokensFrom_of_cons (start : Nat) {cs more : List Char} {c : Char}
    (h : dropGap .blanks cs = c :: more) : ∃ start' start'', tokensFrom start cs =
      ⟨consumed cs (c :: more), consumed (c :: more) (Lexeme.read c more).2,
        (Lexeme.read c more).1, start'⟩ :: tokensFrom start'' (Lexeme.read c more).2 := by
  rw [tokensFrom]
  split
  · rename_i hnil
    rw [h] at hnil
    cases hnil
  · rename_i d rest hcons
    rw [h] at hcons
    obtain ⟨rfl, rfl⟩ := List.cons.inj hcons
    rw [h]
    exact ⟨_, _, rfl⟩

def kinds (ts : List Token) : List Lexeme := (ts.map (·.lexeme)).filter (· ≠ .ending)

/-- What the tokens of a text are. -/
def lexemes (cs : List Char) : List Lexeme := kinds (tokensFrom 0 cs)

lemma map_lexeme_tokensFrom (start start' : Nat) (cs : List Char) :
    (tokensFrom start cs).map (·.lexeme) = (tokensFrom start' cs).map (·.lexeme) := by
  fun_induction tokensFrom start cs generalizing start' with
  | case1 start cs gap _ h =>
    rw [tokensFrom_of_nil _ h]
    rfl
  | case2 start cs gap _ c more h r text ih =>
    obtain ⟨_, start'', htokens⟩ := tokensFrom_of_cons start' h
    rw [htokens, List.map_cons, List.map_cons, ih start'']

lemma lexemes_of_nil {cs : List Char} (h : dropGap .blanks cs = []) : lexemes cs = [] := by
  rw [lexemes, tokensFrom_of_nil 0 h]
  rfl

lemma lexemes_of_cons {cs more : List Char} {c : Char} (h : dropGap .blanks cs = c :: more) :
    lexemes cs = (Lexeme.read c more).1 :: lexemes (Lexeme.read c more).2 := by
  obtain ⟨_, start, htokens⟩ := tokensFrom_of_cons 0 h
  rw [lexemes, htokens, kinds, List.map_cons, List.filter_cons_of_pos (by simp [read_ne_ending]),
    map_lexeme_tokensFrom start 0]
  rfl

lemma lexemes_congr {cs cs' : List Char} (h : dropGap .blanks cs = dropGap .blanks cs') :
    lexemes cs = lexemes cs' := by
  rcases hcs : dropGap .blanks cs' with _ | ⟨c, more⟩
  · rw [lexemes_of_nil hcs, lexemes_of_nil (h.trans hcs)]
  · rw [lexemes_of_cons hcs, lexemes_of_cons (h.trans hcs)]

end SchemaDrift
