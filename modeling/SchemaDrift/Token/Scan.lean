import SchemaDrift.Token
import SchemaDrift.Text.Blank
import SchemaDrift.Text.Alphanumeric

/-!
Reading the tokens of a text.

Each reader takes the characters that are left and hands back those that it left over, and a lemma
beside it says that these are no more; that bounds the scan. The main statement is that the tokens
give back the text: nothing is lost between them.
-/

namespace SchemaDrift

/-! ### Gaps -/

/-- Where a gap between tokens stands. -/
inductive GapMode where
  | blanks
  | line
  | block
  deriving DecidableEq, Repr

/-- Whether two dashes before `rest` open a comment. -/
def opensComment (rest : List Char) : Bool := rest.head?.all Text.isBlank

/-- Drops blanks and comments: `#` and two dashes up to the end of the line, and block comments. -/
def dropGap : GapMode → List Char → List Char
  | _, [] => []
  | .blanks, '#' :: rest => dropGap .line rest
  | .blanks, '-' :: '-' :: rest =>
    if opensComment rest then dropGap .line rest else '-' :: '-' :: rest
  | .blanks, '/' :: '*' :: rest => dropGap .block rest
  | .blanks, c :: rest => if Text.isBlank c then dropGap .blanks rest else c :: rest
  | .line, '\n' :: rest => dropGap .blanks rest
  | .line, _ :: rest => dropGap .line rest
  | .block, '*' :: '/' :: rest => dropGap .blanks rest
  | .block, _ :: rest => dropGap .block rest

theorem dropGap_suffix (m : GapMode) (cs : List Char) : dropGap m cs <:+ cs := by
  fun_induction dropGap m cs with
  | case1 => exact List.suffix_refl _
  | case2 rest ih => exact ih.trans (List.suffix_cons _ _)
  | case3 rest h ih => exact ih.trans ((List.suffix_cons _ _).trans (List.suffix_cons _ _))
  | case4 => exact List.suffix_refl _
  | case5 rest ih => exact ih.trans ((List.suffix_cons _ _).trans (List.suffix_cons _ _))
  | case6 c rest _ _ _ h ih => exact ih.trans (List.suffix_cons _ _)
  | case7 => exact List.suffix_refl _
  | case8 rest ih => exact ih.trans (List.suffix_cons _ _)
  | case9 c rest _ ih => exact ih.trans (List.suffix_cons _ _)
  | case10 rest ih => exact ih.trans ((List.suffix_cons _ _).trans (List.suffix_cons _ _))
  | case11 c rest _ ih => exact ih.trans (List.suffix_cons _ _)

/-! ### Quoted texts -/

/-- The rest of an identifier after its opening back quote: its name and what follows the closing
one. A back quote inside is written twice. -/
def readQuotedName : List Char → Option (List Char × List Char)
  | [] => none
  | '\x60' :: '\x60' :: rest => (readQuotedName rest).map fun r => ('\x60' :: r.1, r.2)
  | '\x60' :: rest => some ([], rest)
  | c :: rest => (readQuotedName rest).map fun r => (c :: r.1, r.2)

/-- What a character after a backslash stands for. -/
def unescaped (c : Char) : List Char :=
  if c = '0' then ['\x00']
  else if c = 'b' then ['\x08']
  else if c = 'n' then ['\n']
  else if c = 'r' then ['\r']
  else if c = 't' then ['\t']
  else if c = 'Z' then ['\x1a']
  else if c = '%' || c = '_' then ['\\', c]
  else [c]

/-- The rest of a string after its opening quote `q`: its value and what follows the closing
one. -/
def readString (q : Char) : List Char → Option (List Char × List Char)
  | [] => none
  | [c] => if c = q then some ([], []) else none
  | c :: d :: rest =>
    if c = '\\' then (readString q rest).map fun r => (unescaped d ++ r.1, r.2)
    else if c = q then
      if d = q then (readString q rest).map fun r => (q :: r.1, r.2) else some ([], d :: rest)
    else (readString q (d :: rest)).map fun r => (c :: r.1, r.2)

theorem suffix_of_readQuotedName {cs : List Char} {r : List Char × List Char}
    (h : readQuotedName cs = some r) : r.2 <:+ cs := by
  fun_induction readQuotedName cs generalizing r with
  | case1 => simp at h
  | case2 rest ih =>
    obtain ⟨s, hs, rfl⟩ := Option.map_eq_some_iff.1 h
    exact (ih hs).trans ((List.suffix_cons _ _).trans (List.suffix_cons _ _))
  | case3 rest _ => cases h; exact List.suffix_cons _ _
  | case4 c rest _ _ ih =>
    obtain ⟨s, hs, rfl⟩ := Option.map_eq_some_iff.1 h
    exact (ih hs).trans (List.suffix_cons _ _)

theorem suffix_of_readString {q : Char} {cs : List Char} {r : List Char × List Char}
    (h : readString q cs = some r) : r.2 <:+ cs := by
  fun_induction readString q cs generalizing r with
  | case1 => simp at h
  | case2 => cases h; exact List.suffix_cons _ _
  | case3 c hc => simp at h
  | case4 d rest ih =>
    obtain ⟨s, hs, rfl⟩ := Option.map_eq_some_iff.1 h
    exact (ih hs).trans ((List.suffix_cons _ _).trans (List.suffix_cons _ _))
  | case5 rest _ ih =>
    obtain ⟨s, hs, rfl⟩ := Option.map_eq_some_iff.1 h
    exact (ih hs).trans ((List.suffix_cons _ _).trans (List.suffix_cons _ _))
  | case6 d rest _ _ => cases h; exact List.suffix_cons _ _
  | case7 c d rest _ _ ih =>
    obtain ⟨s, hs, rfl⟩ := Option.map_eq_some_iff.1 h
    exact (ih hs).trans (List.suffix_cons _ _)

/-! ### Words and numbers -/

/-- The characters of words. -/
def isWordChar (c : Char) : Bool := Text.isAlphanumeric c || c = '_' || c = '$'

def allDigits (cs : List Char) : Bool := cs.all Char.isDigit

def isHexDigit (c : Char) : Bool :=
  c.isDigit || ('a' ≤ c && c ≤ 'f') || ('A' ≤ c && c ≤ 'F')

/-- `0x` and at least one hex digit. -/
def isHexLiteral (cs : List Char) : Bool :=
  match cs with
  | '0' :: x :: digits => (x = 'x' || x = 'X') && !digits.isEmpty && digits.all isHexDigit
  | _ => false

/-- Digits, the letter `e`, digits. -/
def isScientific (cs : List Char) : Bool :=
  match Text.cutFirst 'e' (cs.map Char.toLower) with
  | some (mantissa, exponent) =>
    !mantissa.isEmpty && allDigits mantissa && !exponent.isEmpty && allDigits exponent
  | none => false

/-- A word, a number or a hex literal at the start of `cs`, and the rest. A number of digits alone
may have a fraction. -/
def readWord (cs : List Char) : Lexeme × List Char :=
  let text := cs.takeWhile isWordChar
  let rest := cs.dropWhile isWordChar
  if allDigits text then
    match rest with
    | '.' :: d :: more =>
      if d.isDigit then
        (.number (String.ofList (text ++ '.' :: (d :: more).takeWhile Char.isDigit)),
          (d :: more).dropWhile Char.isDigit)
      else (.number (String.ofList text), rest)
    | _ => (.number (String.ofList text), rest)
  else if isHexLiteral text then (.literal (String.ofList text), rest)
  else if isScientific text then (.number (String.ofList text), rest)
  else (.word (String.ofList text), rest)

theorem readWord_suffix {c : Char} {rest : List Char} (h : isWordChar c = true) :
    (readWord (c :: rest)).2 <:+ rest := by
  have hd : (c :: rest).dropWhile isWordChar <:+ rest := by
    rw [List.dropWhile_cons_of_pos h]; exact List.dropWhile_suffix _
  simp only [readWord]
  split
  · split
    · rename_i heq
      split
      · rw [heq] at hd
        exact ((List.dropWhile_suffix _).trans (List.suffix_cons _ _)).trans hd
      · exact hd
    · exact hd
  · split
    · exact hd
    · split <;> exact hd

/-- The rest of a bit or hex literal after its letter `c` and the opening quote: all up to the next
quote. -/
def readPrefixed (c : Char) (cs : List Char) : Lexeme × List Char :=
  match cs.dropWhile (· != '\x27') with
  | [] => (.malformed .literal, [])
  | q :: rest => (.literal (String.ofList (c :: q :: cs.takeWhile (· != '\x27') ++ [q])), rest)

/-- The token that starts with `c`, and the characters after it. -/
def Lexeme.read (c : Char) (rest : List Char) : Lexeme × List Char :=
  match ofPunctuation? c with
  | some l => (l, rest)
  | none =>
    if c = '\x60' then
      match readQuotedName rest with
      | some (name, rest) => (.quotedName (String.ofList name), rest)
      | none => (.malformed .identifier, [])
    else if c = '\x27' || c = '\x22' then
      match readString c rest with
      | some (value, rest) => (.string (String.ofList value), rest)
      | none => (.malformed .string, [])
    else if (c = 'b' || c = 'B' || c = 'x' || c = 'X') && rest.head? = some '\x27' then
      readPrefixed c rest.tail
    else if isWordChar c then readWord (c :: rest)
    else (.other c, rest)

theorem Lexeme.read_suffix (c : Char) (rest : List Char) : (Lexeme.read c rest).2 <:+ rest := by
  unfold Lexeme.read
  split
  · exact List.suffix_refl _
  · split
    · split
      · rename_i h; exact suffix_of_readQuotedName h
      · exact List.nil_suffix
    · split
      · split
        · rename_i h; exact suffix_of_readString h
        · exact List.nil_suffix
      · split
        · unfold readPrefixed
          have hd : rest.tail.dropWhile (· != '\x27') <:+ rest :=
            (List.dropWhile_suffix _).trans (List.tail_suffix _)
          split
          · exact List.nil_suffix
          · rename_i heq; rw [heq] at hd; exact (List.suffix_cons _ _).trans hd
        · split
          · rename_i h; exact readWord_suffix h
          · exact List.suffix_refl _

/-! ### The whole text -/

/-- What stands before the suffix `rest` of `cs`. -/
def consumed (cs rest : List Char) : List Char := cs.take (cs.length - rest.length)

theorem consumed_append {cs rest : List Char} (h : rest <:+ cs) : consumed cs rest ++ rest = cs := by
  obtain ⟨front, rfl⟩ := h
  simp [consumed]

/-- The tokens of `cs`, which starts `start` bytes into the text; the last one is the end. -/
def tokensFrom (start : Nat) (cs : List Char) : List Token :=
  let gap := consumed cs (dropGap .blanks cs)
  let start := start + Text.byteSize gap
  match _h : dropGap .blanks cs with
  | [] => [⟨gap, [], .ending, start⟩]
  | c :: more =>
    let r := Lexeme.read c more
    let text := consumed (c :: more) r.2
    ⟨gap, text, r.1, start⟩ :: tokensFrom (start + Text.byteSize text) r.2
termination_by cs.length
decreasing_by
  have h1 := (dropGap_suffix .blanks cs).length_le
  have h2 := (Lexeme.read_suffix c more).length_le
  rw [_h] at h1
  simp only [List.length_cons] at h1
  omega

def tokens (text : String) : List Token := tokensFrom 0 text.toList

/-- **Nothing is lost**: the tokens give back the text. -/
theorem spelling_tokensFrom (start : Nat) (cs : List Char) :
    Token.spelling (tokensFrom start cs) = cs := by
  fun_induction tokensFrom start cs with
  | case1 _ cs gap _ h =>
    have := consumed_append (dropGap_suffix .blanks cs)
    rw [h] at this
    simpa [Token.spelling, gap, h] using this
  | case2 start cs gap _ c more h r text ih =>
    have h1 := consumed_append (dropGap_suffix .blanks cs)
    have h2 := consumed_append ((Lexeme.read_suffix c more).trans (List.suffix_cons c more))
    simp only [Token.spelling, List.flatMap_cons] at ih ⊢
    rw [ih, List.append_assoc, h2]
    rw [h] at h1
    simpa [gap, h] using h1

theorem tokensFrom_ne_nil (start : Nat) (cs : List Char) : tokensFrom start cs ≠ [] := by
  rw [tokensFrom]
  split <;> simp

end SchemaDrift
