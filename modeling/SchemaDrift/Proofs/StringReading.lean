import Mathlib
import SchemaDrift.Script
import SchemaDrift.Proofs.WrittenToken

/-!
Strings as they are written. Both ways to escape a string spell it between the quotation marks, and
whatever spells it is read as it. So the text is one token, and the scan of a script passes over it.
-/

namespace SchemaDrift

variable {q : Char} {v w rest : List Char}

/-! ### The token -/

lemma tokensFrom_of_gap (start : ℕ) {cs more : List Char} {c : Char} {l : Lexeme}
    (hdrop : dropGap .blanks cs = c :: more) (hread : Lexeme.read c more = (l, rest)) :
    tokensFrom start cs =
      ⟨consumed cs (c :: more), consumed (c :: more) rest, l,
        start + Text.byteSize (consumed cs (c :: more))⟩ ::
      tokensFrom (start + Text.byteSize (consumed cs (c :: more)) +
        Text.byteSize (consumed (c :: more) rest)) rest := by
  rw [tokensFrom]
  split
  · next hnil =>
    rw [hdrop] at hnil
    cases hnil
  · next hcons =>
    rw [hdrop] at hcons
    obtain ⟨rfl, rfl⟩ := List.cons.inj hcons
    simp only [hdrop, hread]

lemma tokensFrom_of_starts (start : ℕ) {c : Char} {more : List Char} {l : Lexeme}
    (hstarts : StartsToken c more) (hread : Lexeme.read c more = (l, rest))
    (hw : c :: more = w ++ rest) : tokensFrom start (c :: more) =
      ⟨[], w, l, start⟩ :: tokensFrom (start + Text.byteSize w) rest := by
  have hgap : consumed (c :: more) (c :: more) = [] := by simp [consumed]
  have htext : consumed (c :: more) rest = w := by simp [consumed, hw]
  rw [tokensFrom_of_gap start hstarts.dropGap hread, hgap, htext]
  rfl

def Token.shift (n : ℕ) (t : Token) : Token := { t with start := t.start + n }

lemma tokensFrom_add (start n : ℕ) (cs : List Char) :
    tokensFrom (start + n) cs = (tokensFrom start cs).map (·.shift n) := by
  fun_induction tokensFrom start cs with
  | case1 start cs gap start' h =>
    have hgap : gap = cs := by simp [gap, h, consumed]
    have hplace : start' = start + Text.byteSize gap := rfl
    rw [tokensFrom_of_nil _ h, List.map_singleton, Token.shift, hplace, hgap, Nat.add_right_comm]
  | case2 start cs gap start' c more h r text ih =>
    have hgap : consumed cs (c :: more) = gap := by simp only [gap, h]
    have hplace : start + n + Text.byteSize gap = start' + n := Nat.add_right_comm ..
    rw [tokensFrom_of_gap _ h rfl, List.map_cons, ← ih, hgap, hplace, Nat.add_right_comm start']
    rfl

namespace Script

/-! ### The scan -/

/-- The dashes that the scan holds back outside quoted texts and comments. -/
def Mode.held? : Mode → Option (List Char)
  | .plain | .slash => some []
  | .dash => some ['-']
  | .dashes => some ['-', '-']
  | .quoted _ | .escaped _ | .lineComment | .blockComment | .blockStar => none

variable {current : List Char} {finished : List String}

lemma step_quote {s : Scan} {held : List Char} (h : s.mode.held? = some held) :
    s.step '\x27' = ⟨.quoted '\x27', '\x27' :: (held ++ s.current), s.finished⟩ := by
  obtain ⟨mode, current, finished⟩ := s
  cases mode with
  | plain | slash | dash | dashes =>
    obtain rfl := Option.some.inj h
    rfl
  | quoted q | escaped q | lineComment | blockComment | blockStar => cases h

lemma run_of_spells (h : Spells '\x27' true w v) :
    (⟨.quoted '\x27', current, finished⟩ : Scan).run w =
      ⟨.quoted '\x27', w.reverse ++ current, finished⟩ := by
  induction h generalizing current with
  | nil => rfl
  | twice h ih =>
    rw [Scan.run_cons, Scan.run_cons]
    exact (@ih ('\x27' :: '\x27' :: current)).trans (by simp)
  | escaped d _ h ih =>
    rw [Scan.run_cons, Scan.run_cons]
    exact (@ih (d :: '\\' :: current)).trans (by simp)
  | @plain w v c hquote hescape h ih =>
    have hstep : (⟨.quoted '\x27', current, finished⟩ : Scan).step c =
        ⟨.quoted '\x27', c :: current, finished⟩ := by
      simp [Scan.step, hquote, hescape rfl, Scan.keep]
    rw [Scan.run_cons, hstep, ih]
    simp

end Script

/-! ### Both at once -/

/-- **A written string stays whole.** Whichever way it is escaped, before every text that does not
begin with a single quote it is one token with the string as its value, and the tokens of that text
follow; and wherever the scan of a script stands outside quoted texts and comments, it keeps the
written string as it is, finishes no statement and stands in plain text again. -/
theorem written_string_stays_whole (v : String) :
    ∀ written ∈ [Sql.string v, "'" ++ Sql.escape v ++ "'"],
      (∀ rest : String, rest.toList.head? ≠ some '\x27' →
        tokens (written ++ rest) = ⟨[], written.toList, .string v, 0⟩ ::
          (tokens rest).map (·.shift (Text.byteSize written.toList))) ∧
      ∀ (s : Script.Scan) (held : List Char), s.mode.held? = some held →
        s.run written.toList = ⟨.plain, written.toList.reverse ++ (held ++ s.current), s.finished⟩ := by
  intro written hwritten
  obtain ⟨w, hw, hspells⟩ : ∃ w, written.toList = '\x27' :: (w ++ ['\x27']) ∧
      Spells '\x27' true w v.toList := by
    rcases List.mem_pair.1 hwritten with rfl | rfl
    · exact spells_string v
    · exact ⟨_, by simp, spells_escape v⟩
  refine ⟨fun rest hrest => ?_, fun s held hheld => ?_⟩
  · have hread := (Reads.string (.inl rfl) (hspells.reads (by decide) hrest)).eq_read
    rw [String.ofList_toList] at hread
    have htext : (written ++ rest).toList = '\x27' :: (w ++ '\x27' :: rest.toList) := by
      simp [hw]
    have hsplit : '\x27' :: (w ++ '\x27' :: rest.toList) = written.toList ++ rest.toList := by
      simp [hw]
    rw [tokens, htext, tokensFrom_of_starts 0 (startsToken_of_notMem (by decide) (by decide) _)
      hread.symm hsplit, tokensFrom_add, tokens]
  · rw [hw, Script.Scan.run_cons, Script.step_quote hheld, Script.Scan.run_append,
      Script.run_of_spells hspells]
    simp [Script.Scan.step, Script.Scan.keep]

/-- A quote and a backslash in the string, a dash held back before it, and a literal's letter behind
it. -/
theorem written_string_stays_whole_mixed :
    let written := "'" ++ Sql.escape "it's\\" ++ "'"
    "b'1'".toList.head? ≠ some '\x27' ∧ Script.Mode.dash.held? = some ['-'] ∧
      tokens (written ++ "b'1'") = ⟨[], written.toList, .string "it's\\", 0⟩ ::
        (tokens "b'1'").map (·.shift (Text.byteSize written.toList)) ∧
      (⟨.dash, [], []⟩ : Script.Scan).run written.toList =
        ⟨.plain, written.toList.reverse ++ ['-'], []⟩ := by
  intro written
  obtain ⟨htokens, hscan⟩ := written_string_stays_whole "it's\\" written (by simp [written])
  exact ⟨by decide, rfl, htokens "b'1'" (by decide), hscan ⟨.dash, [], []⟩ ['-'] rfl⟩

end SchemaDrift
