import Mathlib
import SchemaDrift.Grammar.Cursor
import SchemaDrift.Proofs.TokenRead

/-!
Where tokens stand in a text. Places count bytes. A slice between two of them is there only if both
lie between characters; the places of tokens do, and the slices between them are the tokens' own
texts.
-/

namespace SchemaDrift

/-! ### Slices of a text -/

namespace Text

/-- What is left of a text after so many bytes, if a character ends there. -/
def dropBytes? : ℕ → List Char → Option (List Char)
  | 0, cs => some cs
  | _ + 1, [] => none
  | n + 1, c :: cs => if c.utf8Size ≤ n + 1 then dropBytes? (n + 1 - c.utf8Size) cs else none

/-- The first so many bytes of a text, if a character ends there. -/
def takeBytes? : ℕ → List Char → Option (List Char)
  | 0, _ => some []
  | _ + 1, [] => none
  | n + 1, c :: cs =>
    if c.utf8Size ≤ n + 1 then (takeBytes? (n + 1 - c.utf8Size) cs).map (c :: ·) else none

/-- The part of a text that a span covers, if it is within the text and cuts no character. -/
def slice? (cs : List Char) (s : Span) : Option (List Char) :=
  if s.start ≤ s.stop then (dropBytes? s.start cs).bind (takeBytes? (s.stop - s.start)) else none

lemma dropBytes?_append (a b : List Char) : dropBytes? (byteSize a) (a ++ b) = some b := by
  induction a with
  | nil => cases b <;> rfl
  | cons c a ih =>
    obtain ⟨n, hn⟩ : ∃ n, byteSize (c :: a) = n + 1 :=
      Nat.exists_eq_succ_of_ne_zero (by have := c.utf8Size_pos; rw [byteSize]; omega)
    rw [hn, List.cons_append, dropBytes?, ← hn, byteSize, if_pos (Nat.le_add_right _ _),
      Nat.add_sub_cancel_left, ih]

lemma takeBytes?_append (a b : List Char) : takeBytes? (byteSize a) (a ++ b) = some a := by
  induction a with
  | nil => cases b <;> rfl
  | cons c a ih =>
    obtain ⟨n, hn⟩ : ∃ n, byteSize (c :: a) = n + 1 :=
      Nat.exists_eq_succ_of_ne_zero (by have := c.utf8Size_pos; rw [byteSize]; omega)
    rw [hn, List.cons_append, takeBytes?, ← hn, byteSize, if_pos (Nat.le_add_right _ _),
      Nat.add_sub_cancel_left, ih, Option.map_some]

lemma slice?_append (a b d : List Char) {s : Span} (hstart : s.start = byteSize a)
    (hstop : s.stop = byteSize (a ++ b)) : slice? (a ++ b ++ d) s = some b := by
  have hlength : s.stop - s.start = byteSize b := by
    rw [hstart, hstop, byteSize_append, Nat.add_sub_cancel_left]
  have hle : s.start ≤ s.stop := by
    rw [hstart, hstop, byteSize_append]
    exact Nat.le_add_right _ _
  rw [slice?, if_pos hle, hlength, hstart, List.append_assoc, dropBytes?_append, Option.bind_some,
    takeBytes?_append]

end Text

/-! ### The places of tokens -/

/-- A list of tokens with the end of the text as its last one and nowhere else. -/
def Ended (ts : List Token) : Prop :=
  ∃ init e, ts = init ++ [e] ∧ e.lexeme = .ending ∧ ∀ t ∈ init, t.lexeme ≠ .ending

lemma ended_tokensFrom (start : ℕ) (cs : List Char) : Ended (tokensFrom start cs) := by
  fun_induction tokensFrom start cs with
  | case1 start cs gap start' h => exact ⟨[], _, rfl, rfl, by simp⟩
  | case2 start cs gap start' c more h r text ih =>
    obtain ⟨init, e, hts, he, hinit⟩ := ih
    refine ⟨⟨gap, text, r.1, start'⟩ :: init, e, by rw [hts]; rfl, he, fun t ht => ?_⟩
    rcases List.mem_cons.1 ht with rfl | ht
    · exact read_ne_ending c more
    · exact hinit t ht

lemma ended_tokens (text : String) : Ended (tokens text) := ended_tokensFrom 0 _

lemma start_of_tokensFrom {start : ℕ} {cs : List Char} {pre post : List Token} {t : Token}
    (h : tokensFrom start cs = pre ++ t :: post) :
    t.start = start + Text.byteSize (Token.spelling pre ++ t.gap) := by
  fun_induction tokensFrom start cs generalizing pre with
  | case1 start cs gap start' =>
    rcases pre with _ | ⟨u, pre⟩
    · obtain ⟨rfl, -⟩ := List.cons.inj h
      rfl
    · exact absurd (List.cons.inj h).2 (by simp)
  | case2 start cs gap start' c more hgap r text =>
    rename_i ih
    rcases pre with _ | ⟨u, pre⟩
    · obtain ⟨rfl, -⟩ := List.cons.inj h
      rfl
    · obtain ⟨rfl, hrest⟩ := List.cons.inj h
      rw [ih hrest]
      simp only [start', Token.spelling, List.flatMap_cons, List.append_assoc, Text.byteSize_append]
      omega

variable {text : String} {pre mid post : List Token} {t u : Token}

lemma start_of_tokens (h : tokens text = pre ++ t :: post) :
    t.start = Text.byteSize (Token.spelling pre ++ t.gap) := by
  rw [start_of_tokensFrom h, Nat.zero_add]

lemma spelling_tokens (text : String) : Token.spelling (tokens text) = text.toList :=
  spelling_tokensFrom 0 _

lemma slice?_across (h : tokens text = pre ++ (t :: mid) ++ post) {stop : ℕ}
    (hstop : stop = Text.byteSize (Token.spelling (pre ++ t :: mid))) :
    Text.slice? text.toList ⟨t.start, stop⟩ = some (Token.slice (t :: mid)) := by
  have hsplit : tokens text = pre ++ t :: (mid ++ post) := by rw [h]; simp
  have hstart := start_of_tokens hsplit
  have htext : text.toList =
      (Token.spelling pre ++ t.gap) ++ Token.slice (t :: mid) ++ Token.spelling post := by
    rw [← spelling_tokens, h]
    simp [Token.spelling, Token.slice]
  rw [htext]
  refine Text.slice?_append _ _ _ hstart ?_
  rw [hstop]
  simp [Token.spelling, Token.slice]

lemma slice?_between (h : tokens text = pre ++ t :: mid ++ u :: post) :
    Text.slice? text.toList ⟨t.span.stop, u.start⟩ = some (Token.spelling mid ++ u.gap) := by
  have hsplit : tokens text = pre ++ t :: (mid ++ u :: post) := by rw [h]; simp
  have hstart := start_of_tokens hsplit
  have hstart' := start_of_tokens h
  have htext : text.toList = (Token.spelling pre ++ t.gap ++ t.text) ++
      (Token.spelling mid ++ u.gap) ++ (u.text ++ Token.spelling post) := by
    rw [← spelling_tokens, h]
    simp [Token.spelling]
  rw [htext]
  refine Text.slice?_append _ _ _ ?_ ?_
  · simp only [Token.span, hstart, Text.byteSize_append]
  · rw [hstart']
    simp [Token.spelling]

lemma slice?_span (h : t ∈ tokens text) : Text.slice? text.toList t.span = some t.text := by
  obtain ⟨pre, post, hsplit⟩ := List.append_of_mem h
  have hts : tokens text = pre ++ [t] ++ post := by rw [hsplit]; simp
  have hstop : t.span.stop = Text.byteSize (Token.spelling (pre ++ [t])) := by
    simp [Token.span, start_of_tokens hsplit, Token.spelling, Text.byteSize_append, Nat.add_assoc]
  have hslice := slice?_across hts hstop
  rwa [Token.slice, Token.spelling, List.flatMap_nil, List.append_nil] at hslice

end SchemaDrift
