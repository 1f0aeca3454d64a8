import Mathlib
import SchemaDrift.Grammar.Cursor
import SchemaDrift.Proofs.TokenRun

/-!
What a grammar takes from a text. A step is followed along the text that is left, not along tokens:
each rule says what the step makes of a text and which text it leaves.
-/

namespace SchemaDrift

/-! ### Cursors on texts -/

lemma map_lexeme_eq (start : Nat) (cs : List Char) :
    (tokensFrom start cs).map (·.lexeme) = lexemes cs ++ [.ending] := by
  fun_induction tokensFrom start cs with
  | case1 start cs gap _ h =>
    rw [lexemes_of_nil h]
    rfl
  | case2 start cs gap _ c more h r text ih =>
    rw [List.map_cons, ih, lexemes_of_cons h, List.cons_append]

namespace Cursor

variable {c : Cursor} {cs rest : List Char} {l : Lexeme}

/-- The tokens ahead are those of the text. -/
def At (c : Cursor) (cs : List Char) : Prop := ∃ start, c.ahead = tokensFrom start cs

lemma at_ofText (text : String) : (ofText text).At text.toList := ⟨0, rfl⟩

namespace At

lemma lexemeAt (h : c.At cs) (n : Nat) : c.lexemeAt n = (lexemes cs)[n]?.getD .ending := by
  obtain ⟨start, hstart⟩ := h
  have hmap : (c.ahead.map (·.lexeme))[n]? = (lexemes cs ++ [.ending])[n]? := by
    rw [hstart, map_lexeme_eq]
  rw [List.getElem?_map] at hmap
  have hget : c.lexemeAt n = (c.ahead[n]?.map (·.lexeme)).getD .ending := by
    unfold Cursor.lexemeAt
    rcases c.ahead[n]? with _ | t <;> rfl
  rw [hget, hmap, List.getElem?_append]
  split
  · rfl
  · rename_i hlen
    rw [List.getElem?_eq_none (not_lt.1 hlen), List.getElem?_singleton]
    split <;> rfl

lemma lexemeAt_zero (h : c.At cs) : c.lexemeAt 0 = firstLexeme cs := by
  rw [h.lexemeAt, firstLexeme, List.headD_eq_head?_getD, List.head?_eq_getElem?]

lemma spelling (h : c.At cs) : Token.spelling c.ahead = cs := by
  obtain ⟨start, hstart⟩ := h
  rw [hstart, spelling_tokensFrom]

lemma length (h : c.At cs) : c.ahead.length = (lexemes cs).length + 1 := by
  obtain ⟨start, hstart⟩ := h
  have hlen := congrArg List.length (map_lexeme_eq start cs)
  rwa [List.length_map, List.length_append, ← hstart] at hlen

lemma advance (h : c.At cs) (hl : Lexes cs l rest) :
    ∃ t, c.ahead = t :: c.advance.ahead ∧ c.advance = c.move 1 ∧ c.advance.At rest := by
  obtain ⟨start, hstart⟩ := h
  obtain ⟨d, more, hdrop, hread⟩ := hl
  obtain ⟨start₁, start₂, hcons⟩ := tokensFrom_of_cons start hdrop
  have hne := read_ne_ending d more
  rw [hread] at hcons hne
  obtain ⟨t, ht, hahead⟩ : ∃ t : Token, t.lexeme ≠ .ending ∧
      c.ahead = t :: tokensFrom start₂ rest := ⟨_, hne, hstart.trans hcons⟩
  have hadvance : c.advance = ⟨t :: c.behind, tokensFrom start₂ rest⟩ := by
    rw [Cursor.advance, hahead]
    exact if_neg ht
  rw [hadvance, Cursor.move, hahead]
  exact ⟨t, rfl, rfl, start₂, rfl⟩

lemma exists_lexes (h : c.At cs) (hne : c.lexemeAt 0 ≠ .ending) :
    ∃ rest, Lexes cs (c.lexemeAt 0) rest := by
  rw [h.lexemeAt_zero] at hne ⊢
  rcases hdrop : dropGap .blanks cs with _ | ⟨d, more⟩
  · rw [firstLexeme, lexemes_of_nil hdrop] at hne
    exact absurd rfl hne
  · rw [firstLexeme, lexemes_of_cons hdrop]
    exact ⟨_, d, more, hdrop, rfl⟩

lemma length_lt {d : Cursor} (h : c.At cs) (hd : d.At rest) (hsuffix : d.ahead <:+ c.ahead)
    (hlen : rest.length < cs.length) : d.ahead.length < c.ahead.length := by
  by_contra hge
  have heq := hsuffix.eq_of_length_le (by omega)
  have hsame : rest = cs := by rw [← hd.spelling, ← h.spelling, heq]
  rw [hsame] at hlen
  omega

end At

end Cursor

/-! ### Steps on texts -/

def Lexeme.upperWord? : Lexeme → Option String
  | .word w => some (Text.upper w)
  | _ => none

lemma nameLexeme_isWord {n w : String} (hw : w ∈ Sql.reserved) :
    (nameLexeme n).isWord w = false := by
  by_cases hbare : Sql.isBareName n = true
  · rw [nameLexeme, if_pos hbare]
    simp only [Sql.isBareName, Bool.and_eq_true, Bool.not_eq_true', List.any_eq_false] at hbare
    have hne := hbare.2 w hw
    rwa [Text.sameName_comm, Bool.not_eq_true] at hne
  · rw [nameLexeme, if_neg hbare]
    rfl

lemma nameLexeme_upperWord? {n w : String} (hw : w ∈ Sql.reserved) :
    (nameLexeme n).upperWord? ≠ some w := by
  have hword := nameLexeme_isWord (n := n) hw
  by_cases hbare : Sql.isBareName n = true
  · rw [nameLexeme, if_pos hbare] at hword ⊢
    intro hupper
    have hlower : Text.lower (Text.upper n) = Text.lower n := by
      simp [Text.lower, Text.upper, Function.comp_def]
    have hsame : Text.sameName n w = true := by
      rw [Text.sameName_iff, ← hlower, Option.some.inj hupper]
    rw [Lexeme.isWord, hsame] at hword
    cases hword
  · rw [nameLexeme, if_neg hbare]
    simp [Lexeme.upperWord?]

namespace Parse

/-- From the text `cs` the step takes `a` and leaves `rest`. -/
def Takes {α : Type} (m : Parse α) (cs : List Char) (a : α) (rest : List Char) : Prop :=
  ∀ c : Cursor, c.At cs → ∃ c' : Cursor, m c = .ok (a, c') ∧ c'.At rest ∧ c'.ahead <:+ c.ahead

namespace Takes

variable {α β σ : Type} {cs mid rest : List Char} {a : α} {b : β} {l : Lexeme} {w : String}

lemma pure (a : α) (cs : List Char) : Takes (Pure.pure a) cs a cs :=
  fun c hc => ⟨c, rfl, hc, List.suffix_refl _⟩

lemma bind {m : Parse α} {f : α → Parse β} (hm : Takes m cs a mid) (hf : Takes (f a) mid b rest) :
    Takes (m >>= f) cs b rest := by
  intro c hc
  obtain ⟨c₁, hok, hc₁, hsuffix⟩ := hm c hc
  obtain ⟨c₂, hok₂, hc₂, hsuffix₂⟩ := hf c₁ hc₁
  refine ⟨c₂, ?_, hc₂, hsuffix₂.trans hsuffix⟩
  simp only [Bind.bind, StateT.bind, Except.bind, hok]
  exact hok₂

lemma map {m : Parse α} (f : α → β) (hm : Takes m cs a rest) : Takes (f <$> m) cs (f a) rest := by
  intro c hc
  obtain ⟨c₁, hok, hc₁⟩ := hm c hc
  refine ⟨c₁, ?_, hc₁⟩
  simp only [Functor.map, StateT.map, Except.bind, Bind.bind, hok]
  rfl

lemma get_bind {f : Cursor → Parse β} (hf : ∀ c, c.At cs → Takes (f c) cs b rest) :
    Takes (get >>= f) cs b rest := fun c hc => hf c hc c hc

lemma next (cs : List Char) : Takes Parse.next cs (firstLexeme cs) cs := fun c hc =>
  ⟨c, by rw [Parse.next, hc.lexemeAt_zero], hc, List.suffix_refl _⟩

lemma advance (h : Lexes cs l rest) : Takes Parse.advance cs () rest := by
  intro c hc
  obtain ⟨t, ht, -, hrest⟩ := hc.advance h
  exact ⟨c.advance, rfl, hrest, ht ▸ List.suffix_cons _ _⟩

lemma accept (h : Lexes cs l rest) : Takes (Parse.accept l) cs true rest := by
  intro c hc
  obtain ⟨t, ht, -, hrest⟩ := hc.advance h
  refine ⟨c.advance, ?_, hrest, ht ▸ List.suffix_cons _ _⟩
  rw [Parse.accept, if_pos (hc.lexemeAt_zero.trans h.first)]

lemma accept_other (h : firstLexeme cs ≠ l) : Takes (Parse.accept l) cs false cs := fun c hc =>
  ⟨c, by rw [Parse.accept, if_neg (hc.lexemeAt_zero ▸ h)], hc, List.suffix_refl _⟩

lemma expect (h : Lexes cs l rest) (what : String) : Takes (Parse.expect l what) cs () rest := by
  intro c hc
  obtain ⟨t, ht, -, hrest⟩ := hc.advance h
  refine ⟨c.advance, ?_, hrest, ht ▸ List.suffix_cons _ _⟩
  rw [Parse.expect, if_pos (hc.lexemeAt_zero.trans h.first)]

lemma hasWords_singleton {c : Cursor} (hc : c.At cs) (w : String) :
    c.hasWords [w] = (firstLexeme cs).isWord w := by
  rw [← hc.lexemeAt_zero]
  simp [Cursor.hasWords]

lemma acceptWord (h : Lexes cs l rest) (hw : l.isWord w = true) :
    Takes (Parse.acceptWord w) cs true rest := by
  intro c hc
  obtain ⟨t, ht, hmove, hrest⟩ := hc.advance h
  refine ⟨c.advance, ?_, hrest, ht ▸ List.suffix_cons _ _⟩
  rw [Parse.acceptWord, acceptWords, hasWords_singleton hc, h.first, if_pos hw, hmove]
  rfl

lemma acceptWord_other (h : (firstLexeme cs).isWord w = false) :
    Takes (Parse.acceptWord w) cs false cs := by
  refine fun c hc => ⟨c, ?_, hc, List.suffix_refl _⟩
  rw [Parse.acceptWord, acceptWords, hasWords_singleton hc, h]
  rfl

lemma keyword (h : Lexes cs l rest) (hw : l.isWord w = true) :
    Takes (Parse.keyword w) cs () rest := by
  intro c hc
  obtain ⟨t, ht, hmove, hrest⟩ := hc.advance h
  refine ⟨c.advance, ?_, hrest, ht ▸ List.suffix_cons _ _⟩
  rw [Parse.keyword, expectWord, hasWords_singleton hc, h.first, if_pos hw, hmove]

lemma atWord (cs : List Char) (w : String) :
    Takes (Parse.atWord w) cs ((firstLexeme cs).isWord w) cs := fun c hc =>
  ⟨c, by rw [Parse.atWord, hasWords_singleton hc], hc, List.suffix_refl _⟩

lemma upperWord? (cs : List Char) :
    Takes Parse.upperWord? cs (firstLexeme cs).upperWord? cs := by
  refine fun c hc => ⟨c, ?_, hc, List.suffix_refl _⟩
  rw [Parse.upperWord?, hc.lexemeAt_zero]
  cases firstLexeme cs <;> rfl

lemma taking {f : Lexeme → Option α} (h : Lexes cs l rest) (hf : f l = some a) (what : String) :
    Takes (Parse.taking f what) cs a rest := by
  intro c hc
  obtain ⟨t, ht, -, hrest⟩ := hc.advance h
  refine ⟨c.advance, ?_, hrest, ht ▸ List.suffix_cons _ _⟩
  simp only [Parse.taking, hc.lexemeAt_zero, h.first, hf]

/-! ### Repetition -/

lemma separated_last {item : Parse α} (h : Takes item cs a rest)
    (hrest : firstLexeme rest ≠ .comma) : Takes (separated item) cs [a] rest := by
  intro c hc
  obtain ⟨c₁, hok, hc₁, hsuffix⟩ := h c hc
  refine ⟨c₁, ?_, hc₁, hsuffix⟩
  rw [separated]
  simp only [hok]
  rw [if_neg (hc₁.lexemeAt_zero ▸ hrest)]

lemma separated_cons {item : Parse α} {as : List α} {next : List Char} (h : Takes item cs a mid)
    (hcomma : Lexes mid .comma next) (hlen : next.length < cs.length)
    (hnext : Takes (separated item) next as rest) : Takes (separated item) cs (a :: as) rest := by
  intro c hc
  obtain ⟨c₁, hok, hc₁, hsuffix⟩ := h c hc
  obtain ⟨t, ht, -, hc₂⟩ := hc₁.advance hcomma
  obtain ⟨c₃, hok₃, hc₃, hsuffix₃⟩ := hnext _ hc₂
  have hsuffix₂ : c₁.advance.ahead <:+ c.ahead := (ht ▸ List.suffix_cons _ _).trans hsuffix
  refine ⟨c₃, ?_, hc₃, hsuffix₃.trans hsuffix₂⟩
  rw [separated]
  simp only [hok]
  rw [if_pos (hc₁.lexemeAt_zero.trans hcomma.first), if_pos (hc.length_lt hc₂ hsuffix₂ hlen)]
  simp only [hok₃]

lemma repeated_last {step : σ → Parse (Option σ)} {s : σ} (h : Takes (step s) cs none rest) :
    Takes (repeated step s) cs s rest := by
  intro c hc
  obtain ⟨c₁, hok, hc₁⟩ := h c hc
  refine ⟨c₁, ?_, hc₁⟩
  rw [repeated]
  simp only [hok]

lemma repeated_cons {step : σ → Parse (Option σ)} {s s₁ s₂ : σ}
    (h : Takes (step s) cs (some s₁) mid) (hlen : mid.length < cs.length)
    (hnext : Takes (repeated step s₁) mid s₂ rest) : Takes (repeated step s) cs s₂ rest := by
  intro c hc
  obtain ⟨c₁, hok, hc₁, hsuffix⟩ := h c hc
  obtain ⟨c₂, hok₂, hc₂, hsuffix₂⟩ := hnext c₁ hc₁
  refine ⟨c₂, ?_, hc₂, hsuffix₂.trans hsuffix⟩
  rw [repeated]
  simp only [hok]
  rw [if_pos (hc.length_lt hc₁ hsuffix hlen), hok₂]

/-! ### Readers of one token -/

lemma string {s : String} (h : Lexes cs (.string s) rest) (what : String) :
    Takes (Parse.string what) cs s rest := by
  refine taking h ?_ what
  rfl

lemma identifier {n : String} (h : Lexes cs l rest) (hl : l = .word n ∨ l = .quotedName n)
    (what : String) : Takes (Parse.identifier what) cs n rest := by
  refine taking h ?_ what
  rcases hl with rfl | rfl <;> rfl

lemma name {n : String} (h : Lexes cs (nameLexeme n) rest) (what : String) :
    Takes (Parse.identifier what) cs n rest := by
  refine identifier h ?_ what
  by_cases hbare : Sql.isBareName n = true
  · exact .inl (if_pos hbare)
  · exact .inr (if_neg hbare)

lemma number {n : Nat} (hn : n ≤ Text.max32) (hrest : Neutral rest)
    (what : String) : Takes (Parse.number what) ((Text.decimal n).toList ++ rest) n rest :=
  taking (lexes_decimal n hrest) (readNat_decimal hn) what

lemma value {v : String} (h : Lexes cs l rest) (hl : l.IsValue v ∨ l = .string v) (what : String) :
    Takes (Parse.value what) cs v rest := by
  refine taking h ?_ what
  rcases hl with (rfl | rfl | rfl) | rfl <;> rfl

end Takes

/-! ### Steps that go on -/

/-- From the text `cs` the step goes on as the step `n` does from the text `mid`. -/
def Reaches {α : Type} (m : Parse α) (cs : List Char) (n : Parse α) (mid : List Char) : Prop :=
  ∀ c : Cursor, c.At cs → ∃ c' : Cursor, c'.At mid ∧ c'.ahead <:+ c.ahead ∧ m c = n c'

namespace Reaches

variable {α β : Type} {cs mid rest : List Char} {a : α} {b : β} {n : Parse β}

lemma refl (m : Parse α) (cs : List Char) : Reaches m cs m cs := fun c hc =>
  ⟨c, hc, List.suffix_refl _, rfl⟩

lemma bind {m : Parse α} {f : α → Parse β} (hm : Takes m cs a mid)
    (hf : Reaches (f a) mid n rest) : Reaches (m >>= f) cs n rest := by
  intro c hc
  obtain ⟨c₁, hok, hc₁, hsuffix⟩ := hm c hc
  obtain ⟨c₂, hc₂, hsuffix₂, heq⟩ := hf c₁ hc₁
  refine ⟨c₂, hc₂, hsuffix₂.trans hsuffix, ?_⟩
  rw [← heq]
  simp [Bind.bind, StateT.bind, Except.bind, hok]

lemma get_bind {f : Cursor → Parse β} (hf : ∀ c, c.At cs → Reaches (f c) cs n rest) :
    Reaches (get >>= f) cs n rest := fun c hc => hf c hc c hc

lemma takes {m n : Parse α} (h : Reaches m cs n mid) (hn : Takes n mid a rest) :
    Takes m cs a rest := by
  intro c hc
  obtain ⟨c₁, hc₁, hsuffix, heq⟩ := h c hc
  obtain ⟨c₂, hok, hc₂, hsuffix₂⟩ := hn c₁ hc₁
  exact ⟨c₂, heq ▸ hok, hc₂, hsuffix₂.trans hsuffix⟩

end Reaches

end Parse

end SchemaDrift
