import Mathlib
import SchemaDrift.Proofs.Taking

/-!
Texts in parentheses. Which parenthesis closes a group is settled by what the tokens are, so the
text of a group that was read, put between parentheses again, is read as the same text: its tokens
are the same, unless a line comment in it went on to the end of a line.
-/

namespace SchemaDrift

open Text (isBlank trim)

/-! ### Depth -/

/-- The number of open parentheses after a token inside a group, if the token is inside. -/
def Lexeme.inside? (depth : Nat) : Lexeme → Option Nat
  | .ending => none
  | .openParen => some (depth + 1)
  | .closeParen => if depth = 0 then none else some (depth - 1)
  | _ => some depth

/-- The tokens close what they open, and no more. -/
def Closed (ls : List Lexeme) : Prop := ls.foldlM Lexeme.inside? 0 = some 0

namespace Parse

lemma closing_of_inside {depth d : Nat} {t : Token} (h : t.lexeme.inside? depth = some d)
    (rest : List Token) : closing depth (t :: rest) =
      (closing d rest).map fun (inner, close, rest) => (t :: inner, close, rest) := by
  rcases hl : t.lexeme <;> rw [hl] at h <;> rcases depth with _ | depth <;>
    simp [Lexeme.inside?] at h <;> subst h <;> simp [closing, hl]

lemma closing_of_outside {depth : Nat} {t : Token} (h : t.lexeme.inside? depth = none)
    (rest : List Token) :
    closing depth (t :: rest) = if t.lexeme = .closeParen then some ([], t, rest) else none := by
  rcases hl : t.lexeme <;> rw [hl] at h <;> rcases depth with _ | depth <;>
    simp [Lexeme.inside?] at h <;> simp [closing, hl]

lemma closing_eq_some_iff {depth : Nat} {ts inner rest : List Token} {close : Token} :
    closing depth ts = some (inner, close, rest) ↔ ts = inner ++ close :: rest ∧
      close.lexeme = .closeParen ∧
      (inner.map (·.lexeme)).foldlM Lexeme.inside? depth = some 0 := by
  induction ts generalizing depth inner with
  | nil => simp [closing]
  | cons t ts ih =>
    rcases hinside : t.lexeme.inside? depth with _ | d
    · rw [closing_of_outside hinside]
      rcases inner with _ | ⟨u, inner⟩
      · have hdepth : t.lexeme = .closeParen → depth = 0 := fun hclose => by
          simpa [hclose, Lexeme.inside?] using hinside
        by_cases hclose : t.lexeme = .closeParen
        · simp [hclose, hdepth hclose]
          grind
        · simp [hclose]
          grind
      · simp
        grind
    · rw [closing_of_inside hinside]
      rcases inner with _ | ⟨u, inner⟩
      · have hdepth : t.lexeme = .closeParen → depth ≠ 0 := fun hclose => by
          rintro rfl
          simp [hclose, Lexeme.inside?] at hinside
        simp
        grind
      · simp [ih]
        grind

/-- A group among tokens. -/
structure Group (ts : List Token) (opening : Token) (inner : List Token) (close : Token)
    (rest : List Token) : Prop where
  eq : ts = opening :: (inner ++ close :: rest)
  opening : opening.lexeme = .openParen
  closed : Closed (inner.map (·.lexeme))
  close : close.lexeme = .closeParen

lemma Group.balanced_eq {c : Cursor} {opening close : Token} {inner rest : List Token}
    (h : Group c.ahead opening inner close rest) : balanced c =
      .ok (String.ofList (trim (Token.spelling inner ++ close.gap)),
        ⟨close :: inner.reverse ++ opening :: c.behind, rest⟩) := by
  have hopen : c.lexemeAt 0 = .openParen := by
    rw [Cursor.lexemeAt, h.eq]
    exact h.opening
  have hadvance : c.advance = ⟨opening :: c.behind, inner ++ close :: rest⟩ := by
    rw [Cursor.advance, h.eq]
    exact if_neg (by rw [h.opening]; simp)
  have hclosing : closing 0 (inner ++ close :: rest) = some (inner, close, rest) :=
    closing_eq_some_iff.2 ⟨rfl, h.close, h.closed⟩
  simp only [balanced, expect, hopen, if_true, hadvance, bind, StateT.bind, get, getThe,
    MonadStateOf.get, StateT.get, Except.bind, pure, Except.pure, hclosing, set, StateT.set,
    StateT.pure]

lemma Group.of_balanced {c c' : Cursor} {s : String} (h : balanced c = .ok (s, c')) :
    ∃ opening inner close, Group c.ahead opening inner close c'.ahead ∧
      s.toList = trim (Token.spelling inner ++ close.gap) := by
  rcases hahead : c.ahead with _ | ⟨opening, ts⟩
  · simp [balanced, expect, bind, StateT.bind, Except.bind, Cursor.lexemeAt, hahead] at h
  · have hnext : c.lexemeAt 0 = opening.lexeme := by
      rw [Cursor.lexemeAt, hahead]
      rfl
    by_cases hopen : opening.lexeme = .openParen
    · have hadvance : c.advance = ⟨opening :: c.behind, ts⟩ := by
        rw [Cursor.advance, hahead]
        exact if_neg (by rw [hopen]; simp)
      simp only [balanced, expect, hnext, hopen, if_true, hadvance, bind, StateT.bind, get, getThe,
        MonadStateOf.get, StateT.get, Except.bind, pure, Except.pure] at h
      rcases hclosing : closing 0 ts with _ | ⟨inner, close, rest⟩
      · simp [hclosing] at h
      · simp only [hclosing] at h
        obtain ⟨rfl, hclose, hclosed⟩ := closing_eq_some_iff.1 hclosing
        obtain ⟨rfl, rfl⟩ := Prod.mk.inj (Except.ok.inj h)
        exact ⟨opening, inner, close, ⟨rfl, hopen, hclosed, hclose⟩, String.toList_ofList⟩
    · simp [balanced, expect, bind, StateT.bind, Except.bind, hnext, hopen] at h

end Parse

/-! ### Groups -/

/-- The text reads as the tokens before every text that none of them goes on with, and `g` after
them is a gap. -/
structure Respells (s : List Char) (ls : List Lexeme) (g : List Char) : Prop where
  run : ∀ rest, Neutral rest →
    LexRun (s ++ rest) ls (g ++ rest)
  gap : ∀ rest, dropGap .blanks (g ++ rest) = dropGap .blanks rest

/-- The text is read as the same text between parentheses. -/
def IsGroup (s : String) : Prop :=
  trim s.toList = s.toList ∧ ∃ ls g, Closed ls ∧ Respells s.toList ls g

lemma not_ending_of_closed {ls : List Lexeme} {d : Nat} (h : ls.foldlM Lexeme.inside? d = some 0) :
    .ending ∉ ls := by
  induction ls generalizing d with
  | nil => exact List.not_mem_nil
  | cons l ls ih =>
    rw [List.foldlM_cons] at h
    obtain ⟨d', hl, hls⟩ := Option.bind_eq_some_iff.1 h
    refine fun hmem => (List.mem_cons.1 hmem).elim (fun hend => ?_) (ih hls)
    rw [← hend] at hl
    cases hl

lemma consumed_append_right (g rest : List Char) : consumed (g ++ rest) rest = g := by
  simp [consumed]

lemma Respells.tokens {s g : List Char} {ls : List Lexeme} (h : Respells s ls g) (start : Nat)
    (rest : List Char) : ∃ ts close start', close.lexeme = .closeParen ∧ close.gap = g ∧
      tokensFrom start (s ++ ')' :: rest) = ts ++ close :: tokensFrom start' rest ∧
      ts.map (·.lexeme) = ls ∧ Token.spelling ts ++ g = s := by
  have hneutral : Neutral (')' :: rest) := neutral_cons (by decide) rest
  obtain ⟨ts, start₁, hts, hls⟩ := tokens_of_lexRun (h.run _ hneutral) start
  have hclose : dropGap .blanks (g ++ ')' :: rest) = ')' :: rest := by
    rw [h.gap, (startsToken_of_notMem (by decide) (by decide) rest).dropGap]
  obtain ⟨start₂, start', hcons⟩ := tokensFrom_of_cons start₁ hclose
  have hspelling := congrArg Token.spelling hts
  rw [spelling_tokensFrom, spelling_append, spelling_tokensFrom, ← List.append_assoc] at hspelling
  rw [hcons] at hts
  refine ⟨ts, _, start', ?_, consumed_append_right _ _, hts, hls, ?_⟩
  · rfl
  · exact (List.append_cancel_right hspelling).symm

theorem IsGroup.takes {s : String} (h : IsGroup s) {cs rest : List Char}
    (hopen : Lexes cs .openParen (s.toList ++ ')' :: rest)) :
    Parse.Takes Parse.balanced cs s rest := by
  intro c hc
  obtain ⟨htrim, ls, g, hclosed, hrespells⟩ := h
  obtain ⟨opening, hopening, -, start, hstart⟩ := hc.advance hopen
  obtain ⟨ts, close, start', hclose, hgap, hts, hls, hspelling⟩ := hrespells.tokens start rest
  have hlexeme : opening.lexeme = .openParen := by
    rw [← hopen.first, ← hc.lexemeAt_zero, Cursor.lexemeAt, hopening]
    rfl
  have hahead : c.ahead = opening :: (ts ++ close :: tokensFrom start' rest) := by
    rw [hopening, hstart, hts]
  have hgroup : Parse.Group c.ahead opening ts close (tokensFrom start' rest) :=
    ⟨hahead, hlexeme, hls ▸ hclosed, hclose⟩
  refine ⟨⟨close :: ts.reverse ++ opening :: c.behind, tokensFrom start' rest⟩, ?_,
    ⟨start', rfl⟩, ?_⟩
  · rw [hgroup.balanced_eq, hgap, hspelling, htrim, String.ofList_toList]
  · rw [hahead]
    exact ⟨opening :: (ts ++ [close]), by simp⟩

/-! ### Groups that were read -/

lemma trim_trim (cs : List Char) : trim (trim cs) = trim cs := by
  have hstart : (trim cs).dropWhile isBlank = trim cs := by
    rw [List.dropWhile_eq_self_iff]
    intro hlen hblank
    have hstarts : trim cs <+: cs.dropWhile isBlank := List.rdropWhile_prefix isBlank _
    rw [hstarts.getElem hlen] at hblank
    have hlen' := hlen.trans_le hstarts.length_le
    have hhead := List.dropWhile_get_zero_not isBlank cs hlen'
    simp_all
  rw [trim, hstart]
  exact List.rdropWhile_idempotent isBlank _

lemma OpensNoLine.blanks_append {b w : List Char} (hb : ∀ c ∈ b, isBlank c = true)
    (hw : OpensNoLine w) : OpensNoLine (b ++ w) := by
  induction b with
  | nil => exact hw
  | cons c b ih =>
    have hblank := hb c List.mem_cons_self
    have htail := ih fun d hd => hb d (.tail _ hd)
    refine ⟨fun hmem => ?_, fun hdashes => ?_⟩
    · rcases List.mem_cons.1 hmem with rfl | hmem
      · cases hblank
      · exact htail.1 hmem
    · rcases List.infix_cons_iff.1 hdashes with hdashes | hdashes
      · obtain ⟨v, hv⟩ := hdashes
        obtain rfl := (List.cons.inj hv).1
        cases hblank
      · exact htail.2 hdashes

lemma exists_respells_trim {v g more : List Char} {d : Char} {ls : List Lexeme}
    (hgap : dropGap .blanks (g ++ d :: more) = d :: more)
    (hrun : LexRun (v ++ g ++ d :: more) ls (g ++ d :: more))
    (hplain : OpensNoLine (trim (v ++ g))) : ∃ g', Respells (trim (v ++ g)) ls g' := by
  have hmalformed := hrun.not_malformed (by simp)
  obtain ⟨g₁, hg₁, -, hgaps⟩ := exists_gap hgap
  obtain rfl := List.append_cancel_right hg₁
  obtain ⟨b, b', htrim, hb, hb'⟩ := exists_trim (v ++ g)
  generalize trim (v ++ g) = w at hplain htrim
  rcases ls with _ | ⟨l, ls⟩
  · -- There are no tokens, so all that is kept is part of the gap.
    generalize hcs : v ++ g ++ d :: more = cs at hrun
    generalize hrest : g ++ d :: more = rest at hrun
    cases hrun with
    | nil =>
      have hv : v = [] := by simpa using hcs.trans hrest.symm
      rw [hv, List.nil_append] at htrim
      refine ⟨w, ⟨fun rest _ => .nil _, fun rest => ?_⟩⟩
      have hdrop := hgaps (by simp) (b ++ w) b' htrim hb' (hplain.blanks_append hb) rest
      rwa [List.append_assoc, dropGap_blanks_append hb] at hdrop
  · rw [htrim, List.append_assoc, List.append_assoc] at hrun
    have hrun := hrun.congr_gap (dropGap_blanks_append hb _).symm
    obtain ⟨u, e, hlast, he⟩ := hrun.exists_last hmalformed
    have hlast : w ++ b' = u ++ e :: g := by
      rw [← List.append_assoc, ← List.cons_append, ← List.append_assoc] at hlast
      exact List.append_cancel_right hlast
    obtain ⟨g', rfl, rfl⟩ := exists_append_of_append hlast hb' he
    have hrun : LexRun (u ++ e :: g' ++ (b' ++ d :: more)) (l :: ls) (g' ++ (b' ++ d :: more)) := by
      simpa only [List.append_assoc, List.cons_append] using hrun
    refine ⟨g', ⟨fun rest hrest => hrun.transfer hmalformed hplain hrest, fun rest => ?_⟩⟩
    exact hgaps (by simp) g' b' rfl hb' (hplain.of_infix ⟨u ++ [e], [], by simp⟩) rest

/-- **A text that was read between parentheses is a group again.** -/
theorem isGroup_of_balanced {c c' : Cursor} {cs : List Char} {s : String} (hc : c.At cs)
    (h : Parse.balanced c = .ok (s, c')) :
    (∃ rest, c'.At rest) ∧ (OpensNoLine s.toList → IsGroup s) := by
  obtain ⟨opening, inner, close, hgroup, hs⟩ := Parse.Group.of_balanced h
  obtain ⟨start, hstart⟩ := hc
  -- The texts after the opening parenthesis, from the closing one on, and after that one.
  have hahead : tokensFrom start cs = [opening] ++ (inner ++ close :: c'.ahead) :=
    hstart.symm.trans hgroup.eq
  obtain ⟨start₁, cs₁, hcs₁, -, -⟩ := exists_lexRun_of_tokens hahead (by simp [hgroup.opening])
  obtain ⟨start₂, cs₂, hcs₂, hspelling, hrun⟩ := exists_lexRun_of_tokens hcs₁.symm
    fun t ht hend => not_ending_of_closed hgroup.closed (hend ▸ List.mem_map_of_mem ht)
  have hclose : tokensFrom start₂ cs₂ = [close] ++ c'.ahead := hcs₂.symm
  obtain ⟨start₃, cs₃, hcs₃, -, -⟩ := exists_lexRun_of_tokens hclose (by simp [hgroup.close])
  refine ⟨⟨cs₃, start₃, hcs₃⟩, fun hplain => ?_⟩
  rcases hdrop : dropGap .blanks cs₂ with _ | ⟨d, more⟩
  · rw [tokensFrom_of_nil start₂ hdrop] at hclose
    have hlexeme := hgroup.close
    rw [← (List.cons.inj hclose).1] at hlexeme
    cases hlexeme
  · obtain ⟨_, _, hcons⟩ := tokensFrom_of_cons start₂ hdrop
    have hgap : close.gap ++ d :: more = cs₂ := by
      rw [hcons] at hclose
      rw [← (List.cons.inj hclose).1, ← hdrop]
      exact consumed_append (dropGap_suffix .blanks cs₂)
    rw [hspelling, ← hgap, ← List.append_assoc] at hrun
    rw [hs] at hplain
    rw [← hgap] at hdrop
    obtain ⟨g, hrespells⟩ := exists_respells_trim hdrop hrun hplain
    refine ⟨?_, _, g, hgroup.closed, ?_⟩
    · rw [hs, trim_trim]
    · rwa [hs]

end SchemaDrift
