import Mathlib
import SchemaDrift.Proofs.WrittenToken

/-!
A run of tokens is read alike in another place. Where it ends in a line comment the line has to end
alike; a text without `#` and without two dashes in a row has no such comments, and its tokens only
need to be followed by a character that goes on with none.
-/

namespace SchemaDrift

open Text (isBlank)

/-- The text opens no line comment. -/
def OpensNoLine (w : List Char) : Prop := '#' ∉ w ∧ ¬ ['-', '-'] <:+: w

lemma OpensNoLine.of_infix {u w : List Char} (h : OpensNoLine w) (hu : u <:+: w) : OpensNoLine u :=
  ⟨fun hmem => h.1 (hu.subset hmem), fun hdashes => h.2 (hdashes.trans hu)⟩

/-! ### Gaps -/

lemma exists_cons_of_append {g g' b : List Char} {c : Char} (h : c :: g = g' ++ b)
    (hb : ∀ d ∈ b, isBlank d = true) (hc : isBlank c = false) :
    ∃ g₂, g' = c :: g₂ ∧ g = g₂ ++ b := by
  rcases g' with _ | ⟨d, g'⟩
  · have hblank := hb c (by rw [List.nil_append] at h; rw [← h]; exact List.mem_cons_self)
    rw [hc] at hblank
    cases hblank
  · obtain ⟨rfl, rfl⟩ := List.cons.inj h
    exact ⟨g', rfl, rfl⟩

/-- `g` leads through the gap, in the mode `m`, before every text, also without blanks at its end.
Nothing is said of what opens a line comment, which the end of a line would have to close. -/
def LeadsThrough (m : GapMode) (g : List Char) : Prop :=
  ∀ g' b, g = g' ++ b → (∀ d ∈ b, isBlank d = true) → OpensNoLine g' →
    ∀ x, dropGap m (g' ++ x) = dropGap .blanks x

namespace LeadsThrough

variable {g : List Char} {c d : Char}

lemma nil : LeadsThrough .blanks [] := by
  intro g' b hg _ _ x
  rw [(List.append_eq_nil_iff.1 hg.symm).1, List.nil_append]

lemma hash {m : GapMode} (g : List Char) : LeadsThrough m ('#' :: g) := by
  intro g' b hg hb hplain
  obtain ⟨g₁, rfl, -⟩ := exists_cons_of_append hg hb (by decide)
  exact absurd List.mem_cons_self hplain.1

lemma dashes {m : GapMode} (g : List Char) : LeadsThrough m ('-' :: '-' :: g) := by
  intro g' b hg hb hplain
  obtain ⟨g₁, rfl, hg₁⟩ := exists_cons_of_append hg hb (by decide)
  obtain ⟨g₂, rfl, -⟩ := exists_cons_of_append hg₁ hb (by decide)
  exact absurd ⟨[], g₂, rfl⟩ hplain.2

lemma mark {m m' : GapMode} (h : LeadsThrough m' g) (hc : isBlank c = false)
    (hd : isBlank d = false) (hdrop : ∀ x, dropGap m (c :: d :: x) = dropGap m' x) :
    LeadsThrough m (c :: d :: g) := by
  intro g' b hg hb hplain x
  obtain ⟨g₁, rfl, hg₁⟩ := exists_cons_of_append hg hb hc
  obtain ⟨g₂, rfl, hg₂⟩ := exists_cons_of_append hg₁ hb hd
  rw [List.cons_append, List.cons_append, hdrop]
  exact h g₂ b hg₂ hb (hplain.of_infix ⟨[c, d], [], by simp⟩) x

lemma blank (h : LeadsThrough .blanks g) (hc : isBlank c = true) :
    LeadsThrough .blanks (c :: g) := by
  intro g' b hg hb hplain x
  rcases g' with _ | ⟨e, g'⟩
  · rfl
  · obtain ⟨rfl, rfl⟩ := List.cons.inj hg
    rw [List.cons_append, dropGap_of_isBlank hc]
    exact h g' b rfl hb (hplain.of_infix (List.suffix_cons ..).isInfix) x

/-- The comment goes on. It is closed within the gap, so not by blanks. -/
lemma within (h : LeadsThrough .block g) (hslash : '/' ∈ g)
    (hopen : ∀ more, c = '*' → g ≠ '/' :: more) : LeadsThrough .block (c :: g) := by
  intro g' b hg hb hplain x
  have hslash' : '/' ∉ b := by
    intro hmem
    have hblank := hb '/' hmem
    cases hblank
  rcases g' with _ | ⟨e, g'⟩
  · rw [List.nil_append] at hg
    exact absurd (hg ▸ List.mem_cons_of_mem c hslash) hslash'
  · obtain ⟨rfl, rfl⟩ := List.cons.inj hg
    have hmem : '/' ∈ g' := (List.mem_append.1 hslash).resolve_right hslash'
    have hopen' : ∀ more, c = '*' → g' ++ x = '/' :: more → False := by
      intro more hc hmore
      obtain ⟨e, g₁, rfl⟩ := List.exists_cons_of_ne_nil (List.ne_nil_of_mem hmem)
      obtain ⟨rfl, -⟩ := List.cons.inj hmore
      exact hopen _ hc rfl
    rw [List.cons_append, dropGap.eq_9 _ _ hopen']
    exact h g' b rfl hb (hplain.of_infix (List.suffix_cons ..).isInfix) x

end LeadsThrough

/-- **What stands before a token leads through the gap.** -/
lemma exists_gap {m : GapMode} {cs : List Char} {c : Char} {more : List Char}
    (h : dropGap m cs = c :: more) : ∃ g, cs = g ++ c :: more ∧ (m = .block → '/' ∈ g) ∧
      (m ≠ .line → LeadsThrough m g) := by
  fun_induction dropGap m cs with
  | case1 => cases h
  | case2 rest ih =>
    -- A line comment says nothing of the mode that follows it.
    obtain ⟨g, rfl, -, -⟩ := ih h
    exact ⟨'#' :: g, rfl, by simp, fun _ => .hash g⟩
  | case3 rest hopens ih =>
    obtain ⟨g, rfl, -, -⟩ := ih h
    exact ⟨'-' :: '-' :: g, rfl, by simp, fun _ => .dashes g⟩
  | case4 rest hopens => exact ⟨[], h, by simp, fun _ => .nil⟩
  | case5 rest ih =>
    -- the opening of a block comment
    obtain ⟨g, rfl, -, hgap⟩ := ih h
    refine ⟨'/' :: '*' :: g, rfl, by simp, fun _ => ?_⟩
    exact (hgap (by simp)).mark (by decide) (by decide) fun x => by rw [dropGap]
  | case6 d rest _ _ _ hblank ih =>
    obtain ⟨g, rfl, -, hgap⟩ := ih h
    exact ⟨d :: g, rfl, by simp, fun _ => (hgap (by simp)).blank hblank⟩
  | case7 d rest _ _ _ hblank => exact ⟨[], h, by simp, fun _ => .nil⟩
  | case8 rest ih =>
    obtain ⟨g, rfl, -, -⟩ := ih h
    exact ⟨'\n' :: g, rfl, by simp, fun hm => absurd rfl hm⟩
  | case9 d rest _ ih =>
    obtain ⟨g, rfl, -, -⟩ := ih h
    exact ⟨d :: g, rfl, by simp, fun hm => absurd rfl hm⟩
  | case10 rest ih =>
    -- the closing of a block comment
    obtain ⟨g, rfl, -, hgap⟩ := ih h
    refine ⟨'*' :: '/' :: g, rfl, by simp, fun _ => ?_⟩
    exact (hgap (by simp)).mark (by decide) (by decide) fun x => by rw [dropGap]
  | case11 d rest hclose ih =>
    -- Within a block comment: its closing is still to come, so there is a slash ahead.
    obtain ⟨g, rfl, hslash, hgap⟩ := ih h
    refine ⟨d :: g, rfl, fun _ => List.mem_cons_of_mem _ (hslash rfl), fun _ => ?_⟩
    refine (hgap (by simp)).within (hslash rfl) fun more' hd hg => ?_
    exact hclose _ hd (by rw [hg, List.cons_append])

/-! ### The last character of a token -/

lemma isBlank_of_isWordChar {c : Char} (h : isWordChar c = true) : isBlank c = false :=
  (startsToken_of_isWordChar h []).blank

lemma exists_last_of_read {c : Char} {more rest : List Char} {l : Lexeme}
    (h : Lexeme.read c more = (l, rest)) (hl : ∀ reason, l ≠ .malformed reason)
    (hc : isBlank c = false) : ∃ u d, c :: more = u ++ d :: rest ∧ isBlank d = false := by
  have hreads := reads_read c more
  rw [h] at hreads
  generalize hr : (l, rest) = r at hreads
  cases hreads with
  | punctuation _ | other _ _ _ =>
    obtain ⟨rfl, rfl⟩ := Prod.mk.inj hr
    exact ⟨[], c, rfl, hc⟩
  | name _ hname =>
    obtain ⟨rfl, rfl⟩ := Prod.mk.inj hr
    obtain ⟨w, -, rfl, -⟩ := spells_of_readQuotedName hname
    exact ⟨c :: w, _, rfl, by decide⟩
  | string hquote hstring =>
    obtain ⟨rfl, rfl⟩ := Prod.mk.inj hr
    obtain ⟨w, -, rfl, -⟩ := spells_of_readString hstring
    exact ⟨c :: w, c, rfl, hc⟩
  | @literal _ inner _ _ hmore =>
    obtain ⟨rfl, rfl⟩ := Prod.mk.inj hr
    exact ⟨c :: '\x27' :: inner, '\x27', by rw [hmore]; rfl, by decide⟩
  | openName | openString | openLiteral => exact absurd (Prod.mk.inj hr).1 (hl _)
  | word hword _ =>
    obtain ⟨w, rfl, hw, -⟩ := readWord_local hword hr.symm
    rcases List.eq_nil_or_concat w with rfl | ⟨u, d, rfl⟩
    · exact ⟨[], c, rfl, hc⟩
    · refine ⟨c :: u, d, by simp, ?_⟩
      rcases hw d (by simp) with hd | rfl
      · exact isBlank_of_isWordChar hd
      · decide

/-! ### Runs -/

/-- The text starts with the tokens `ls`, and `rest` follows them. -/
inductive LexRun : List Char → List Lexeme → List Char → Prop where
  | nil (cs : List Char) : LexRun cs [] cs
  | cons {cs mid rest : List Char} {l : Lexeme} {ls : List Lexeme} (htoken : Lexes cs l mid)
      (hrest : LexRun mid ls rest) : LexRun cs (l :: ls) rest

lemma Lexes.suffix {cs rest : List Char} {l : Lexeme} (h : Lexes cs l rest) : rest <:+ cs := by
  obtain ⟨c, more, hdrop, hread⟩ := h
  have hsuffix := Lexeme.read_suffix c more
  rw [hread] at hsuffix
  exact (hsuffix.trans (List.suffix_cons c more)).trans (hdrop ▸ dropGap_suffix .blanks cs)

lemma Lexes.length_lt {cs rest : List Char} {l : Lexeme} (h : Lexes cs l rest) :
    rest.length < cs.length := by
  obtain ⟨c, more, hdrop, hread⟩ := h
  have hrest := (Lexeme.read_suffix c more).length_le
  have hmore := (dropGap_suffix .blanks cs).length_le
  rw [hread] at hrest
  rw [hdrop, List.length_cons] at hmore
  exact lt_of_le_of_lt hrest hmore

lemma LexRun.suffix {cs rest : List Char} {ls : List Lexeme} (h : LexRun cs ls rest) :
    rest <:+ cs := by
  induction h with
  | nil => exact List.suffix_refl _
  | cons htoken _ ih => exact ih.trans htoken.suffix

lemma LexRun.first {cs rest : List Char} {l : Lexeme} {ls : List Lexeme}
    (h : LexRun cs (l :: ls) rest) : firstLexeme cs = l := by
  obtain _ | ⟨htoken, -⟩ := h
  exact htoken.first

lemma LexRun.lexemes_eq {cs rest : List Char} {ls : List Lexeme} (h : LexRun cs ls rest) :
    lexemes cs = ls ++ lexemes rest := by
  induction h with
  | nil => rfl
  | cons htoken _ ih => rw [htoken.lexemes_eq, ih, List.cons_append]

lemma LexRun.append {cs mid rest : List Char} {ls ms : List Lexeme} (h : LexRun cs ls mid)
    (h' : LexRun mid ms rest) : LexRun cs (ls ++ ms) rest := by
  induction h with
  | nil => exact h'
  | cons htoken _ ih => exact .cons htoken (ih h')

lemma LexRun.single {cs rest : List Char} {l : Lexeme} (h : Lexes cs l rest) :
    LexRun cs [l] rest := .cons h (.nil rest)

lemma StartsToken.transfer {c : Char} {w h h' : List Char} (hstarts : StartsToken c (w ++ h))
    (hw : OpensNoLine (c :: w)) (hh : Neutral h') :
    StartsToken c (w ++ h') := by
  refine ⟨hstarts.blank, hstarts.hash, fun hc rest hrest => ?_, fun hc hstar => ?_⟩
  · rcases w with _ | ⟨d, v⟩
    · have hneutral := hh '-' (by rw [← List.nil_append h', hrest]; rfl)
      simp [isNeutral] at hneutral
    · obtain ⟨rfl, -⟩ := List.cons.inj hrest
      exact absurd ⟨[], v, by rw [hc]; rfl⟩ hw.2
  · rcases w with _ | ⟨d, v⟩
    · have hneutral := hh '*' hstar
      simp [isNeutral] at hneutral
    · exact hstarts.slash hc hstar

/-- A token between `w` and `w'` is one before all texts with which no token goes on. -/
lemma Lexes.transfer {w w' h h' : List Char} {l : Lexeme} (htoken : Lexes (w ++ h) l (w' ++ h))
    (hl : ∀ reason, l ≠ .malformed reason) (hw : OpensNoLine w)
    (hh : Neutral h') :
    Lexes (w ++ h') l (w' ++ h') ∧ w' <:+ w := by
  obtain ⟨c, more, hdrop, hread⟩ := htoken
  obtain ⟨g, hg, -, hgap⟩ := exists_gap hdrop
  obtain ⟨u, rfl, hu⟩ := read_local hread hl
  obtain rfl : w = g ++ c :: (u ++ w') := by
    have hsame : w ++ h = (g ++ c :: (u ++ w')) ++ h := by simpa using hg
    exact List.append_cancel_right hsame
  refine ⟨⟨c, u ++ (w' ++ h'), ?_, hu _ (.append_left w' hh)⟩, ⟨g ++ c :: u, by simp⟩⟩
  have hstarts := startsToken_of_dropGap hdrop
  rw [← List.append_assoc] at hstarts ⊢
  have hplain : OpensNoLine g := hw.of_infix ⟨[], c :: (u ++ w'), by simp⟩
  rw [List.append_assoc, List.cons_append, hgap (by simp) g [] (by simp) (by simp) hplain]
  exact (hstarts.transfer (hw.of_infix (List.suffix_append ..).isInfix) hh).dropGap

/-- **A run of tokens is one in other places** that no token goes on with. -/
theorem LexRun.transfer {w g h h' : List Char} {ls : List Lexeme}
    (hrun : LexRun (w ++ h) ls (g ++ h)) (hls : ∀ reason, .malformed reason ∉ ls)
    (hw : OpensNoLine w) (hh : Neutral h') :
    LexRun (w ++ h') ls (g ++ h') := by
  induction ls generalizing w with
  | nil =>
    generalize hcs : w ++ h = cs at hrun
    generalize hrest : g ++ h = rest at hrun
    cases hrun with
    | nil =>
      obtain rfl := List.append_cancel_right (hcs.trans hrest.symm)
      exact .nil _
  | cons l ls ih =>
    obtain _ | ⟨htoken, hrest⟩ := hrun
    rename_i mid
    obtain ⟨u, rfl⟩ := hrest.suffix
    rw [← List.append_assoc] at htoken hrest
    obtain ⟨htoken', hsuffix⟩ := htoken.transfer
      (fun reason hl => hls reason (hl ▸ List.mem_cons_self)) hw hh
    refine .cons htoken' (ih hrest (fun reason hmem => hls reason (.tail _ hmem)) ?_)
    exact hw.of_infix hsuffix.isInfix

lemma LexRun.congr_gap {cs cs' rest : List Char} {l : Lexeme} {ls : List Lexeme}
    (h : LexRun cs (l :: ls) rest) (hgap : dropGap .blanks cs' = dropGap .blanks cs) :
    LexRun cs' (l :: ls) rest := by
  obtain _ | ⟨⟨c, more, hdrop, hread⟩, hrest⟩ := h
  exact .cons ⟨c, more, hgap.trans hdrop, hread⟩ hrest

/-! ### Runs of a scanned text -/

lemma spelling_append (ts us : List Token) :
    Token.spelling (ts ++ us) = Token.spelling ts ++ Token.spelling us := List.flatMap_append

lemma exists_lexRun_of_tokens {cs : List Char} {ts us : List Token} {start : Nat}
    (h : tokensFrom start cs = ts ++ us) (hts : ∀ t ∈ ts, t.lexeme ≠ .ending) :
    ∃ start' rest, us = tokensFrom start' rest ∧ cs = Token.spelling ts ++ rest ∧
      LexRun cs (ts.map (·.lexeme)) rest := by
  have hspelling := congrArg Token.spelling h
  rw [spelling_tokensFrom, spelling_append] at hspelling
  obtain ⟨start', rest, rfl, hrun⟩ : ∃ start' rest, us = tokensFrom start' rest ∧
      LexRun cs (ts.map (·.lexeme)) rest := by
    clear hspelling
    induction ts generalizing cs start with
    | nil => exact ⟨start, cs, h.symm, .nil cs⟩
    | cons t ts ih =>
      rcases hdrop : dropGap .blanks cs with _ | ⟨c, more⟩
      · rw [tokensFrom_of_nil start hdrop] at h
        obtain ⟨rfl, -⟩ := List.cons.inj h
        exact absurd rfl (hts _ List.mem_cons_self)
      · obtain ⟨start₁, start₂, hcons⟩ := tokensFrom_of_cons start hdrop
        rw [hcons, List.cons_append] at h
        obtain ⟨rfl, hrest⟩ := List.cons.inj h
        obtain ⟨start', rest, rfl, hrun⟩ := ih hrest fun t ht => hts t (.tail _ ht)
        exact ⟨start', rest, rfl, .cons ⟨c, more, hdrop, rfl⟩ hrun⟩
  rw [spelling_tokensFrom] at hspelling
  exact ⟨start', rest, rfl, hspelling, hrun⟩

lemma tokens_of_lexRun {cs rest : List Char} {ls : List Lexeme} (h : LexRun cs ls rest)
    (start : Nat) : ∃ ts start', tokensFrom start cs = ts ++ tokensFrom start' rest ∧
      ts.map (·.lexeme) = ls := by
  induction h generalizing start with
  | nil cs => exact ⟨[], start, rfl, rfl⟩
  | cons htoken _ ih =>
    obtain ⟨c, more, hdrop, hread⟩ := htoken
    obtain ⟨start₁, start₂, hcons⟩ := tokensFrom_of_cons start hdrop
    rw [hread] at hcons
    obtain ⟨ts, start', hts, hls⟩ := ih start₂
    rw [hts, ← List.cons_append] at hcons
    exact ⟨_, start', hcons, congrArg (_ :: ·) hls⟩

lemma Lexes.exists_last {cs rest : List Char} {l : Lexeme} (h : Lexes cs l rest)
    (hl : ∀ reason, l ≠ .malformed reason) :
    ∃ u d, cs = u ++ d :: rest ∧ isBlank d = false := by
  obtain ⟨c, more, hdrop, hread⟩ := h
  obtain ⟨u, d, hu, hd⟩ := exists_last_of_read hread hl (startsToken_of_dropGap hdrop).blank
  obtain ⟨g, hg⟩ := dropGap_suffix .blanks cs
  exact ⟨g ++ u, d, by rw [← hg, hdrop, hu, List.append_assoc], hd⟩

lemma LexRun.exists_last {cs rest : List Char} {l : Lexeme} {ls : List Lexeme}
    (h : LexRun cs (l :: ls) rest) (hls : ∀ reason, .malformed reason ∉ l :: ls) :
    ∃ u d, cs = u ++ d :: rest ∧ isBlank d = false := by
  induction ls generalizing cs l with
  | nil =>
    obtain _ | ⟨htoken, hnil⟩ := h
    cases hnil
    exact htoken.exists_last fun reason hl => hls reason (hl ▸ List.mem_cons_self)
  | cons m ms ih =>
    obtain _ | ⟨htoken, hrest⟩ := h
    obtain ⟨u, d, rfl, hd⟩ := ih hrest fun reason hmem => hls reason (.tail _ hmem)
    obtain ⟨v, rfl⟩ := htoken.suffix
    exact ⟨v ++ u, d, by rw [List.append_assoc], hd⟩

lemma LexRun.not_malformed {cs rest : List Char} {ls : List Lexeme} (h : LexRun cs ls rest)
    (hrest : rest ≠ []) (reason : Malformed) : .malformed reason ∉ ls := by
  induction h with
  | nil => exact List.not_mem_nil
  | @cons cs mid rest l ls htoken hrun ih =>
    refine fun hmem => (List.mem_cons.1 hmem).elim (fun hl => ?_) (ih hrest)
    obtain ⟨c, more, -, hread⟩ := htoken
    obtain ⟨rfl, -⟩ := read_malformed (hl ▸ hread)
    exact hrest (List.suffix_nil.1 hrun.suffix)

lemma exists_append_of_append {s b p q : List Char} {d : Char} (h : s ++ b = p ++ d :: q)
    (hb : ∀ d ∈ b, isBlank d = true) (hd : isBlank d = false) :
    ∃ s₂, s = p ++ d :: s₂ ∧ q = s₂ ++ b := by
  rw [List.append_cons] at h
  rcases List.append_eq_append_iff.1 h with ⟨a, ha, rfl⟩ | ⟨a, rfl, rfl⟩
  · rcases List.eq_nil_or_concat a with rfl | ⟨a, e, rfl⟩
    · exact ⟨[], by simpa using ha.symm, rfl⟩
    · rw [List.concat_eq_append, ← List.append_assoc] at ha
      obtain ⟨-, hde⟩ := List.append_inj' ha rfl
      have hblank := hb e (by simp)
      rw [← List.head_eq_of_cons_eq hde, hd] at hblank
      cases hblank
  · exact ⟨a, by simp, rfl⟩

end SchemaDrift
