import Mathlib
import SchemaDrift.Grammar.Table
import SchemaDrift.Proofs.WrittenGroup

/-!
Constraints as they are kept and written again. A constraint's text is all that stands before the
next comma or parenthesis outside its groups; where it ends, like where a group ends, is settled by
what the tokens are.
-/

namespace SchemaDrift

open Text (isBlank trim)

/-- The tokens before which a definition ends. -/
def definitionEnds : List Lexeme := [.comma, .closeParen, .ending]

/-- The tokens do not end a definition. -/
inductive Skips : List Lexeme → Prop where
  | nil : Skips []
  | token {l : Lexeme} {ls : List Lexeme} (hopen : l ≠ .openParen) (hl : l ∉ definitionEnds)
      (hls : Skips ls) : Skips (l :: ls)
  | group {inner ls : List Lexeme} (hinner : Closed inner) (hls : Skips ls) :
      Skips (.openParen :: (inner ++ .closeParen :: ls))

namespace Parse

/-! ### One part -/

lemma skipPart_of_end {c : Cursor} (h : c.lexemeAt 0 ∈ definitionEnds) :
    skipPart () c = .ok (none, c) := by
  simp only [definitionEnds, List.mem_cons, List.not_mem_nil, or_false] at h
  simp only [skipPart, next, bind, StateT.bind, Except.bind]
  rcases h with h | h | h <;> rw [h] <;> rfl

lemma skipPart_of_token {c : Cursor} (hopen : c.lexemeAt 0 ≠ .openParen)
    (h : c.lexemeAt 0 ∉ definitionEnds) : skipPart () c = .ok (some (), c.advance) := by
  simp only [definitionEnds, List.mem_cons, List.not_mem_nil, or_false, not_or] at h
  simp only [skipPart, next, bind, StateT.bind, Except.bind]
  cases hnext : c.lexemeAt 0 with
  | comma => exact absurd hnext h.1
  | closeParen => exact absurd hnext h.2.1
  | ending => exact absurd hnext h.2.2
  | openParen => exact absurd hnext hopen
  | _ => rfl

lemma skipPart_of_open {c : Cursor} (hopen : c.lexemeAt 0 = .openParen) :
    skipPart () c = (balanced c).map fun (_, c') => (some (), c') := by
  simp only [skipPart, next, bind, StateT.bind, Except.bind, hopen]
  rcases balanced c with e | ⟨s, c'⟩ <;> rfl

lemma repeated_skipPart_of_end {c : Cursor} (h : c.lexemeAt 0 ∈ definitionEnds) :
    repeated skipPart () c = .ok ((), c) := by
  rw [repeated]
  simp only [skipPart_of_end h]

lemma repeated_skipPart_of_some {c c₁ : Cursor} (h : skipPart () c = .ok (some (), c₁))
    (hlen : c₁.ahead.length < c.ahead.length) :
    repeated skipPart () c = repeated skipPart () c₁ := by
  rw [repeated]
  simp only [h, if_pos hlen]

/-! ### All parts -/

lemma repeated_skipPart_of_skips {ls : List Lexeme} (h : Skips ls) {c : Cursor}
    {ts tail : List Token} (hahead : c.ahead = ts ++ tail) (hts : ts.map (·.lexeme) = ls)
    (htail : ∀ t ∈ tail.head?, t.lexeme ∈ definitionEnds) :
    ∃ c', repeated skipPart () c = .ok ((), c') ∧ c'.ahead = tail := by
  induction h generalizing c ts with
  | nil =>
    rw [List.map_eq_nil_iff.1 hts, List.nil_append] at hahead
    refine ⟨c, repeated_skipPart_of_end ?_, hahead⟩
    rw [Cursor.lexemeAt, hahead, ← List.head?_eq_getElem?]
    rcases htail' : tail.head? with _ | t
    · simp [definitionEnds]
    · exact htail t htail'
  | token hopen hl hls ih =>
    obtain ⟨t, ts, rfl, rfl, rfl⟩ := List.map_eq_cons_iff.1 hts
    rw [List.cons_append] at hahead
    have hnext : c.lexemeAt 0 = t.lexeme := by
      rw [Cursor.lexemeAt, hahead]
      rfl
    have hending : t.lexeme ≠ .ending := fun hend => hl (by simp [hend, definitionEnds])
    have hadvance : c.advance = ⟨t :: c.behind, ts ++ tail⟩ := by
      rw [Cursor.advance, hahead]
      exact if_neg hending
    have hskip := skipPart_of_token (hnext ▸ hopen) (hnext ▸ hl)
    rw [hadvance] at hskip
    rw [repeated_skipPart_of_some hskip (by simp [hahead])]
    exact ih rfl rfl
  | group hinner hls ih =>
    obtain ⟨opening, us, rfl, hopen, hus⟩ := List.map_eq_cons_iff.1 hts
    obtain ⟨inner, vs, rfl, rfl, hvs⟩ := List.map_eq_append_iff.1 hus
    obtain ⟨close, ts, rfl, hclose, rfl⟩ := List.map_eq_cons_iff.1 hvs
    have hgroup : Group c.ahead opening inner close (ts ++ tail) :=
      ⟨by simpa using hahead, hopen, hinner, hclose⟩
    have hnext : c.lexemeAt 0 = .openParen := by
      rw [Cursor.lexemeAt, hgroup.eq]
      exact hopen
    have hskip := skipPart_of_open hnext
    rw [hgroup.balanced_eq] at hskip
    rw [repeated_skipPart_of_some hskip]
    · exact ih rfl rfl
    · rw [hgroup.eq]
      simp
      omega

lemma skipPart_cases {c c' : Cursor} {r : Option Unit} (h : skipPart () c = .ok (r, c')) :
    r = none ∧ c' = c ∧ c.lexemeAt 0 ∈ definitionEnds ∨
    r = some () ∧ c'.ahead.length < c.ahead.length ∧ ∃ ts, c.ahead = ts ++ c'.ahead ∧
      ∀ ls, Skips ls → Skips (ts.map (·.lexeme) ++ ls) := by
  by_cases hend : c.lexemeAt 0 ∈ definitionEnds
  · rw [skipPart_of_end hend] at h
    obtain ⟨rfl, rfl⟩ := Prod.mk.inj (Except.ok.inj h)
    exact .inl ⟨rfl, rfl, hend⟩
  · by_cases hopen : c.lexemeAt 0 = .openParen
    · rw [skipPart_of_open hopen] at h
      rcases hbalanced : balanced c with e | ⟨s, c₁⟩
      · simp [hbalanced, Except.map] at h
      · rw [hbalanced] at h
        obtain ⟨rfl, rfl⟩ := Prod.mk.inj (Except.ok.inj h)
        obtain ⟨opening, inner, close, hgroup, -⟩ := Group.of_balanced hbalanced
        refine .inr ⟨rfl, ?_, opening :: (inner ++ [close]), ?_, fun ls hls => ?_⟩
        · rw [hgroup.eq]
          simp
          omega
        · rw [hgroup.eq]
          simp
        · simpa [hgroup.opening, hgroup.close] using hls.group hgroup.closed
    · rw [skipPart_of_token hopen hend] at h
      obtain ⟨rfl, rfl⟩ := Prod.mk.inj (Except.ok.inj h)
      have hnext := hend
      rw [Cursor.lexemeAt] at hnext
      rcases hahead : c.ahead with _ | ⟨t, ts⟩
      · simp [hahead, definitionEnds] at hnext
      · have hlexeme : c.lexemeAt 0 = t.lexeme := by
          rw [Cursor.lexemeAt, hahead]
          rfl
        rw [hlexeme] at hend hopen
        have hadvance : c.advance = ⟨t :: c.behind, ts⟩ := by
          rw [Cursor.advance, hahead]
          exact if_neg fun h => hend (by simp [h, definitionEnds])
        rw [hadvance]
        refine .inr ⟨rfl, by simp, [t], rfl, fun ls hls => .token hopen hend hls⟩

lemma skips_of_repeated_skipPart {c c' : Cursor} (h : repeated skipPart () c = .ok ((), c')) :
    ∃ ts, c.ahead = ts ++ c'.ahead ∧ Skips (ts.map (·.lexeme)) ∧
      c'.lexemeAt 0 ∈ definitionEnds := by
  rcases hstep : skipPart () c with e | ⟨r, c₁⟩
  · rw [repeated] at h
    simp [hstep] at h
  · rcases skipPart_cases hstep with ⟨rfl, rfl, hend⟩ | ⟨rfl, hlen, ts, hahead, hskips⟩
    · rw [repeated_skipPart_of_end hend] at h
      obtain ⟨-, rfl⟩ := Prod.mk.inj (Except.ok.inj h)
      exact ⟨[], rfl, .nil, hend⟩
    · rw [repeated_skipPart_of_some hstep hlen] at h
      obtain ⟨us, hus, hskipped, hend⟩ := skips_of_repeated_skipPart h
      refine ⟨ts ++ us, by rw [hahead, hus, List.append_assoc], ?_, hend⟩
      rw [List.map_append]
      exact hskips _ hskipped
termination_by c.ahead.length

end Parse

/-! ### Constraints -/

/-- What a constraint opens with before its body. -/
inductive ConstraintHead : List Lexeme → Prop where
  | bare : ConstraintHead []
  | unnamed {l : Lexeme} (hl : l.upperWord? = some "CONSTRAINT") : ConstraintHead [l]
  | named {l m : Lexeme} {n : String} (hl : l.upperWord? = some "CONSTRAINT")
      (hm : m = .word n ∨ m = .quotedName n)
      (hbody : m.upperWord?.any ["PRIMARY", "UNIQUE", "FOREIGN", "CHECK"].contains = false) :
      ConstraintHead [l, m]

/-- The words that open the body of a constraint that is kept as written. -/
def constraintWords : List (Option String) := [some "FOREIGN", some "CHECK"]

/-- The text is read as one constraint. -/
structure IsConstraint (s : String) : Prop where
  trim : trim s.toList = s.toList
  starts : ∀ rest, Neutral rest →
    dropGap .blanks (s.toList ++ rest) = s.toList ++ rest
  tokens : ∃ head body l, ConstraintHead head ∧ Skips (l :: body) ∧
    l.upperWord? ∈ constraintWords ∧ Respells s.toList (head ++ l :: body) []

lemma gap_of_tokensFrom {cs : List Char} {start : Nat} {t : Token} {ts : List Token}
    (h : tokensFrom start cs = t :: ts) : cs = t.gap ++ dropGap .blanks cs := by
  have hgap : t.gap = consumed cs (dropGap .blanks cs) := by
    rcases hdrop : dropGap .blanks cs with _ | ⟨d, more⟩
    · rw [tokensFrom_of_nil start hdrop] at h
      rw [← (List.cons.inj h).1]
      simp [consumed]
    · obtain ⟨_, _, hcons⟩ := tokensFrom_of_cons start hdrop
      rw [hcons] at h
      rw [← (List.cons.inj h).1]
  rw [hgap, consumed_append (dropGap_suffix .blanks cs)]

lemma spelling_cons (t : Token) (ts : List Token) :
    Token.spelling (t :: ts) = t.gap ++ Token.slice (t :: ts) := by
  rw [Token.spelling, List.flatMap_cons, List.append_assoc]
  rfl

lemma slice_eq {cs rest : List Char} {start start' : Nat} {t : Token} {ts : List Token}
    (h : tokensFrom start cs = t :: ts ++ tokensFrom start' rest) :
    dropGap .blanks cs = Token.slice (t :: ts) ++ rest := by
  have hspelling := congrArg Token.spelling h
  rw [spelling_tokensFrom, spelling_append, spelling_tokensFrom, spelling_cons,
    List.append_assoc] at hspelling
  have hgap := gap_of_tokensFrom h
  rw [hspelling] at hgap ⊢
  exact (List.append_cancel_left hgap).symm

lemma slice_tokensTo {start c : Cursor} {b s rest : List Char} {l : Lexeme} {ls : List Lexeme}
    (hstart : start.At (b ++ (s ++ rest))) (hc : c.At rest) (hb : ∀ d ∈ b, isBlank d = true)
    (hs : dropGap .blanks (s ++ rest) = s ++ rest) (hrun : LexRun (s ++ rest) (l :: ls) rest) :
    Token.slice (start.tokensTo c) = s := by
  obtain ⟨st, hst⟩ := hstart
  have hdrop := dropGap_blanks_append hb (s ++ rest)
  obtain ⟨ts, st', hts, hls⟩ := tokens_of_lexRun (hrun.congr_gap hdrop) st
  obtain ⟨t, ts, rfl, -, -⟩ := List.map_eq_cons_iff.1 hls
  have hlen : c.ahead.length = (tokensFrom st' rest).length := by
    have hmap := congrArg List.length (map_lexeme_eq st' rest)
    rw [List.length_map, List.length_append] at hmap
    rw [hc.length, hmap]
    rfl
  have htokens : start.tokensTo c = t :: ts := by
    rw [Cursor.tokensTo, hst, hts, List.length_append, hlen, Nat.add_sub_cancel, List.take_left]
  have hslice := slice_eq hts
  rw [hdrop, hs] at hslice
  rw [htokens]
  exact (List.append_cancel_right hslice).symm

namespace Parse

section

variable {start : Cursor} {b cs rest : List Char} {s : String} {ls : List Lexeme}

lemma Takes.repeated_skipPart (hrun : LexRun cs ls rest) (hskips : Skips ls)
    (hrest : firstLexeme rest ∈ definitionEnds) : Takes (repeated skipPart ()) cs () rest := by
  rintro c ⟨st, hst⟩
  obtain ⟨ts, st', hts, hls⟩ := tokens_of_lexRun hrun st
  have hend : ∀ t ∈ (tokensFrom st' rest).head?, t.lexeme ∈ definitionEnds := by
    intro t ht
    have hfirst := (Cursor.At.lexemeAt_zero (c := ⟨[], tokensFrom st' rest⟩) ⟨st', rfl⟩)
    rw [Cursor.lexemeAt, ← List.head?_eq_getElem?, Option.mem_def.1 ht] at hfirst
    have hlexeme : t.lexeme = firstLexeme rest := hfirst
    rwa [hlexeme]
  obtain ⟨c', hok, hc'⟩ := repeated_skipPart_of_skips hskips (hst.trans hts) hls hend
  refine ⟨c', hok, ⟨st', hc'⟩, ?_⟩
  rw [hst, hts, hc']
  exact List.suffix_append _ _

lemma Takes.restOfDefinition (h : IsConstraint s) (hstart : start.At (b ++ (s.toList ++ rest)))
    (hb : ∀ d ∈ b, isBlank d = true) (hneutral : Neutral rest)
    (hrest : firstLexeme rest ∈ definitionEnds) (hrun : LexRun cs ls rest) (hskips : Skips ls) :
    Takes (restOfDefinition start) cs s rest := by
  refine .bind (.repeated_skipPart hrun hskips hrest) (.get_bind fun c hc => ?_)
  obtain ⟨head, body, l, -, -, -, hrespells⟩ := h.tokens
  have hwhole := hrespells.run rest hneutral
  rw [List.nil_append] at hwhole
  obtain ⟨m, ms, hms⟩ : ∃ m ms, head ++ l :: body = m :: ms := by
    rcases head with _ | ⟨m, head⟩
    · exact ⟨l, body, rfl⟩
    · exact ⟨m, head ++ l :: body, rfl⟩
  rw [hms] at hwhole
  rw [slice_tokensTo hstart hc hb (h.starts rest hneutral) hwhole, h.trim, String.ofList_toList]
  exact .pure s rest

end

end Parse

open Grammar in
theorem IsConstraint.takes {s : String} (h : IsConstraint s) (real : FloatSize) (t : Table)
    {b rest : List Char} (hb : ∀ d ∈ b, isBlank d = true)
    (hneutral : Neutral rest) (hrest : firstLexeme rest ∈ definitionEnds) :
    Parse.Takes (definition real t) (b ++ (s.toList ++ rest))
      { t with constraints := t.constraints ++ [s] } rest := by
  obtain ⟨head, body, l, hhead, hskips, hl, hrespells⟩ := h.tokens
  refine .get_bind fun start hstart => ?_
  have hadd {cs : List Char} (hrun : LexRun cs (l :: body) rest) :
      Parse.Takes (addConstraint t start) cs { t with constraints := t.constraints ++ [s] } rest :=
    .bind (.restOfDefinition h hstart hb hneutral hrest hrun hskips) (.pure _ _)
  have hrun := hrespells.run rest hneutral
  rw [List.nil_append] at hrun
  replace hl : l.upperWord? = some "FOREIGN" ∨ l.upperWord? = some "CHECK" := by
    simpa [constraintWords] using hl
  cases hhead with
  | bare =>
    have hrun := hrun.congr_gap (dropGap_blanks_append hb _)
    refine .bind (.upperWord? _) ?_
    rw [hrun.first]
    rcases hl with hl | hl <;> rw [hl] <;> exact hadd hrun
  | unnamed hconstraint =>
    have hrun := hrun.congr_gap (dropGap_blanks_append hb _)
    refine .bind (.upperWord? _) ?_
    rw [hrun.first, hconstraint]
    obtain _ | ⟨htoken, hbody⟩ := hrun
    refine .bind (.advance htoken) (.bind (.upperWord? _) ?_)
    rw [hbody.first]
    dsimp only
    rw [if_pos (by rcases hl with hl | hl <;> rw [hl] <;> rfl)]
    refine .bind (.pure none _) (.bind (.upperWord? _) ?_)
    rw [hbody.first]
    rcases hl with hl | hl <;> rw [hl] <;> exact hadd hbody
  | @named k m n hconstraint hm hname =>
    have hrun := hrun.congr_gap (dropGap_blanks_append hb _)
    refine .bind (.upperWord? _) ?_
    rw [hrun.first, hconstraint]
    obtain _ | ⟨htoken, hrun⟩ := hrun
    refine .bind (.advance htoken) (.bind (.upperWord? _) ?_)
    rw [hrun.first]
    dsimp only
    rw [if_neg (by simpa using hname)]
    obtain _ | ⟨htoken, hbody⟩ := hrun
    refine .bind (.map some (.identifier htoken hm _)) (.bind (.upperWord? _) ?_)
    rw [hbody.first]
    rcases hl with hl | hl <;> rw [hl] <;> exact hadd hbody

/-! ### Constraints that were read -/

lemma upperWord?_of_definitionEnds {l : Lexeme} (h : l ∈ definitionEnds) : l.upperWord? = none := by
  simp only [definitionEnds, List.mem_cons, List.not_mem_nil, or_false] at h
  rcases h with rfl | rfl | rfl <;> rfl

lemma not_ending_of_skips {ls : List Lexeme} (h : Skips ls) : .ending ∉ ls := by
  induction h with
  | nil => exact List.not_mem_nil
  | token _ hl _ ih =>
    intro hmem
    rcases List.mem_cons.1 hmem with rfl | hmem
    · exact hl (by simp [definitionEnds])
    · exact ih hmem
  | group hinner _ ih => simpa using ⟨not_ending_of_closed hinner, ih⟩

lemma trim_eq_self {d e : Char} {u v : List Char} (h : d :: u = v ++ [e])
    (hd : isBlank d = false) (he : isBlank e = false) : trim (d :: u) = d :: u := by
  rw [trim, List.dropWhile_cons_of_neg (by simp [hd]), h]
  exact List.rdropWhile_concat_neg isBlank v e (by simp [he])

lemma ConstraintHead.not_ending {ls : List Lexeme} (h : ConstraintHead ls) : .ending ∉ ls := by
  cases h with
  | bare => exact List.not_mem_nil
  | unnamed hl =>
    intro hmem
    rw [← List.mem_singleton.1 hmem] at hl
    cases hl
  | named hl hm _ =>
    intro hmem
    rcases List.mem_cons.1 hmem with rfl | hmem
    · cases hl
    · rw [← List.mem_singleton.1 hmem] at hm
      rcases hm with hm | hm <;> cases hm

lemma trim_of_lexRun {cs v rest : List Char} {l : Lexeme} {ls : List Lexeme}
    (hgap : dropGap .blanks cs = v ++ rest) (hrun : LexRun cs (l :: ls) rest) (hrest : rest ≠ []) :
    LexRun (v ++ rest) (l :: ls) rest ∧ trim v = v ∧
      ∃ d w, v = d :: w ∧ StartsToken d (w ++ rest) := by
  have hrun' : LexRun (v ++ rest) (l :: ls) rest :=
    hrun.congr_gap (by rw [← hgap, dropGap_dropGap])
  obtain ⟨u, e, hlast, he⟩ := hrun'.exists_last (hrun.not_malformed hrest)
  have hv : v = u ++ [e] := by
    rw [List.append_cons] at hlast
    exact List.append_cancel_right hlast
  obtain ⟨d, w, rfl⟩ := List.exists_cons_of_ne_nil (l := v) (by simp [hv])
  have hstarts := startsToken_of_dropGap hgap
  exact ⟨hrun', trim_eq_self hv hstarts.blank he, d, w, rfl, hstarts⟩

/-- The rest of a definition is what is skipped from `start` on, and a definition ends behind it. -/
lemma exists_tokens_of_restOfDefinition {start c c' : Cursor} {s : String} {pre : List Token}
    (hpre : start.ahead = pre ++ c.ahead) (hbody : (c.lexemeAt 0).upperWord? ∈ constraintWords)
    (h : Parse.restOfDefinition start c = .ok (s, c')) : ∃ t us,
      s = String.ofList (trim (Token.slice (pre ++ t :: us))) ∧
      start.ahead = (pre ++ t :: us) ++ c'.ahead ∧ c.lexemeAt 0 = t.lexeme ∧
      Skips ((t :: us).map (·.lexeme)) := by
  rcases hskip : Parse.repeated Parse.skipPart () c with e | ⟨⟨⟩, c₁⟩
  · simp [Parse.restOfDefinition, bind, StateT.bind, Except.bind, hskip] at h
  simp only [Parse.restOfDefinition, bind, StateT.bind, Except.bind, hskip, get, getThe,
    MonadStateOf.get, StateT.get, pure, StateT.pure, Except.pure] at h
  obtain ⟨rfl, rfl⟩ := Prod.mk.inj (Except.ok.inj h)
  obtain ⟨ts, hahead, hskips, hend⟩ := Parse.skips_of_repeated_skipPart hskip
  obtain ⟨t, us, rfl⟩ : ∃ t us, ts = t :: us := by
    refine List.exists_cons_of_ne_nil fun hnil => ?_
    have hsame : c.lexemeAt 0 = c₁.lexemeAt 0 := by
      rw [Cursor.lexemeAt, Cursor.lexemeAt, hahead, hnil, List.nil_append]
    rw [hsame, upperWord?_of_definitionEnds hend] at hbody
    simp [constraintWords] at hbody
  have ht : c.lexemeAt 0 = t.lexeme := by
    rw [Cursor.lexemeAt, hahead]
    rfl
  have hwhole : start.ahead = (pre ++ t :: us) ++ c₁.ahead := by
    rw [hpre, hahead, List.append_assoc]
  have hts : start.tokensTo c₁ = pre ++ t :: us := by
    rw [Cursor.tokensTo, hwhole, List.length_append, Nat.add_sub_cancel, List.take_left]
  exact ⟨t, us, by rw [hts], hwhole, ht, hskips⟩

/-- **A constraint that was read is one again.** Only at the end of the text it may be none. -/
theorem isConstraint_of_restOfDefinition {start c c' : Cursor} {cs : List Char} {s : String}
    {pre : List Token} (hstart : start.At cs) (hpre : start.ahead = pre ++ c.ahead)
    (hhead : ConstraintHead (pre.map (·.lexeme)))
    (hbody : (c.lexemeAt 0).upperWord? ∈ constraintWords)
    (h : Parse.restOfDefinition start c = .ok (s, c')) : (∃ rest, c'.At rest) ∧
      (c'.lexemeAt 0 = .ending ∨ (OpensNoLine s.toList → IsConstraint s)) := by
  obtain ⟨st, hst⟩ := hstart
  obtain ⟨t, us, rfl, hwhole, ht, hskips⟩ := exists_tokens_of_restOfDefinition hpre hbody h
  have hends : ∀ u ∈ pre ++ t :: us, u.lexeme ≠ .ending := by
    intro u hu hlast
    rcases List.mem_append.1 hu with hu | hu
    · exact hhead.not_ending (hlast ▸ List.mem_map_of_mem hu)
    · exact not_ending_of_skips hskips (hlast ▸ List.mem_map_of_mem hu)
  obtain ⟨st', rest, hc₁, -, hrun⟩ := exists_lexRun_of_tokens (hst.symm.trans hwhole) hends
  refine ⟨⟨rest, st', hc₁⟩, or_iff_not_imp_left.2 fun hnext hplain => ?_⟩
  have hrest : rest ≠ [] := by
    rintro rfl
    exact hnext ((Cursor.At.lexemeAt_zero ⟨st', hc₁⟩).trans firstLexeme_nil)
  obtain ⟨f, fs, hf⟩ := List.exists_cons_of_ne_nil (List.append_ne_nil_of_right_ne_nil pre
    (List.cons_ne_nil t us))
  have hgap : dropGap .blanks cs = Token.slice (f :: fs) ++ rest := by
    rw [hst, hc₁, hf] at hwhole
    exact slice_eq hwhole
  have hmalformed := hrun.not_malformed hrest
  have hlexemes : (pre ++ t :: us).map (·.lexeme) =
      pre.map (·.lexeme) ++ t.lexeme :: us.map (·.lexeme) := List.map_append
  rw [hf, List.map_cons] at hrun hmalformed hlexemes
  obtain ⟨hrun, htrim, d, w, hdw, hstarts⟩ := trim_of_lexRun hgap hrun hrest
  rw [hf, htrim, String.toList_ofList, hdw] at hplain
  rw [hf, htrim]
  refine ⟨?_, fun rest' hrest' => ?_, _, us.map (·.lexeme), t.lexeme, hhead, ?_, ht ▸ hbody,
    fun rest' hrest' => ?_, fun rest' => rfl⟩
  · rw [String.toList_ofList, htrim]
  · rw [String.toList_ofList, hdw, List.cons_append]
    exact (hstarts.transfer hplain hrest').dropGap
  · exact hskips
  · rw [String.toList_ofList, ← hlexemes, hdw]
    rw [hdw, ← List.nil_append rest, ← List.append_assoc, List.append_nil] at hrun
    exact hrun.transfer hmalformed hplain hrest'

lemma isConstraint_check {condition : String} (h : IsGroup condition) :
    IsConstraint ("CHECK (" ++ condition ++ ")") := by
  obtain ⟨-, inner, g, hclosed, hrespells⟩ := h
  have htext : ("CHECK (" ++ condition ++ ")").toList =
      "CHECK".toList ++ ' ' :: '(' :: (condition.toList ++ [')']) := by simp
  have hword : ∀ rest, "CHECK".toList ++ ' ' :: '(' :: (condition.toList ++ [')']) ++ rest =
      "CHECK".toList ++ ' ' :: '(' :: (condition.toList ++ ')' :: rest) := by simp
  refine ⟨?_, fun rest _ => ?_, [], .openParen :: (inner ++ [.closeParen]), .word "CHECK", .bare,
    .token nofun (by decide) (.group hclosed .nil), by decide, fun rest _ => ?_, fun rest => rfl⟩
  · have hends : ("CHECK (" ++ condition ++ ")").toList =
        'C' :: ("HECK (".toList ++ condition.toList ++ [')']) := by simp
    rw [hends]
    exact trim_eq_self (d := 'C') (List.cons_append ..).symm (by decide) (e := ')') (by decide)
  · rw [htext]
    exact (startsToken_of_notMem (by decide) (by decide) _).dropGap
  · rw [htext, hword]
    refine .cons (.word (by decide) (neutral_space _)) (.cons (.space (.punctuation rfl _)) ?_)
    refine (hrespells.run (')' :: rest) (neutral_cons (by decide) _)).append (.single ?_)
    refine ⟨')', rest, ?_, (Reads.punctuation rfl).eq_read.symm⟩
    rw [hrespells.gap]
    exact (startsToken_of_notMem (by decide) (by decide) _).dropGap

end SchemaDrift
