import Mathlib
import SchemaDrift.Proofs.StatementTokens

/-!
Whether the statements of a script have the tokens that stand between the semicolons of the script.

A statement is lexed without what the cut took away behind it: the semicolon, and the line comments.
Two dashes in front of these were text in the script, since no blank follows them there. At the end
of the statement, or of its line, they open a comment. Nothing else is lexed otherwise, as long as
no bit or hex literal ends in a backslash: the cut takes the literal for a string, and the backslash
for the escape of its quote.
-/

namespace SchemaDrift

open Text (isBlank trim)

namespace Script

/-! ### The start of a piece -/

/-- The cut takes away what begins here. -/
def Exposing (cs : List Char) : Prop :=
  cs.head? = some ';' ∨ cs.head? = some '#' ∨
    ∃ rest, cs = '-' :: '-' :: rest ∧ opensComment rest = true

lemma head?_cut_line {cs h : List Char} {hs : List (List Char)} (hcut : cut .line cs = h :: hs) :
    ∀ c ∈ h.head?, c = '\n' := by
  induction cs with
  | nil =>
    obtain ⟨rfl, rfl⟩ := List.cons.inj ((cut_nil _).symm.trans hcut)
    simp
  | cons c cs ih =>
    by_cases hc : c = '\n'
    · subst hc
      rw [cut_newline] at hcut
      obtain ⟨h', hs', hrest⟩ := exists_cut_cons .plain cs
      rw [hrest, kept_cons] at hcut
      obtain ⟨rfl, rfl⟩ := List.cons.inj hcut
      simp
    · rw [cut_line hc] at hcut
      exact ih hcut

lemma exists_cut_of_not_exposing {c : Char} {rest : List Char} (h : ¬ Exposing (c :: rest)) :
    ∃ pieces, cut .plain (c :: rest) = kept [c] pieces := by
  by_cases hdash : c = '-'
  · subst hdash
    refine ⟨_, cut_dash fun more hmore => Bool.eq_false_iff.2 fun hopens => h ?_⟩
    exact .inr (.inr ⟨more, by rw [hmore], hopens⟩)
  by_cases hslash : c = '/'
  · subst hslash
    exact exists_cut_slash rest
  have hplain : c ∉ [';', '#', '-', '/'] := by
    simp only [Exposing, List.head?_cons, Option.some.injEq, not_or] at h
    simp [h.1, h.2.1, hdash, hslash]
  exact ⟨_, cut_plain hplain⟩

lemma head?_cut {cs h : List Char} {hs : List (List Char)} (hcut : cut .plain cs = h :: hs) :
    (Exposing cs ∧ ∀ c ∈ h.head?, c = '\n') ∨ (¬ Exposing cs ∧ h.head? = cs.head?) := by
  rcases cs with _ | ⟨c, rest⟩
  · obtain ⟨rfl, rfl⟩ := List.cons.inj ((cut_nil _).symm.trans hcut)
    exact .inr ⟨by simp [Exposing], rfl⟩
  by_cases hexposing : Exposing (c :: rest)
  · refine .inl ⟨hexposing, ?_⟩
    -- An empty piece stands before a semicolon; what follows a line comment starts a new line.
    rcases hexposing with hc | hc | ⟨more, hmore, hopens⟩
    · obtain rfl := Option.some.inj hc
      rw [cut_semicolon] at hcut
      obtain ⟨rfl, rfl⟩ := List.cons.inj hcut
      simp
    · obtain rfl := Option.some.inj hc
      rw [cut_hash] at hcut
      exact head?_cut_line hcut
    · rw [hmore, cut_dashes hopens] at hcut
      exact head?_cut_line hcut
  · obtain ⟨pieces, hpieces⟩ := exists_cut_of_not_exposing hexposing
    rw [hpieces] at hcut
    refine .inr ⟨hexposing, ?_⟩
    rcases pieces with _ | ⟨p, pieces⟩
    · cases hcut
    · obtain ⟨rfl, rfl⟩ := List.cons.inj hcut
      rfl

lemma continues_cut {cs h : List Char} {hs : List (List Char)} (hcut : cut .plain cs = h :: hs) :
    Continues cs h := by
  refine ⟨fun c hc => ?_, ?_⟩
  · rcases head?_cut hcut with ⟨-, hnewline⟩ | ⟨-, hhead⟩
    · rw [hnewline c hc]
      exact .inl (isNeutral_of_isBlank (by decide))
    · exact .inr (hhead ▸ Option.mem_def.1 hc)
  · rintro d more rfl hd
    rcases head?_cut hcut with ⟨-, hnewline⟩ | ⟨-, hhead⟩
    · exact absurd (hnewline '.' rfl) (by decide)
    · obtain ⟨rest, rfl⟩ := List.head?_eq_some_iff.1 hhead.symm
      obtain ⟨h', hs', hrest⟩ := exists_cut_cons .plain rest
      have hkept : cut .plain ('.' :: rest) = kept ['.'] (cut .plain rest) :=
        sealed_singleton (by decide) rest
      rw [hkept, hrest] at hcut
      obtain rfl : h' = d :: more := (List.cons.inj (List.cons.inj hcut).1).2
      rcases head?_cut hrest with ⟨-, hnewline⟩ | ⟨-, hhead⟩
      · rw [hnewline d rfl] at hd
        cases hd
      · obtain ⟨more', rfl⟩ := List.head?_eq_some_iff.1 hhead.symm
        exact ⟨d, more', rfl, hd⟩

/-- A dash is text here, and the cut takes away what begins after it. -/
def ExposedDash (cs : List Char) : Prop :=
  ∃ rest, cs = '-' :: rest ∧ ¬ Exposing cs ∧ Exposing rest

/-- What starts a token in the script starts it in the statement, two dashes that are left at the
end of a line apart. -/
lemma startsToken_cut {c : Char} {w rest h : List Char} {hs : List (List Char)}
    (hstarts : StartsToken c (w ++ rest)) (hcut : cut .plain rest = h :: hs)
    (hdashes : c = '-' → w = [] ∧ ¬ ExposedDash rest) : StartsToken c (w ++ h) := by
  refine ⟨hstarts.blank, hstarts.hash, fun hc more hmore => ?_, fun hc hstar => ?_⟩
  · obtain ⟨rfl, hexposed⟩ := hdashes hc
    rw [List.nil_append] at hmore
    subst hmore
    rcases head?_cut hcut with ⟨-, hnewline⟩ | ⟨hnot, hhead⟩
    · exact absurd (hnewline '-' rfl) (by decide)
    · obtain ⟨rest', rfl⟩ := List.head?_eq_some_iff.1 hhead.symm
      have hopens : opensComment rest' = false := hstarts.dashes hc rest' rfl
      have hdash : ∀ more, rest' = '-' :: more → opensComment more = false := fun more hmore =>
        Bool.eq_false_iff.2 fun hopens => hnot (.inr (.inr ⟨more, by rw [hmore], hopens⟩))
      obtain ⟨h', hs', hrest⟩ := exists_cut_cons .plain rest'
      rw [cut_dash hdash, hrest] at hcut
      obtain rfl : h' = more := (List.cons.inj (List.cons.inj hcut).1).2
      rcases head?_cut hrest with ⟨hexposing, -⟩ | ⟨-, hhead⟩
      · exact absurd ⟨rest', rfl, hnot, hexposing⟩ hexposed
      · rwa [opensComment, hhead]
  · have hhead := hstarts.slash hc
    rcases w with _ | ⟨d, w⟩
    · exact (continues_cut hcut).head_ne (by simp [isNeutral]) hhead hstar
    · exact hhead hstar

/-! ### Dashes that are lost -/

/-- The cut takes away what stands before the token, or the token itself. -/
def exposes (t : Token) : Bool :=
  t.gap.head? = some '#' || t.gap.head? = some '-' || (t.gap = [] && t.lexeme = .semicolon)

/-- Two dashes without a blank between them that become a comment when `c` is taken away. -/
def dashesExposed (a b c : Token) : Bool :=
  a.lexeme = .other '-' && b.lexeme = .other '-' && b.gap = [] && exposes c

/-- The tokens that are left after the cut. -/
def visible : List Token → List Token
  | a :: b :: c :: rest =>
    if dashesExposed a b c then visible (c :: rest) else a :: visible (b :: c :: rest)
  | ts => ts

lemma visible_cons {a : Token} {ts : List Token}
    (h : ∀ b c rest, ts = b :: c :: rest → dashesExposed a b c = false) :
    visible (a :: ts) = a :: visible ts := by
  match ts with
  | [] | [b] => rfl
  | b :: c :: rest => rw [visible, if_neg (by simp [h b c rest rfl])]

lemma gap_append {start : Nat} {cs : List Char} {t : Token} {ts : List Token}
    (h : tokensFrom start cs = t :: ts) : t.gap ++ dropGap .blanks cs = cs := by
  have hgap : t.gap = consumed cs (dropGap .blanks cs) := by
    rcases hdrop : dropGap .blanks cs with _ | ⟨c, more⟩
    · have htokens := tokensFrom_of_nil start hdrop
      obtain ⟨rfl, -⟩ := List.cons.inj (h.symm.trans htokens)
      simp [consumed]
    · obtain ⟨_, _, htokens⟩ := tokensFrom_of_cons start hdrop
      obtain ⟨rfl, -⟩ := List.cons.inj (h.symm.trans htokens)
      rfl
  rw [hgap, consumed_append (dropGap_suffix .blanks cs)]

lemma read_semicolon {c : Char} {more : List Char} (h : (Lexeme.read c more).1 = .semicolon) :
    c = ';' := by
  have hreads := reads_read c more
  generalize Lexeme.read c more = r at hreads h
  cases hreads with
  | punctuation hc =>
    subst h
    simpa using mem_of_ofPunctuation? hc
  | word hc hmore =>
    obtain ⟨w, -, hword | hword | hword⟩ := readWord_cases (c :: more) <;> rw [hword] at h <;>
      cases h
  | _ => cases h

lemma read_other {c d : Char} {more rest : List Char} (h : Lexeme.read c more = (.other d, rest)) :
    c = d ∧ more = rest := by
  have hreads := reads_read c more
  rw [h] at hreads
  generalize hr : (Lexeme.other d, rest) = r at hreads
  cases hreads with
  | punctuation hc =>
    obtain rfl := (Prod.mk.inj hr).1
    simpa using mem_of_ofPunctuation? hc
  | word hc hmore =>
    have hfst := congrArg Prod.fst hr
    obtain ⟨w, -, hword | hword | hword⟩ := readWord_cases (c :: more) <;> rw [hword] at hfst <;>
      cases hfst
  | other hpunctuation hc hquote =>
    obtain ⟨hl, rfl⟩ := Prod.mk.inj hr
    exact ⟨(Lexeme.other.inj hl).symm, rfl⟩
  | _ => cases (Prod.mk.inj hr).1

lemma read_dash (rest : List Char) : Lexeme.read '-' rest = (.other '-', rest) :=
  (Reads.other rfl (isWordChar_eq_false '-' (by decide)) (by decide)).eq_read.symm

lemma startsToken_dash {rest : List Char} (h : ¬ Exposing ('-' :: rest)) :
    StartsToken '-' rest :=
  ⟨by decide, by decide, fun _ more hmore => Bool.eq_false_iff.2 fun hopens =>
    h (.inr (.inr ⟨more, by rw [hmore], hopens⟩)), fun hc => absurd hc (by decide)⟩

section

variable {start : Nat} {cs : List Char} {t : Token} {ts : List Token}
  (h : tokensFrom start cs = t :: ts)

include h

lemma head?_of_gap {c : Char} (hc : t.gap.head? = some c) : cs.head? = some c := by
  rw [← gap_append h, List.head?_append, hc, Option.some_or]

lemma head?_gap {c : Char} {rest : List Char} (hcs : cs = c :: rest)
    (hdrop : dropGap .blanks cs <:+ rest) : t.gap.head? = some c := by
  have hgap := gap_append h
  rcases hg : t.gap with _ | ⟨d, gap⟩
  · rw [hg, List.nil_append] at hgap
    have hlength := hdrop.length_le
    rw [hgap, hcs, List.length_cons] at hlength
    omega
  · rw [hg, hcs, List.cons_append] at hgap
    rw [(List.cons.inj hgap).1]
    rfl

lemma exposing_of_exposes (hexposes : exposes t = true) : Exposing cs := by
  have hgap := gap_append h
  simp only [exposes, Bool.or_eq_true, decide_eq_true_eq, Bool.and_eq_true] at hexposes
  rcases hexposes with (hc | hc) | ⟨hnil, hl⟩
  · exact .inr (.inl (head?_of_gap h hc))
  · by_contra hnot
    obtain ⟨rest, rfl⟩ := List.head?_eq_some_iff.1 (head?_of_gap h hc)
    have hnil : t.gap = [] := by simpa [(startsToken_dash hnot).dropGap] using hgap
    rw [hnil] at hc
    cases hc
  · rw [hnil, List.nil_append] at hgap
    rcases cs with _ | ⟨c, more⟩
    · rw [tokensFrom_of_nil start hgap] at h
      obtain ⟨rfl, -⟩ := List.cons.inj h
      cases hl
    · obtain ⟨_, _, htokens⟩ := tokensFrom_of_cons start hgap
      obtain ⟨rfl, -⟩ := List.cons.inj (htokens.symm.trans h)
      exact .inl (congrArg some (read_semicolon hl))

lemma exposes_of_exposing (hexposing : Exposing cs) : exposes t = true := by
  rcases hexposing with hc | hc | ⟨rest, hcs, hopens⟩
  · obtain ⟨more, rfl⟩ := List.head?_eq_some_iff.1 hc
    have hstarts := startsToken_of_notMem (c := ';') (by decide) (by decide) more
    have hnil : t.gap = [] := by simpa [hstarts.dropGap] using gap_append h
    have hl : t.lexeme = .semicolon := by
      obtain ⟨_, _, htokens⟩ := tokensFrom_of_cons start hstarts.dropGap
      obtain ⟨rfl, -⟩ := List.cons.inj (htokens.symm.trans h)
      simp [Lexeme.read, Lexeme.ofPunctuation?]
    simp [exposes, hnil, hl]
  · obtain ⟨more, rfl⟩ := List.head?_eq_some_iff.1 hc
    have hdrop : dropGap .blanks ('#' :: more) <:+ more := dropGap_suffix .line more
    simp [exposes, head?_gap h rfl hdrop]
  · have hdrop : dropGap .blanks cs <:+ '-' :: rest := by
      rw [hcs, dropGap, if_pos hopens]
      exact (dropGap_suffix .line rest).trans (List.suffix_cons ..)
    simp [exposes, head?_gap h hcs hdrop]

lemma exposes_iff : exposes t = true ↔ Exposing cs :=
  ⟨exposing_of_exposes h, exposes_of_exposing h⟩

end

/-! ### The tokens of the pieces -/

lemma map_lexemes_kept {cs cs' g : List Char} (hcut : cut .plain cs = kept g (cut .plain cs'))
    (hg : ∀ h hs, cut .plain cs' = h :: hs → lexemes (g ++ h) = lexemes h) :
    (cut .plain cs).map lexemes = (cut .plain cs').map lexemes := by
  obtain ⟨h, hs, hcs'⟩ := exists_cut_cons .plain cs'
  rw [hcut, hcs', kept_cons, List.map_cons, List.map_cons, hg h hs hcs']

/-- A pair of dashes is nothing to the statement if the text behind it is taken away. -/
lemma map_lexemes_pair {rest : List Char} (hopens : opensComment rest = false)
    (hdash : ¬ Exposing ('-' :: rest)) (hexposing : Exposing rest) :
    (cut .plain ('-' :: '-' :: rest)).map lexemes = (cut .plain rest).map lexemes := by
  have hdashes : cut .plain ('-' :: '-' :: rest) = kept ['-', '-'] (cut .plain rest) :=
    cut_trans (cut_dash fun more hmore => (List.cons.inj hmore).2 ▸ hopens)
      (cut_dash ((startsToken_dash hdash).dashes rfl))
  refine map_lexemes_kept hdashes fun h hs hcut => lexemes_congr ?_
  rcases head?_cut hcut with ⟨-, hnewline⟩ | ⟨hnot, -⟩
  · rcases h with _ | ⟨c, h⟩
    · rfl
    · obtain rfl := hnewline c rfl
      have hopens : opensComment ('\n' :: h) = true := rfl
      have hline : dropGap .line ('\n' :: h) = dropGap .blanks h := by rw [dropGap]
      have hblank : isBlank '\n' = true := by decide
      rw [List.cons_append, List.cons_append, List.nil_append, dropGap, if_pos hopens, hline,
        dropGap_of_isBlank hblank]
  · exact absurd hexposing hnot

lemma kinds_cons {t : Token} (h : t.lexeme ≠ .ending) (ts : List Token) :
    kinds (t :: ts) = t.lexeme :: kinds ts := by
  simp [kinds, h]

lemma map_lexemes_token {c : Char} {more rest : List Char} {l : Lexeme}
    (h : Lexeme.read c more = (l, rest)) (hl : ∀ reason, l ≠ .malformed reason)
    (hstarts : StartsToken c more) (hsemicolon : l ≠ .semicolon)
    (hliteral : ∀ s, l = .literal s → endsEscaped s.toList = false)
    (hdashes : l = .other '-' → ¬ ExposedDash rest) :
    (cut .plain (c :: more)).map lexemes =
      ((cut .plain rest).map lexemes).modifyHead (l :: ·) := by
  obtain ⟨w, rfl, hcut⟩ := exists_cut_token h hl hstarts hsemicolon hliteral
  obtain ⟨piece, pieces, hrest⟩ := exists_cut_cons .plain rest
  have hread : Lexeme.read c (w ++ piece) = (l, piece) := by
    obtain ⟨w', hw, hread⟩ := read_local h hl
    obtain rfl := List.append_cancel_right hw
    exact hread piece (continues_cut hrest)
  have hdash : c = '-' → w = [] ∧ ¬ ExposedDash rest := by
    rintro rfl
    obtain rfl : l = .other '-' := (Prod.mk.inj (h.symm.trans (read_dash _))).1
    exact ⟨List.append_left_eq_self.1 (read_other h).2, hdashes rfl⟩
  have hpiece := lexemes_of_cons (startsToken_cut hstarts hrest hdash).dropGap
  rw [hread] at hpiece
  rw [hcut, hrest, kept_cons, List.map_cons, List.cons_append, hpiece]
  rfl

lemma map_lexemes_read {c : Char} {more rest : List Char} {l : Lexeme}
    (h : Lexeme.read c more = (l, rest)) (hstarts : StartsToken c more)
    (hliteral : ∀ s, l = .literal s → endsEscaped s.toList = false)
    (hdashes : l = .other '-' → ¬ ExposedDash rest) : (cut .plain (c :: more)).map lexemes =
      if decide (l = .semicolon) then [] :: (cut .plain rest).map lexemes
      else ((cut .plain rest).map lexemes).modifyHead (l :: ·) := by
  by_cases hsemicolon : l = .semicolon
  · subst hsemicolon
    obtain rfl := read_semicolon (congrArg Prod.fst h)
    obtain rfl : more = rest := (Prod.mk.inj h).2
    rw [if_pos (by simp), cut_semicolon, List.map_cons, lexemes_of_nil (by rw [dropGap])]
  · rw [if_neg (by simpa using hsemicolon)]
    by_cases hmalformed : ∃ reason, l = .malformed reason
    · obtain ⟨reason, rfl⟩ := hmalformed
      obtain ⟨rfl, hpiece⟩ := cut_of_malformed h
      rw [hpiece, cut_nil, List.map_singleton, List.map_singleton,
        lexemes_of_cons hstarts.dropGap, h]
      rfl
    · exact map_lexemes_token h (fun reason hl => hmalformed ⟨reason, hl⟩) hstarts hsemicolon
        hliteral hdashes

lemma dashes_of_exposed {start : Nat} {rest : List Char} {a b t : Token} {ts : List Token}
    (h : tokensFrom start rest = b :: t :: ts) (hexposed : dashesExposed a b t = true) :
    a.lexeme = .other '-' ∧ ExposedDash rest := by
  simp only [dashesExposed, Bool.and_eq_true, decide_eq_true_eq] at hexposed
  obtain ⟨⟨⟨ha, hb⟩, hgap⟩, ht⟩ := hexposed
  have hnot : ¬ Exposing rest := by
    rw [← exposes_iff h]
    simp [exposes, hgap, hb]
  have hdrop := gap_append h
  rw [hgap, List.nil_append] at hdrop
  rcases rest with _ | ⟨c, more⟩
  · rw [tokensFrom_of_nil start hdrop] at h
    cases h
  · obtain ⟨_, start', htokens⟩ := tokensFrom_of_cons start hdrop
    obtain ⟨rfl, hts⟩ := List.cons.inj (htokens.symm.trans h)
    obtain ⟨rfl, -⟩ := read_other (Prod.ext hb rfl)
    rw [read_dash] at hts
    exact ⟨ha, more, rfl, hnot, (exposes_iff hts).1 ht⟩

lemma tokensFrom_exposedDash (start : Nat) {rest : List Char} (hdash : ¬ Exposing ('-' :: rest))
    (hexposing : Exposing rest) : ∃ start' b t ts, tokensFrom start ('-' :: rest) = b :: t :: ts ∧
      b.lexeme = .other '-' ∧ tokensFrom start' rest = t :: ts ∧
      ∀ a, a.lexeme = .other '-' → dashesExposed a b t = true := by
  obtain ⟨_, start', htokens⟩ := tokensFrom_of_cons start (startsToken_dash hdash).dropGap
  rw [read_dash] at htokens
  obtain ⟨t, ts, hts⟩ := List.exists_cons_of_ne_nil (tokensFrom_ne_nil start' rest)
  have hexposes := (exposes_iff hts).2 hexposing
  have hgap : consumed ('-' :: rest) ('-' :: rest) = [] := by simp [consumed]
  rw [hts] at htokens
  refine ⟨start', _, t, ts, htokens, rfl, hts, fun a ha => ?_⟩
  simp [dashesExposed, ha, hgap, hexposes]

/-- **What the statements are made of**: the tokens of the script between its semicolons, without
the dashes that are lost. -/
theorem map_lexemes_cut (start : Nat) (cs : List Char)
    (hliteral : ∀ s, .literal s ∈ lexemes cs → endsEscaped s.toList = false) :
    (cut .plain cs).map lexemes =
      (kinds (visible (tokensFrom start cs))).splitOnP (· = .semicolon) := by
  induction hlength : cs.length using Nat.strong_induction_on generalizing cs start with
  | _ n ih =>
  obtain ⟨g, hcut, hg⟩ := exists_cut_gap .blanks cs
  have hgap : (cut .plain cs).map lexemes = (cut .plain (dropGap .blanks cs)).map lexemes :=
    map_lexemes_kept hcut fun h hs hcut => lexemes_congr (hg h hs hcut)
  -- The gap goes first, then one token or an exposed pair of dashes; the rest is shorter.
  rcases hdrop : dropGap .blanks cs with _ | ⟨c, more⟩
  · rw [hgap, hdrop, tokensFrom_of_nil start hdrop, cut_nil, List.map_singleton,
      lexemes_of_nil (by rw [dropGap])]
    rfl
  · obtain ⟨l, rest, hread⟩ : ∃ l rest, Lexeme.read c more = (l, rest) := ⟨_, _, rfl⟩
    have hstarts := startsToken_of_dropGap hdrop
    have hlexemes := lexemes_of_cons hdrop
    have hending := read_ne_ending c more
    obtain ⟨start'', start', htokens⟩ := tokensFrom_of_cons start hdrop
    have hmore : more.length < n := by
      have hlength' := (dropGap_suffix .blanks cs).length_le
      rw [hdrop, List.length_cons, hlength] at hlength'
      exact hlength'
    have hrest := (Lexeme.read_suffix c more).length_le
    rw [hread] at hlexemes htokens hending hrest
    simp only at hlexemes htokens hending hrest
    have hliteral_l : ∀ s, l = .literal s → endsEscaped s.toList = false := fun s hl =>
      hliteral s (by rw [hlexemes, hl]; exact List.mem_cons_self)
    have hliteral' : ∀ s, .literal s ∈ lexemes rest → endsEscaped s.toList = false := fun s hs =>
      hliteral s (by rw [hlexemes]; exact List.mem_cons_of_mem _ hs)
    rw [hgap, hdrop, htokens]
    -- The pair is read as two tokens in the script, but the cut leaves a comment in its place.
    by_cases hpair : l = .other '-' ∧ ExposedDash rest
    · obtain ⟨rfl, after, rfl, hdash, hexposing⟩ := hpair
      obtain ⟨rfl, rfl⟩ := read_other hread
      obtain ⟨start₃, b, t, ts, hafter, hb, hts, hexposed⟩ :=
        tokensFrom_exposedDash start' hdash hexposing
      have hliteral'' : ∀ s, .literal s ∈ lexemes after → endsEscaped s.toList = false :=
        fun s hs => hliteral' s (by
          rw [lexemes_of_cons (startsToken_dash hdash).dropGap, read_dash]
          exact List.mem_cons_of_mem _ hs)
      rw [map_lexemes_pair (hstarts.dashes rfl after rfl) hdash hexposing, hafter, visible,
        if_pos (hexposed _ rfl), ← hts]
      exact ih after.length (Nat.lt_of_succ_lt hmore) start₃ after hliteral'' rfl
    · rw [visible_cons, kinds_cons hending, List.splitOnP_cons_eq_if_modifyHead,
        ← ih rest.length (by omega) start' rest hliteral' rfl]
      · exact map_lexemes_read hread hstarts hliteral_l fun hl hexposed => hpair ⟨hl, hexposed⟩
      · intro b t ts hts
        by_contra hexposed
        exact hpair (dashes_of_exposed hts (by simpa using hexposed))

/-! ### Trimming -/

section

variable {b : List Char} (hb : ∀ c ∈ b, isBlank c = true)

include hb in
lemma dropGap_blanks (m : GapMode) : dropGap m b = [] := by
  induction b generalizing m with
  | nil => cases m <;> rfl
  | cons c b ih =>
    have hc : isBlank c = true := hb c List.mem_cons_self
    have ih := ih fun d hd => hb d (List.mem_cons_of_mem _ hd)
    cases m with
    | blanks => rw [dropGap_of_isBlank hc, ih]
    | line =>
      by_cases hline : c = '\n'
      · rw [hline, dropGap, ih]
      · rw [dropGap.eq_7 _ _ hline, ih]
    | block =>
      have hstar : c ≠ '*' := by
        rintro rfl
        cases hc
      rw [dropGap.eq_9 _ _ fun more h => absurd h hstar, ih]

include hb in
lemma head?_append_blanks {cs : List Char} {c : Char} (hc : isBlank c = false)
    (h : (cs ++ b).head? = some c) : cs.head? = some c := by
  rcases cs with _ | ⟨d, cs⟩
  · have hblank := hb c (List.mem_of_mem_head? h)
    rw [hc] at hblank
    cases hblank
  · exact h

include hb in
lemma opensComment_append_blanks (cs : List Char) :
    opensComment (cs ++ b) = opensComment cs := by
  rcases cs with _ | ⟨c, cs⟩
  · rcases b with _ | ⟨c, b⟩
    · rfl
    · simpa [opensComment] using hb c List.mem_cons_self
  · rfl

include hb in
lemma startsToken_append_blanks {c : Char} {more : List Char} (h : StartsToken c more) :
    StartsToken c (more ++ b) := by
  refine ⟨h.blank, h.hash, fun hc rest hrest => ?_, fun hc hstar => h.slash hc ?_⟩
  · have hhead := head?_append_blanks hb (by decide) (congrArg List.head? hrest)
    obtain ⟨more', rfl⟩ := List.head?_eq_some_iff.1 hhead
    rw [← (List.cons.inj hrest).2, ← h.dashes hc more' rfl]
    exact opensComment_append_blanks hb more'
  · exact head?_append_blanks hb (by decide) hstar

include hb in
lemma dropGap_append_blanks (m : GapMode) (cs : List Char) :
    dropGap m (cs ++ b) = dropGap m cs ++ if dropGap m cs = [] then [] else b := by
  fun_induction dropGap m cs with
  | case1 m => simpa using dropGap_blanks hb m
  | case2 rest ih => rw [List.cons_append, dropGap, ih]
  | case3 rest hopens ih =>
    rw [List.cons_append, List.cons_append, dropGap,
      if_pos ((opensComment_append_blanks hb rest).trans hopens), ih]
  | case4 rest hopens =>
    -- two dashes that open no comment, which the blanks do not change
    rw [List.cons_append, List.cons_append, dropGap,
      if_neg ((opensComment_append_blanks hb rest).symm ▸ hopens)]
    simp
  | case5 rest ih => rw [List.cons_append, List.cons_append, dropGap, ih]
  | case6 c rest _ _ _ hblank ih => rw [List.cons_append, dropGap_of_isBlank hblank, ih]
  | case7 c rest hhash hdashes hslash hblank =>
    -- a token starts here, with the blanks as without them
    have hdrop : dropGap .blanks (c :: rest) = c :: rest := by
      rw [dropGap.eq_5 _ _ hhash hdashes hslash, if_neg hblank]
    rw [List.cons_append, (startsToken_append_blanks hb (startsToken_of_dropGap hdrop)).dropGap]
    simp
  | case8 rest ih => rw [List.cons_append, dropGap, ih]
  | case9 c rest hc ih => rw [List.cons_append, dropGap.eq_7 _ _ hc, ih]
  | case10 rest ih => rw [List.cons_append, List.cons_append, dropGap, ih]
  | case11 c rest hc ih =>
    -- no blank closes a block comment
    rw [List.cons_append, dropGap.eq_9, ih]
    intro more hstar hmore
    have hhead := head?_append_blanks hb (by decide) (congrArg List.head? hmore)
    obtain ⟨rest', rfl⟩ := List.head?_eq_some_iff.1 hhead
    exact hc rest' hstar rfl

lemma readQuotedName_append_of_none {cs b : List Char} (hb : '\x60' ∉ b)
    (h : readQuotedName cs = none) : readQuotedName (cs ++ b) = none := by
  fun_induction readQuotedName cs with
  | case1 =>
    rw [List.nil_append]
    fun_induction readQuotedName b with
    | case1 => rfl
    | case2 | case3 => simp at hb
    | case4 c more _ _ ih => simp [ih (by simp_all)]
  | case2 more ih =>
    rw [List.cons_append, List.cons_append, readQuotedName, ih (by simpa using h)]
    rfl
  | case3 more hmore => cases h
  | case4 c more hc hc' ih =>
    rw [List.cons_append, readQuotedName.eq_4 _ _ (fun more hc _ => hc' hc) hc',
      ih (by simpa using h)]
    rfl

lemma readString_of_not_mem {q : Char} {b : List Char} (hb : q ∉ b) : readString q b = none := by
  fun_induction readString q b with
  | case1 => rfl
  | case2 | case5 | case6 => simp at hb
  | case3 => rfl
  | case4 d more ih => simp [ih (by simp_all)]
  | case7 c d more _ _ ih => simp [ih (by simp_all)]

lemma readString_append_of_none {q : Char} {cs b : List Char} (hb : q ∉ b)
    (h : readString q cs = none) : readString q (cs ++ b) = none := by
  fun_induction readString q cs with
  | case1 => exact readString_of_not_mem hb
  | case2 => cases h
  | case3 c hc =>
    rcases b with _ | ⟨d, b⟩
    · simp [readString, hc]
    · have hrest : readString q (d :: b) = none ∧ readString q b = none :=
        ⟨readString_of_not_mem hb, readString_of_not_mem fun h => hb (List.mem_cons_of_mem _ h)⟩
      simp [readString, hc, hrest]
  | case4 d more ih => simp [readString, ih (by simpa using h)]
  | case5 more hb' ih => simp [readString, hb', ih (by simpa using h)]
  | case6 d more hd _ => cases h
  | case7 c d more hb' hc ih =>
    have ih := ih (by simpa using h)
    rw [List.cons_append] at ih
    simp [readString, hb', hc, ih]

include hb in
lemma read_append_of_malformed {c : Char} {more rest : List Char} {reason : Malformed}
    (h : Lexeme.read c more = (.malformed reason, rest)) :
    rest = [] ∧ Lexeme.read c (more ++ b) = (.malformed reason, []) := by
  have hquote (q : Char) (hq : isBlank q = false) : q ∉ b := fun hmem =>
    absurd (hb q hmem) (by simp [hq])
  obtain ⟨hrest, ⟨rfl, hc, hname⟩ | ⟨rfl, hc, hstring⟩ | ⟨rfl, hc, inner, hinner, rfl⟩⟩ :=
    read_malformed h
  · have hopen := readQuotedName_append_of_none (hquote '\x60' (by decide)) hname
    exact ⟨hrest, (Reads.openName hc hopen).eq_read.symm⟩
  · have hblank : isBlank c = false := by rcases hc with rfl | rfl <;> decide
    have hopen := readString_append_of_none (hquote c hblank) hstring
    exact ⟨hrest, (Reads.openString hc hopen).eq_read.symm⟩
  · have hopen : '\x27' ∉ inner ++ b := by simpa using ⟨hinner, hquote '\x27' (by decide)⟩
    exact ⟨hrest, (Reads.openLiteral hc hopen rfl).eq_read.symm⟩

include hb in
lemma lexemes_append_blanks (cs : List Char) : lexemes (cs ++ b) = lexemes cs := by
  induction hlength : cs.length using Nat.strong_induction_on generalizing cs with
  | _ n ih =>
  have hgap := dropGap_append_blanks hb .blanks cs
  rcases hdrop : dropGap .blanks cs with _ | ⟨c, more⟩
  · rw [hdrop] at hgap
    rw [lexemes_of_nil hdrop, lexemes_of_nil hgap]
  · rw [hdrop, if_neg (List.cons_ne_nil c more), List.cons_append] at hgap
    rw [lexemes_of_cons hdrop, lexemes_of_cons hgap]
    obtain ⟨l, rest, hread⟩ : ∃ l rest, Lexeme.read c more = (l, rest) := ⟨_, _, rfl⟩
    have hrest : rest.length < n := by
      have hcs := (dropGap_suffix .blanks cs).length_le
      have hmore : rest.length ≤ more.length := by
        simpa [hread] using (Lexeme.read_suffix c more).length_le
      rw [hdrop, List.length_cons] at hcs
      omega
    -- A token that nothing ends takes the blanks in; any other ends where it did.
    by_cases hmalformed : ∃ reason, l = .malformed reason
    · obtain ⟨reason, rfl⟩ := hmalformed
      obtain ⟨rfl, hopen⟩ := read_append_of_malformed hb hread
      rw [hread, hopen]
    · obtain ⟨w, rfl, hlocal⟩ := read_local hread fun reason hl => hmalformed ⟨reason, hl⟩
      have hcontinues : Continues (rest ++ []) (rest ++ b) :=
        .append_left rest fun c hc => isNeutral_of_isBlank (hb c (List.mem_of_mem_head? hc))
      rw [List.append_nil] at hcontinues
      rw [hread, List.append_assoc, hlocal _ hcontinues,
        ih rest.length hrest rest rfl]

end

lemma lexemes_trim (cs : List Char) : lexemes (trim cs) = lexemes cs := by
  obtain ⟨b, b', hcs, hb, hb'⟩ := exists_trim cs
  conv_rhs => rw [hcs, lexemes_append_blanks hb', lexemes_congr (dropGap_blanks_append hb _)]

/-! ### Statements and groups -/

def groups (text : String) : List (List Lexeme) :=
  ((lexemes text.toList).splitOnP (· = .semicolon)).filter (· ≠ [])

def statementKinds (text : String) : List (List Lexeme) :=
  ((statements text).map fun s => lexemes s.toList).filter (· ≠ [])

lemma filter_map_filter_ne_nil {α β : Type} [DecidableEq α] [DecidableEq β]
    {f : List α → List β} (hf : f [] = []) (xs : List (List α)) :
    ((xs.filter (· ≠ [])).map f).filter (· ≠ []) = (xs.map f).filter (· ≠ []) := by
  induction xs with
  | nil => rfl
  | cons x xs ih =>
    rcases x with _ | ⟨a, x⟩
    · simpa [hf] using ih
    · rw [List.filter_cons_of_pos (by simp), List.map_cons, List.map_cons, List.filter_cons,
        List.filter_cons, ih]

lemma statementKinds_eq (text : String) :
    statementKinds text = ((cut .plain text.toList).map lexemes).filter (· ≠ []) := by
  have hnil : lexemes [] = [] := lexemes_of_nil (by rw [dropGap])
  have hstring : (fun s => lexemes s.toList) ∘ String.ofList = lexemes := by
    funext cs
    simp
  have htrim : lexemes ∘ trim = lexemes := funext lexemes_trim
  rw [statementKinds, statements_eq, trimmedPieces, List.map_map, hstring,
    filter_map_filter_ne_nil hnil, List.map_map, htrim]

lemma flatten_splitOnP {α : Type} (p : α → Bool) (xs : List α) :
    (xs.splitOnP p).flatten = xs.filter fun x => !p x := by
  induction xs with
  | nil => rfl
  | cons x xs ih =>
    rw [List.splitOnP_cons_eq_if_modifyHead]
    obtain ⟨y, ys, hys⟩ := List.exists_cons_of_ne_nil (List.splitOnP_ne_nil p xs)
    rw [hys] at ih ⊢
    rcases hx : p x with _ | _
    · simpa [hx] using ih
    · simpa [hx] using ih

lemma kinds_append (ts us : List Token) : kinds (ts ++ us) = kinds ts ++ kinds us := by
  simp [kinds]

/-- Pairs of dashes are lost if and only if one is exposed. -/
lemma visible_cases (ts : List Token) :
    visible ts = ts ∧ (∀ a b c, [a, b, c] <:+: ts → dashesExposed a b c = false) ∨
      (kinds (visible ts)).count (.other '-') < (kinds ts).count (.other '-') ∧
        ∃ a b c, [a, b, c] <:+: ts ∧ dashesExposed a b c = true := by
  fun_induction visible ts with
  | case1 a b c rest hexposed ih =>
    -- the first two tokens are an exposed pair, and go
    refine .inr ⟨?_, a, b, c, ⟨[], rest, rfl⟩, hexposed⟩
    simp only [dashesExposed, Bool.and_eq_true, decide_eq_true_eq] at hexposed
    obtain ⟨⟨⟨ha, hb⟩, -⟩, -⟩ := hexposed
    have hle : (kinds (visible (c :: rest))).count (.other '-') ≤
        (kinds (c :: rest)).count (.other '-') := by
      rcases ih with ⟨hsame, -⟩ | ⟨hlt, -⟩
      · rw [hsame]
      · exact hlt.le
    rw [kinds_cons (by simp [ha]), kinds_cons (by simp [hb]), ha, hb, List.count_cons_self,
      List.count_cons_self]
    omega
  | case2 a b c rest hexposed ih =>
    -- the first token stays, and the rest decides
    rcases ih with ⟨hsame, hnone⟩ | ⟨hlt, a', b', c', hinfix, hexposed'⟩
    · refine .inl ⟨by rw [hsame], fun a' b' c' hinfix => ?_⟩
      rcases List.infix_cons_iff.1 hinfix with hprefix | hinfix
      · obtain ⟨more, hmore⟩ := hprefix
        obtain ⟨rfl, rfl, rfl, -⟩ : a' = a ∧ b' = b ∧ c' = c ∧ more = rest := by
          simpa using hmore
        simpa using hexposed
      · exact hnone a' b' c' hinfix
    · refine .inr ⟨?_, a', b', c', hinfix.trans (List.suffix_cons ..).isInfix, hexposed'⟩
      have hcount (us : List Token) : (kinds (a :: us)).count (.other '-') =
          (kinds [a]).count (.other '-') + (kinds us).count (.other '-') := by
        rw [← List.singleton_append, kinds_append, List.count_append]
      rw [hcount (visible _), hcount (b :: c :: rest)]
      exact Nat.add_lt_add_left hlt _
  | case3 ts hshort =>
    -- fewer than three tokens
    refine .inl ⟨rfl, fun a b c hinfix => ?_⟩
    obtain ⟨front, rest, rfl⟩ := hinfix
    rcases front with _ | ⟨x, _ | ⟨y, _ | ⟨z, front⟩⟩⟩ <;> exact (hshort _ _ _ _ rfl).elim

/-- **Statements and lexer agree exactly when no dashes are lost**, where no bit or hex literal ends
in an escape. -/
theorem statementKinds_eq_groups_iff (text : String)
    (hliteral : ∀ s, .literal s ∈ lexemes text.toList → endsEscaped s.toList = false) :
    statementKinds text = groups text ↔
      ∀ a b c, [a, b, c] <:+: tokens text → dashesExposed a b c = false := by
  have hkinds : statementKinds text =
      ((kinds (visible (tokens text))).splitOnP (· = .semicolon)).filter (· ≠ []) := by
    rw [statementKinds_eq, map_lexemes_cut 0 _ hliteral]
    rfl
  have hgroups : groups text =
      ((kinds (tokens text)).splitOnP (· = .semicolon)).filter (· ≠ []) := rfl
  rw [hkinds, hgroups]
  rcases visible_cases (tokens text) with ⟨hsame, hnone⟩ | ⟨hlt, a, b, c, hinfix, hexposed⟩
  · rw [hsame]
    exact ⟨fun _ => hnone, fun _ => rfl⟩
  · constructor
    · intro heq
      have hflat := congrArg List.flatten heq
      rw [List.flatten_filter_ne_nil, List.flatten_filter_ne_nil, flatten_splitOnP,
        flatten_splitOnP] at hflat
      have hcount := congrArg (List.count (.other '-')) hflat
      rw [List.count_filter (by simp), List.count_filter (by simp)] at hcount
      omega
    · intro hnone
      rw [hnone a b c hinfix] at hexposed
      cases hexposed

theorem statementKinds_eq_groups_iff_shown :
    (∀ s, .literal s ∈ lexemes "SELECT x'\\a'; b".toList → endsEscaped s.toList = false) ∧
      (statementKinds "SELECT x'\\a'; b" = groups "SELECT x'\\a'; b" ↔
        ∀ a b c, [a, b, c] <:+: tokens "SELECT x'\\a'; b" → dashesExposed a b c = false) := by
  have hlexemes : lexemes "SELECT x'\\a'; b".toList =
      [.word "SELECT", .literal "x'\\a'", .semicolon, .word "b"] := by decide +kernel
  have hliteral : ∀ s, .literal s ∈ lexemes "SELECT x'\\a'; b".toList →
      endsEscaped s.toList = false := by
    intro s hs
    rw [hlexemes] at hs
    obtain rfl : s = "x'\\a'" := by simpa using hs
    decide +kernel
  exact ⟨hliteral, statementKinds_eq_groups_iff _ hliteral⟩

/-- A bit or hex literal that ends in a backslash hides the end of its statement. -/
theorem statementKinds_ne_groups :
    statementKinds "x'\\'; SELECT 'a'" ≠ groups "x'\\'; SELECT 'a'" := by
  decide +kernel

end Script

end SchemaDrift
