import Mathlib
import SchemaDrift.Proofs.StatementCut

/-!
The tokens of the statements of a script.
-/

namespace SchemaDrift

open Text (isBlank trim)

namespace Script

/-! ### Gaps -/

/-- The region of the cut in a gap. -/
def Region.ofGap : GapMode → Region
  | .blanks => .plain
  | .line => .line
  | .block => .block

lemma notMem_marks_of_isBlank {c : Char} (h : isBlank c = true) : c ∉ marks := by
  intro hc
  simp only [marks, List.mem_cons, List.not_mem_nil, or_false] at hc
  rcases hc with rfl | rfl | rfl | rfl | rfl | rfl | rfl <;> exact absurd h (by decide)

/-- The cut keeps of a gap what is a gap again. -/
lemma exists_cut_gap (m : GapMode) (cs : List Char) :
    ∃ g, cut (.ofGap m) cs = kept g (cut .plain (dropGap m cs)) ∧
      ∀ h hs, cut .plain (dropGap m cs) = h :: hs →
        if m = .block then
          dropGap .block (g ++ h) = dropGap .blanks h ∧ (g ++ h).head? = cs.head?
        else dropGap .blanks (g ++ h) = dropGap .blanks h := by
  fun_induction dropGap m cs with
  | case1 m =>
    -- the text ends
    refine ⟨[], by rw [cut_nil, cut_nil, kept_nil], fun h hs hcut => ?_⟩
    obtain ⟨rfl, rfl⟩ := List.cons.inj hcut
    cases m <;> simp [dropGap]
  | case2 rest ih =>
    -- a hash opens a line comment, of which the cut keeps nothing
    obtain ⟨g, hcut, hg⟩ := ih
    exact ⟨g, (cut_hash rest).trans hcut, hg⟩
  | case3 rest hopens ih =>
    -- so do two dashes
    obtain ⟨g, hcut, hg⟩ := ih
    refine ⟨g, ?_, hg⟩
    rw [Region.ofGap, cut_dashes hopens]
    exact hcut
  | case4 rest hopens => exact ⟨[], (kept_nil _).symm, fun h hs _ => rfl⟩
  | case5 rest ih =>
    -- a block comment is kept from its opening
    obtain ⟨g, hcut, hg⟩ := ih
    exact ⟨'/' :: '*' :: g, cut_trans (cut_open_block rest) hcut, fun h hs hrest =>
      (hg h hs hrest).1⟩
  | case6 c rest _ _ _ hblank ih =>
    -- a blank
    obtain ⟨g, hcut, hg⟩ := ih
    have hkept := sealed_singleton (notMem_marks_of_isBlank hblank) rest
    refine ⟨c :: g, cut_trans hkept hcut, fun h hs hrest => ?_⟩
    rw [if_neg (by decide), List.cons_append, dropGap_of_isBlank hblank]
    exact hg h hs hrest
  | case7 c rest _ _ _ hblank => exact ⟨[], (kept_nil _).symm, fun h hs _ => rfl⟩
  | case8 rest ih =>
    -- the line feed that ends a line comment is kept
    obtain ⟨g, hcut, hg⟩ := ih
    refine ⟨'\n' :: g, cut_trans (cut_newline rest) hcut, fun h hs hrest => ?_⟩
    rw [if_neg (by decide), List.cons_append, dropGap_of_isBlank (by decide)]
    exact hg h hs hrest
  | case9 c rest hc ih =>
    -- within a line comment
    obtain ⟨g, hcut, hg⟩ := ih
    refine ⟨g, ?_, hg⟩
    rw [Region.ofGap, cut_line hc]
    exact hcut
  | case10 rest ih =>
    -- the closing of a block comment
    obtain ⟨g, hcut, hg⟩ := ih
    exact ⟨'*' :: '/' :: g, cut_trans (cut_close_block rest) hcut, fun h hs hrest =>
      ⟨hg h hs hrest, rfl⟩⟩
  | case11 c rest hc ih =>
    -- Within a block comment. What is kept begins like the text, so the comment goes on in both.
    obtain ⟨g, hcut, hg⟩ := ih
    have hstar : c = '*' → rest.head? ≠ some '/' := by
      intro hstar hhead
      obtain ⟨more, hmore⟩ := List.head?_eq_some_iff.1 hhead
      exact hc more hstar hmore
    refine ⟨c :: g, cut_trans (cut_block hstar) hcut, fun h hs hrest => ?_⟩
    obtain ⟨hdrop, hhead⟩ := hg h hs hrest
    refine ⟨?_, rfl⟩
    rw [List.cons_append, dropGap.eq_9, hdrop]
    intro more hc' hmore
    exact hstar hc' (hhead ▸ congrArg List.head? hmore)

/-! ### The characters of a token -/

lemma cut_name_of_none {cs : List Char} (h : readQuotedName cs = none) :
    cut (.quoted '\x60') cs = [cs] := by
  fun_induction readQuotedName cs with
  | case1 => exact cut_nil _
  | case2 more ih =>
    rw [cut_close (by decide), cut_open (by decide), ih (by simpa using h)]
    rfl
  | case3 more hmore => cases h
  | case4 c more hc hc' ih =>
    rw [cut_within (.inr rfl) hc', ih (by simpa using h)]
    rfl

section

variable {q : Char} (hq : q = '\x27' ∨ q = '\x22')

include hq in
lemma quote_ne : q ≠ '\\' ∧ q ≠ '\x60' ∧ q ∈ quotationMarks := by
  rcases hq with rfl | rfl <;> decide

include hq in
lemma cut_string_of_none {cs : List Char} (h : readString q cs = none) :
    cut (.quoted q) cs = [cs] := by
  obtain ⟨hslash, hname, hmem⟩ := quote_ne hq
  fun_induction readString q cs with
  | case1 => exact cut_nil _
  | case2 => cases h
  | case3 c hc => exact cut_quoted_singleton q c
  | case4 d more ih =>
    rw [cut_escape hname, ih (by simpa using h)]
    rfl
  | case5 more hb ih =>
    rw [cut_close hmem, cut_open hmem, ih (by simpa using h)]
    rfl
  | case6 d more hd _ => cases h
  | case7 c d more hb hc ih =>
    rw [cut_within (.inl hb) hc, ih (by simpa using h)]
    rfl

end

/-- A backslash takes the last character with it, backslashes being read in pairs with what follows
them. -/
def endsEscaped : List Char → Bool
  | [] => false
  | ['\\', _] => true
  | '\\' :: _ :: rest => endsEscaped rest
  | _ :: rest => endsEscaped rest

lemma endsEscaped_cons {c : Char} (hc : c ≠ '\\') (cs : List Char) :
    endsEscaped (c :: cs) = endsEscaped cs := by
  rw [endsEscaped.eq_4]
  · exact fun _ h => absurd h hc
  · exact fun _ _ h => absurd h hc

lemma cut_literal {inner rest : List Char} (hinner : '\x27' ∉ inner)
    (hescaped : endsEscaped (inner ++ ['\x27']) = false) :
    cut (.quoted '\x27') (inner ++ '\x27' :: rest) = kept (inner ++ ['\x27']) (cut .plain rest) := by
  have hcons {c : Char} {inner : List Char} (hc : c ≠ '\\') (hq : '\x27' ∉ c :: inner)
      (ih : cut (.quoted '\x27') (inner ++ '\x27' :: rest) =
        kept (inner ++ ['\x27']) (cut .plain rest)) :
      cut (.quoted '\x27') (c :: inner ++ '\x27' :: rest) =
        kept (c :: inner ++ ['\x27']) (cut .plain rest) := by
    have hne : c ≠ '\x27' := fun he => hq (he ▸ List.mem_cons_self)
    exact cut_trans (v := [c]) (cut_within (.inl hc) hne _) ih
  induction inner using List.twoStepInduction with
  | nil => exact cut_close (by decide) rest
  | singleton c =>
    by_cases hc : c = '\\'
    · subst hc
      exact absurd hescaped (by decide)
    · exact hcons hc hinner (cut_close (by decide) rest)
  | cons_cons c d inner ih ih' =>
    by_cases hc : c = '\\'
    · subst hc
      have hrest : endsEscaped ('\\' :: d :: (inner ++ ['\x27'])) =
          endsEscaped (inner ++ ['\x27']) := by
        rw [endsEscaped.eq_3]
        simp
      rw [List.cons_append, List.cons_append, hrest] at hescaped
      exact cut_trans (v := ['\\', d]) (cut_escape (by decide) d _)
        (ih (fun h => hinner (by simp [h])) hescaped)
    · rw [List.cons_append, endsEscaped_cons hc] at hescaped
      exact hcons hc hinner (ih' d (fun h => hinner (List.mem_cons_of_mem _ h)) hescaped)

lemma cut_literal_of_open {inner : List Char} (hinner : '\x27' ∉ inner) :
    cut (.quoted '\x27') inner = [inner] := by
  induction inner using List.twoStepInduction with
  | nil => exact cut_nil _
  | singleton c => exact cut_quoted_singleton _ c
  | cons_cons c d inner ih ih' =>
    simp only [List.mem_cons, not_or] at hinner ih'
    by_cases hc : c = '\\'
    · rw [hc, cut_escape (by decide), ih hinner.2.2]
      rfl
    · rw [cut_within (.inl hc) (Ne.symm hinner.1), ih' d (by simpa using hinner.2)]
      rfl

lemma notMem_marks_of_isWordChar {c : Char} (h : isWordChar c = true) : c ∉ marks := by
  have hne := mt (isWordChar_eq_false c) (by simp [h])
  simp only [List.mem_cons, not_or] at hne
  simp [marks, hne]

lemma cut_starting {c : Char} {rest : List Char} (h : StartsToken c rest) (hend : c ≠ ';')
    (hquote : c ∉ ['\x60', '\x27', '\x22']) :
    cut .plain (c :: rest) = kept [c] (cut .plain rest) := by
  -- A dash or slash is a mark of the cut, but opens no comment where a token starts.
  by_cases hdash : c = '-'
  · subst hdash
    exact cut_dash (h.dashes rfl)
  by_cases hslash : c = '/'
  · subst hslash
    exact cut_slash (h.slash rfl)
  have hmark : c ∉ marks := by
    simp only [List.mem_cons, not_or] at hquote
    simp [marks, hend, h.hash, hdash, hslash, hquote]
  exact sealed_singleton hmark rest

lemma exists_cut_token {c : Char} {more rest : List Char} {l : Lexeme}
    (h : Lexeme.read c more = (l, rest)) (hl : ∀ reason, l ≠ .malformed reason)
    (hstarts : StartsToken c more) (hsemicolon : l ≠ .semicolon)
    (hliteral : ∀ s, l = .literal s → endsEscaped s.toList = false) :
    ∃ w, more = w ++ rest ∧ cut .plain (c :: more) = kept (c :: w) (cut .plain rest) := by
  have hreads := reads_read c more
  rw [h] at hreads
  generalize hr : (l, rest) = r at hreads
  cases hreads with
  | punctuation hc =>
    obtain ⟨rfl, rfl⟩ := Prod.mk.inj hr
    refine ⟨[], rfl, cut_starting hstarts ?_ ?_⟩
    · rintro rfl
      exact hsemicolon (Option.some.inj hc).symm
    · intro hquote
      simp only [List.mem_cons, List.not_mem_nil, or_false] at hquote
      rcases hquote with rfl | rfl | rfl <;> cases hc
  | name hc hname =>
    obtain ⟨rfl, rfl⟩ := Prod.mk.inj hr
    obtain ⟨w, hw, hmore, -⟩ := spells_of_readQuotedName hname
    rw [List.append_cons] at hmore
    refine ⟨w ++ ['\x60'], hmore, ?_⟩
    rw [hc, hmore]
    exact sealed_quotation hw (by decide) (by decide) rest
  | string hc hstring =>
    obtain ⟨rfl, rfl⟩ := Prod.mk.inj hr
    obtain ⟨w, hw, hmore, -⟩ := spells_of_readString hstring
    obtain ⟨-, hname, hmark⟩ := quote_ne hc
    rw [List.append_cons] at hmore
    refine ⟨w ++ [c], hmore, ?_⟩
    rw [hmore]
    exact sealed_quotation hw hmark (by simp [hname]) rest
  | @literal hc inner _ hinner hmore =>
    -- The cut reads the quotes as those of a string, so no escape may hide the closing one.
    obtain ⟨rfl, rfl⟩ := Prod.mk.inj hr
    have hkept := sealed_singleton (notMem_marks_of_isWordChar (isWordChar_of_opensLiteral hc))
    have hne : c ≠ '\\' := by
      rintro rfl
      cases hc
    have hescaped : endsEscaped (inner ++ ['\x27']) = false := by
      rw [← endsEscaped_cons (c := '\x27') (by decide), ← endsEscaped_cons hne]
      simpa using hliteral _ rfl
    refine ⟨'\x27' :: (inner ++ ['\x27']), by simp [hmore], ?_⟩
    rw [hmore]
    exact cut_trans (hkept _) (cut_trans (cut_open (by decide) _) (cut_literal hinner hescaped))
  | openName hc hname | openString hc hstring | openLiteral hc hinner hmore =>
    exact absurd (Prod.mk.inj hr).1 (hl _)
  | word hc hmore =>
    obtain ⟨w, rfl, hw, -⟩ := readWord_local hc hr.symm
    have hmarks : ∀ d ∈ c :: w, d ∉ marks := by
      intro d hd
      rcases List.mem_cons.1 hd with rfl | hd
      · exact notMem_marks_of_isWordChar hc
      · rcases hw d hd with hd | rfl
        · exact notMem_marks_of_isWordChar hd
        · decide
    exact ⟨w, rfl, sealed_of_notMem_marks hmarks rest⟩
  | other hpunctuation hc hquote =>
    obtain ⟨rfl, rfl⟩ := Prod.mk.inj hr
    refine ⟨[], rfl, cut_starting hstarts ?_ hquote⟩
    rintro rfl
    cases hpunctuation

lemma cut_of_malformed {c : Char} {more rest : List Char} {reason : Malformed}
    (h : Lexeme.read c more = (.malformed reason, rest)) :
    rest = [] ∧ cut .plain (c :: more) = [c :: more] := by
  obtain ⟨hrest, ⟨-, rfl, hname⟩ | ⟨-, hc, hstring⟩ | ⟨-, hc, inner, hinner, rfl⟩⟩ :=
    read_malformed h
  · rw [cut_open (by decide), cut_name_of_none hname]
    exact ⟨hrest, rfl⟩
  · rw [cut_open (quote_ne hc).2.2, cut_string_of_none hc hstring]
    exact ⟨hrest, rfl⟩
  · have hkept := sealed_singleton (notMem_marks_of_isWordChar (isWordChar_of_opensLiteral hc))
      ('\x27' :: inner)
    rw [List.singleton_append] at hkept
    rw [hkept, cut_open (by decide), cut_literal_of_open hinner]
    exact ⟨hrest, rfl⟩

end Script

end SchemaDrift
