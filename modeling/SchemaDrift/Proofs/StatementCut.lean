import Mathlib
import SchemaDrift.Script
import SchemaDrift.Proofs.TokenRead

/-!
Cutting a script into statements. The one-pass scan does the same as a cut that looks ahead, which has
an equation for every kind of text. Plain text and quoted texts are sealed: the cut keeps them whole
and goes on behind them as if they were not there.
-/

namespace SchemaDrift

open Text (isBlank trim)

namespace Script

/-! ### The cut, looking ahead -/

/-- Where the cut stands. -/
inductive Region where
  | plain
  | quoted (quote : Char)
  /-- After a backslash inside a quoted text. -/
  | escaped (quote : Char)
  | line
  /-- Before the asterisk that opens a block comment. -/
  | opening
  | block
  /-- Before the slash that closes a block comment. -/
  | closing
  deriving DecidableEq, Repr

/-- Adds characters to the first piece. -/
def kept (w : List Char) (pieces : List (List Char)) : List (List Char) :=
  pieces.modifyHead (w ++ ·)

/-- The region that begins after `c` in plain text. -/
def Region.after (c : Char) : Region :=
  if c = '\x27' || c = '\x22' || c = '\x60' then .quoted c else .plain

/-- Whether a dash before `rest` opens a comment. -/
def dashOpens (rest : List Char) : Bool := rest.head? = some '-' && opensComment rest.tail

/-- The pieces between semicolons, without line comments. -/
def cut : Region → List Char → List (List Char)
  | _, [] => [[]]
  | .plain, c :: rest =>
    if c = ';' then [] :: cut .plain rest
    else if c = '#' || (c = '-' && dashOpens rest) then cut .line rest
    else if c = '/' && rest.head? = some '*' then kept [c] (cut .opening rest)
    else kept [c] (cut (.after c) rest)
  | .quoted q, c :: rest =>
    if c = '\\' && q ≠ '\x60' then kept [c] (cut (.escaped q) rest)
    else kept [c] (cut (if c = q then .plain else .quoted q) rest)
  | .escaped q, c :: rest => kept [c] (cut (.quoted q) rest)
  | .line, c :: rest => if c = '\n' then kept [c] (cut .plain rest) else cut .line rest
  | .opening, c :: rest => kept [c] (cut .block rest)
  | .block, c :: rest =>
    kept [c] (cut (if c = '*' && rest.head? = some '/' then .closing else .block) rest)
  | .closing, c :: rest => kept [c] (cut .plain rest)

@[simp] lemma kept_nil (pieces : List (List Char)) : kept [] pieces = pieces := by
  cases pieces <;> rfl

@[simp] lemma kept_kept (v w : List Char) (pieces : List (List Char)) :
    kept v (kept w pieces) = kept (v ++ w) pieces := by
  cases pieces <;> simp [kept]

@[simp] lemma kept_cons (w p : List Char) (pieces : List (List Char)) :
    kept w (p :: pieces) = (w ++ p) :: pieces := rfl

lemma cut_nil (r : Region) : cut r [] = [[]] := by
  cases r <;> rfl

/-! ### What the cut does with a character -/

section

attribute [local simp] cut

lemma cut_semicolon (rest : List Char) : cut .plain (';' :: rest) = [] :: cut .plain rest := by simp

lemma cut_hash (rest : List Char) : cut .plain ('#' :: rest) = cut .line rest := by simp

lemma cut_dashes {rest : List Char} (h : opensComment rest = true) :
    cut .plain ('-' :: '-' :: rest) = cut .line rest := by
  have hopens : dashOpens ('-' :: rest) = true := by simp [dashOpens, h]
  simp [hopens]

lemma cut_plain {c : Char} {rest : List Char} (hc : c ∉ [';', '#', '-', '/']) :
    cut .plain (c :: rest) = kept [c] (cut (.after c) rest) := by
  simp only [List.mem_cons, not_or, List.not_mem_nil, not_false_eq_true, and_true] at hc
  simp [hc]

lemma cut_dash {rest : List Char} (h : ∀ more, rest = '-' :: more → opensComment more = false) :
    cut .plain ('-' :: rest) = kept ['-'] (cut .plain rest) := by
  have hopens : dashOpens rest = false := by
    rcases rest with _ | ⟨c, more⟩
    · rfl
    · by_cases hc : c = '-'
      · subst hc
        simp [dashOpens, h more rfl]
      · simp [dashOpens, hc]
  simp [hopens, Region.after]

lemma cut_dash_of_ne {c : Char} (hc : c ≠ '-') (rest : List Char) :
    cut .plain ('-' :: c :: rest) = kept ['-'] (cut .plain (c :: rest)) :=
  cut_dash fun _ hmore => absurd (List.cons.inj hmore).1 hc

lemma cut_slash {rest : List Char} (h : rest.head? ≠ some '*') :
    cut .plain ('/' :: rest) = kept ['/'] (cut .plain rest) := by
  simp [h, Region.after]

lemma cut_open_block (rest : List Char) :
    cut .plain ('/' :: '*' :: rest) = kept ['/', '*'] (cut .block rest) := by
  simp

lemma cut_quoted_singleton (q c : Char) : cut (.quoted q) [c] = [[c]] := by
  rw [cut]
  split <;> rw [cut_nil, kept_cons, List.append_nil]

lemma cut_quoted {q c : Char} {rest : List Char} (h : c ≠ '\\' ∨ q = '\x60') :
    cut (.quoted q) (c :: rest) = kept [c] (cut (if c = q then .plain else .quoted q) rest) := by
  have hnot : ¬ (c = '\\' && q ≠ '\x60') = true := by
    rcases h with hc | hq
    · simp [hc]
    · simp [hq]
  rw [cut, if_neg hnot]

lemma cut_within {q c : Char} (h : c ≠ '\\' ∨ q = '\x60') (hc : c ≠ q) (rest : List Char) :
    cut (.quoted q) (c :: rest) = kept [c] (cut (.quoted q) rest) := by
  rw [cut_quoted h, if_neg hc]

lemma cut_escape {q : Char} (hq : q ≠ '\x60') (c : Char) (rest : List Char) :
    cut (.quoted q) ('\\' :: c :: rest) = kept ['\\', c] (cut (.quoted q) rest) := by
  simp [hq]

lemma cut_newline (rest : List Char) : cut .line ('\n' :: rest) = kept ['\n'] (cut .plain rest) := by
  simp

lemma cut_line {c : Char} (h : c ≠ '\n') (rest : List Char) :
    cut .line (c :: rest) = cut .line rest := by
  simp [h]

lemma cut_close_block (rest : List Char) :
    cut .block ('*' :: '/' :: rest) = kept ['*', '/'] (cut .plain rest) := by
  simp

lemma cut_block {c : Char} {rest : List Char} (h : c = '*' → rest.head? ≠ some '/') :
    cut .block (c :: rest) = kept [c] (cut .block rest) := by
  rw [cut, if_neg (by simpa using h)]

end

lemma cut_trans {r r' : Region} {v w cs cs' : List Char} {pieces : List (List Char)}
    (h : cut r cs = kept v (cut r' cs')) (h' : cut r' cs' = kept w pieces) :
    cut r cs = kept (v ++ w) pieces := by
  rw [h, h', kept_kept]

/-! ### Sealed texts -/

/-- A text that is kept whole wherever it stands in the region, and after which the region goes on. -/
def Sealed (r : Region) (w : List Char) : Prop := ∀ rest, cut r (w ++ rest) = kept w (cut r rest)

/-- The characters that begin something else than plain text, or end it. -/
def marks : List Char := [';', '#', '-', '/', '\x27', '\x22', '\x60']

section

variable {r : Region} {v w : List Char}

lemma sealed_nil (r : Region) : Sealed r [] := fun _ => (kept_nil _).symm

lemma Sealed.append (hv : Sealed r v) (hw : Sealed r w) : Sealed r (v ++ w) := by
  intro rest
  rw [List.append_assoc]
  exact cut_trans (hv _) (hw rest)

lemma sealed_singleton {c : Char} (hc : c ∉ marks) : Sealed .plain [c] := by
  intro rest
  have hplain : c ∉ [';', '#', '-', '/'] := fun h =>
    hc (List.mem_append_left ['\x27', '\x22', '\x60'] h)
  have hafter : Region.after c = .plain := by
    refine if_neg fun hquote => hc ?_
    have hor : c = '\x27' ∨ c = '\x22' ∨ c = '\x60' := by simpa [or_assoc] using hquote
    rcases hor with rfl | rfl | rfl <;> decide
  exact (cut_plain hplain).trans (by rw [hafter]; rfl)

lemma sealed_of_notMem_marks (h : ∀ c ∈ w, c ∉ marks) : Sealed .plain w := by
  induction w with
  | nil => exact sealed_nil _
  | cons c w ih =>
    exact (sealed_singleton (h c List.mem_cons_self)).append
      (ih fun d hd => h d (List.mem_cons_of_mem c hd))

end

/-! ### Quoted texts are sealed -/

lemma cut_open {q : Char} (hq : q ∈ quotationMarks) (rest : List Char) :
    cut .plain (q :: rest) = kept [q] (cut (.quoted q) rest) := by
  simp only [quotationMarks, List.mem_cons, List.not_mem_nil, or_false] at hq
  rcases hq with rfl | rfl | rfl <;> exact cut_plain (by decide)

lemma cut_close {q : Char} (hq : q ∈ quotationMarks) (rest : List Char) :
    cut (.quoted q) (q :: rest) = kept [q] (cut .plain rest) := by
  have hslash : q ≠ '\\' := by
    rintro rfl
    exact absurd hq (by decide)
  rw [cut_quoted (.inl hslash), if_pos rfl]

section

variable {q : Char} {escapes : Bool} {w v : List Char} (h : Spells q escapes w v)
  (hq : q ∈ quotationMarks) (hescapes : escapes = true ↔ q ≠ '\x60')

include h hq hescapes

lemma sealed_spelled : Sealed (.quoted q) w := by
  intro rest
  induction h with
  | nil => exact sealed_nil _ rest
  | twice h ih => exact cut_trans (cut_close hq _) (cut_trans (cut_open hq _) ih)
  | escaped d he h ih => exact cut_trans (cut_escape (hescapes.1 he) d _) ih
  | @plain w v c hc hescape h ih =>
    have hslash : c ≠ '\\' ∨ q = '\x60' := by
      by_cases hname : q = '\x60'
      · exact .inr hname
      · exact .inl (hescape (hescapes.2 hname))
    exact cut_trans (cut_within hslash hc _) ih

lemma sealed_quotation : Sealed .plain (q :: (w ++ [q])) := by
  intro rest
  rw [List.cons_append, ← List.append_cons]
  exact cut_trans (cut_open hq _)
    (cut_trans (sealed_spelled h hq hescapes _) (cut_close hq rest))

end

/-! ### Pieces -/

lemma exists_cut_cons (r : Region) (cs : List Char) : ∃ h hs, cut r cs = h :: hs := by
  have hkept (w : List Char) {pieces : List (List Char)} (h : ∃ h hs, pieces = h :: hs) :
      ∃ h hs, kept w pieces = h :: hs := by
    obtain ⟨h, hs, rfl⟩ := h
    exact ⟨_, _, rfl⟩
  induction cs generalizing r with
  | nil => exact ⟨_, _, cut_nil r⟩
  | cons c cs ih =>
    cases r with
    | plain =>
      rw [cut]
      split
      · exact ⟨_, _, rfl⟩
      · split
        · exact ih _
        · split <;> exact hkept _ (ih _)
    | line =>
      rw [cut]
      split
      · exact hkept _ (ih _)
      · exact ih _
    | quoted q =>
      rw [cut]
      split <;> exact hkept _ (ih _)
    | escaped q | opening | block | closing => exact hkept _ (ih _)

@[simp] lemma modifyHead_tail_kept (c : Char) (pieces : List (List Char)) :
    (kept [c] pieces).modifyHead List.tail = pieces := by
  cases pieces <;> rfl

lemma exists_cut_slash (cs : List Char) : ∃ pieces, cut .plain ('/' :: cs) = kept ['/'] pieces := by
  by_cases h : cs.head? = some '*'
  · obtain ⟨rest, rfl⟩ := List.head?_eq_some_iff.1 h
    exact ⟨kept ['*'] (cut .block rest), by rw [cut_open_block, kept_kept]; rfl⟩
  · exact ⟨_, cut_slash h⟩

lemma exists_cut_star (cs : List Char) : ∃ pieces, cut .block ('*' :: cs) = kept ['*'] pieces := by
  by_cases h : cs.head? = some '/'
  · obtain ⟨rest, rfl⟩ := List.head?_eq_some_iff.1 h
    exact ⟨kept ['/'] (cut .plain rest), by rw [cut_close_block, kept_kept]; rfl⟩
  · exact ⟨_, cut_block fun _ => h⟩

/-! ### The scan does the same -/

/-- What the scan makes of the characters that are left when it is in the mode; those that it holds
back are among them. -/
def Mode.ahead : Mode → List Char → List (List Char)
  | .plain, cs => cut .plain cs
  | .dash, cs => cut .plain ('-' :: cs)
  | .dashes, cs => cut .plain ('-' :: '-' :: cs)
  | .slash, cs => (cut .plain ('/' :: cs)).modifyHead List.tail
  | .quoted q, cs => cut (.quoted q) cs
  | .escaped q, cs => cut (.escaped q) cs
  | .lineComment, cs => cut .line cs
  | .blockComment, cs => cut .block cs
  | .blockStar, cs => (cut .block ('*' :: cs)).modifyHead List.tail

namespace Mode

lemma kept_ahead_slash (cs : List Char) :
    kept ['/'] (ahead .slash cs) = cut .plain ('/' :: cs) := by
  obtain ⟨pieces, hpieces⟩ := exists_cut_slash cs
  rw [ahead, hpieces, modifyHead_tail_kept]

lemma ahead_slash {cs : List Char} (h : cs.head? ≠ some '*') : ahead .slash cs = cut .plain cs := by
  rw [ahead, cut_slash h, modifyHead_tail_kept]

lemma ahead_slash_star (cs : List Char) :
    ahead .slash ('*' :: cs) = kept ['*'] (cut .block cs) := by
  have hopen : cut .plain ('/' :: '*' :: cs) = kept ['/'] (kept ['*'] (cut .block cs)) := by
    rw [cut_open_block, kept_kept]
    rfl
  rw [ahead, hopen, modifyHead_tail_kept]

lemma kept_ahead_blockStar (cs : List Char) :
    kept ['*'] (ahead .blockStar cs) = cut .block ('*' :: cs) := by
  obtain ⟨pieces, hpieces⟩ := exists_cut_star cs
  rw [ahead, hpieces, modifyHead_tail_kept]

lemma ahead_blockStar {cs : List Char} (h : cs.head? ≠ some '/') :
    ahead .blockStar cs = cut .block cs := by
  rw [ahead, cut_block fun _ => h, modifyHead_tail_kept]

lemma ahead_blockStar_slash (cs : List Char) :
    ahead .blockStar ('/' :: cs) = kept ['/'] (cut .plain cs) := by
  have hclose : cut .block ('*' :: '/' :: cs) = kept ['*'] (kept ['/'] (cut .plain cs)) := by
    rw [cut_close_block, kept_kept]
    rfl
  rw [ahead, hclose, modifyHead_tail_kept]

end Mode

/-- Pieces without the blanks around them; those that are blank are dropped. -/
def trimmedPieces (pieces : List (List Char)) : List String :=
  ((pieces.map trim).filter (· ≠ [])).map String.ofList

namespace Scan

/-- The statements that the scan ends with if `cs` is left. -/
def outcome (s : Scan) (cs : List Char) : List String :=
  s.finished.reverse ++ trimmedPieces (kept s.current.reverse (s.mode.ahead cs))

lemma finished_close (s : Scan) :
    s.close.finished.reverse = s.finished.reverse ++ trimmedPieces [s.current.reverse] := by
  by_cases h : trim s.current.reverse = [] <;> simp [close, h, trimmedPieces]

lemma outcome_close (s : Scan) (cs : List Char) :
    s.close.outcome cs = s.finished.reverse ++ trimmedPieces (s.current.reverse :: cut .plain cs) := by
  have hpieces : trimmedPieces (s.current.reverse :: cut .plain cs) =
      trimmedPieces [s.current.reverse] ++ trimmedPieces (cut .plain cs) := by
    simp [trimmedPieces, List.filter_cons]
    split <;> simp
  rw [hpieces, ← List.append_assoc, ← finished_close]
  simp [outcome, close, Mode.ahead]

lemma outcome_eq {m m' : Mode} {current : List Char} {finished : List String} (w : List Char)
    {cs cs' : List Char} (h : m.ahead cs = kept w (m'.ahead cs')) :
    (⟨m', w.reverse ++ current, finished⟩ : Scan).outcome cs' =
      (⟨m, current, finished⟩ : Scan).outcome cs := by
  simp [outcome, h]

lemma outcome_plainStep (m : Mode) (current : List Char) (finished : List String) (c : Char)
    (cs : List Char) : ((⟨m, current, finished⟩ : Scan).plainStep c).outcome cs =
      (⟨.plain, current, finished⟩ : Scan).outcome (c :: cs) := by
  unfold plainStep
  by_cases hend : c = ';'
  · subst hend
    rw [if_pos rfl, outcome_close]
    simp [outcome, Mode.ahead, cut_semicolon]
  · rw [if_neg hend]
    by_cases hquote : (c = '\x27' || c = '\x22' || c = '\x60') = true
    · have hplain : c ∉ [';', '#', '-', '/'] := by
        have hc : c = '\x27' ∨ c = '\x22' ∨ c = '\x60' := by simpa [or_assoc] using hquote
        rcases hc with rfl | rfl | rfl <;> decide
      have hafter : Region.after c = .quoted c := if_pos (by simpa using hquote)
      rw [if_pos hquote]
      exact outcome_eq [c] ((cut_plain hplain).trans (by rw [hafter, Mode.ahead]))
    · rw [if_neg hquote]
      by_cases hhash : c = '#'
      · subst hhash
        rw [if_pos rfl]
        exact outcome_eq [] (by simp [Mode.ahead, cut_hash])
      · rw [if_neg hhash]
        by_cases hdash : c = '-'
        · subst hdash
          rw [if_pos rfl]
          exact outcome_eq [] (by simp [Mode.ahead])
        · rw [if_neg hdash]
          by_cases hslash : c = '/'
          · subst hslash
            rw [if_pos rfl]
            exact outcome_eq ['/'] (Mode.kept_ahead_slash cs).symm
          · rw [if_neg hslash]
            have hafter : Region.after c = .plain := if_neg (by simpa using hquote)
            have hplain : c ∉ [';', '#', '-', '/'] := by simp [*]
            exact outcome_eq [c] ((cut_plain hplain).trans (by rw [hafter, Mode.ahead]))

lemma outcome_lineCommentStep (m : Mode) (current : List Char) (finished : List String) (c : Char)
    (cs : List Char) : ((⟨m, current, finished⟩ : Scan).lineCommentStep c).outcome cs =
      (⟨.lineComment, current, finished⟩ : Scan).outcome (c :: cs) := by
  unfold lineCommentStep
  by_cases hc : c = '\n'
  · subst hc
    exact outcome_eq ['\n'] (cut_newline cs)
  · rw [if_neg hc]
    exact outcome_eq [] ((cut_line hc cs).trans (kept_nil _).symm)

/-! One lemma for each mode that looks at more than the character itself. -/

section

variable (current : List Char) (finished : List String) (c : Char) (cs : List Char)

lemma outcome_step_dash : ((⟨.dash, current, finished⟩ : Scan).step c).outcome cs =
    (⟨.dash, current, finished⟩ : Scan).outcome (c :: cs) := by
  simp only [step]
  by_cases hc : c = '-'
  · subst hc
    rw [if_pos rfl]
    exact outcome_eq [] (by simp [Mode.ahead])
  · rw [if_neg hc]
    exact (outcome_plainStep ..).trans (outcome_eq ['-'] (cut_dash_of_ne hc cs))

lemma outcome_step_dashes : ((⟨.dashes, current, finished⟩ : Scan).step c).outcome cs =
    (⟨.dashes, current, finished⟩ : Scan).outcome (c :: cs) := by
  simp only [step]
  by_cases hblank : isBlank c = true
  · rw [if_pos hblank]
    refine (outcome_lineCommentStep ..).trans (outcome_eq [] ?_)
    rw [Mode.ahead, Mode.ahead, kept_nil, cut_dashes (by simpa [opensComment] using hblank)]
  · -- the first dash is text, whatever follows the second
    have hdash : cut .plain ('-' :: '-' :: c :: cs) = kept ['-'] (cut .plain ('-' :: c :: cs)) := by
      refine cut_dash fun more hmore => ?_
      obtain rfl := (List.cons.inj hmore).2
      simpa [opensComment] using hblank
    rw [if_neg hblank]
    by_cases hc : c = '-'
    · subst hc
      rw [if_pos rfl]
      exact outcome_eq ['-'] hdash
    · rw [if_neg hc]
      refine (outcome_plainStep ..).trans (outcome_eq ['-', '-'] ?_)
      rw [Mode.ahead, Mode.ahead, hdash, cut_dash_of_ne hc, kept_kept]
      rfl

lemma outcome_step_slash : ((⟨.slash, current, finished⟩ : Scan).step c).outcome cs =
    (⟨.slash, current, finished⟩ : Scan).outcome (c :: cs) := by
  simp only [step]
  by_cases hc : c = '*'
  · subst hc
    rw [if_pos rfl]
    exact outcome_eq ['*'] (Mode.ahead_slash_star cs)
  · rw [if_neg hc]
    refine (outcome_plainStep ..).trans (outcome_eq [] ?_)
    rw [Mode.ahead_slash (by simpa using hc), kept_nil, Mode.ahead]

lemma outcome_step_quoted (q : Char) :
    ((⟨.quoted q, current, finished⟩ : Scan).step c).outcome cs =
      (⟨.quoted q, current, finished⟩ : Scan).outcome (c :: cs) := by
  simp only [step]
  by_cases hescape : (c = '\\' && q ≠ '\x60') = true
  · obtain ⟨rfl, hq⟩ : c = '\\' ∧ q ≠ '\x60' := by simpa using hescape
    rw [if_pos hescape]
    exact outcome_eq ['\\'] (by rw [Mode.ahead, Mode.ahead, cut, if_pos hescape])
  · have hnot : c ≠ '\\' ∨ q = '\x60' := by
      by_contra hnot
      rw [not_or, not_not] at hnot
      exact hescape (by simpa using hnot)
    have hcut : cut (.quoted q) (c :: cs) = _ := cut_quoted hnot
    rw [if_neg hescape]
    split
    · rename_i hc
      rw [if_pos hc] at hcut
      exact outcome_eq [c] hcut
    · rename_i hc
      rw [if_neg hc] at hcut
      exact outcome_eq [c] hcut

lemma outcome_step_blockComment :
    ((⟨.blockComment, current, finished⟩ : Scan).step c).outcome cs =
      (⟨.blockComment, current, finished⟩ : Scan).outcome (c :: cs) := by
  simp only [step]
  by_cases hc : c = '*'
  · subst hc
    rw [if_pos rfl]
    exact outcome_eq ['*'] (Mode.kept_ahead_blockStar cs).symm
  · rw [if_neg hc]
    exact outcome_eq [c] (cut_block fun h => absurd h hc)

lemma outcome_step_blockStar : ((⟨.blockStar, current, finished⟩ : Scan).step c).outcome cs =
    (⟨.blockStar, current, finished⟩ : Scan).outcome (c :: cs) := by
  simp only [step]
  by_cases hslash : c = '/'
  · subst hslash
    rw [if_pos rfl]
    exact outcome_eq ['/'] (Mode.ahead_blockStar_slash cs)
  · have hgo : (Mode.blockStar).ahead (c :: cs) = cut .block (c :: cs) :=
      Mode.ahead_blockStar (by simpa using hslash)
    rw [if_neg hslash]
    by_cases hc : c = '*'
    · subst hc
      rw [if_pos rfl]
      exact outcome_eq ['*'] (hgo.trans (Mode.kept_ahead_blockStar cs).symm)
    · rw [if_neg hc]
      exact outcome_eq [c] (hgo.trans (cut_block fun h => absurd h hc))

end

/-- One step of the scan leaves open what the cut leaves open. -/
lemma outcome_step (s : Scan) (c : Char) (cs : List Char) :
    (s.step c).outcome cs = s.outcome (c :: cs) := by
  obtain ⟨m, current, finished⟩ := s
  cases m with
  | plain => exact outcome_plainStep ..
  | dash => exact outcome_step_dash ..
  | dashes => exact outcome_step_dashes ..
  | slash => exact outcome_step_slash ..
  | quoted q => exact outcome_step_quoted ..
  | escaped q => exact outcome_eq [c] rfl
  | lineComment => exact outcome_lineCommentStep ..
  | blockComment => exact outcome_step_blockComment ..
  | blockStar => exact outcome_step_blockStar ..

lemma outcome_nil (s : Scan) : s.outcome [] = s.finish.finished.reverse := by
  obtain ⟨m, current, finished⟩ := s
  have hempty (hm : m ≠ .dash) : m.ahead [] = [[]] := by
    cases m with
    | dash => exact absurd rfl hm
    | dashes => rw [Mode.ahead, cut_dashes rfl, cut_nil]
    | slash => rw [Mode.ahead_slash (by simp), cut_nil]
    | blockStar => rw [Mode.ahead_blockStar (by simp), cut_nil]
    | plain | quoted q | escaped q | lineComment | blockComment => rw [Mode.ahead, cut_nil]
  by_cases hm : m = .dash
  · subst hm
    have hdash : (Mode.dash).ahead [] = kept ['-'] [[]] := cut_dash (by simp)
    simp only [finish, if_true, finished_close, outcome, hdash]
    simp [keep]
  · rw [finish, if_neg hm, finished_close, outcome, hempty hm]
    simp

lemma finished_run (s : Scan) (cs : List Char) :
    (s.run cs).finish.finished.reverse = s.outcome cs := by
  induction cs generalizing s with
  | nil => exact s.outcome_nil.symm
  | cons c cs ih => rw [run_cons, ih, outcome_step]

end Scan

/-- **The scan cuts**: the statements are the pieces of the cut. -/
theorem statements_eq (text : String) :
    statements text = trimmedPieces (cut .plain text.toList) := by
  rw [statements, Scan.finished_run]
  simp [Scan.outcome, Scan.start, Mode.ahead]

end Script

end SchemaDrift
