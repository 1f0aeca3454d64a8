import Mathlib
import SchemaDrift.Text.Joined
import SchemaDrift.Proofs.StatementCut

/-!
Scripts joined with a semicolon. A script that ends in plain text leaves the scan as it was at the
start but for the statements found, so what follows the semicolon is cut as it is on its own. No
other script can be followed so.
-/

namespace SchemaDrift

open Text (isBlank trim)

namespace Script

/-- Outside quoted texts and comments. After two dashes the end of the script opens a line
comment. -/
def Mode.isPlain : Mode → Bool
  | .plain | .dash | .slash => true
  | .dashes | .quoted _ | .escaped _ | .lineComment | .blockComment | .blockStar => false

/-- Whether the scan of the script ends in plain text. -/
def endsPlain (script : String) : Bool := (Scan.start.run script.toList).mode.isPlain

/-! ### After the semicolon -/

lemma Scan.step_semicolon {s : Scan} (h : s.mode.isPlain = true) : s.step ';' = s.finish := by
  obtain ⟨m, current, finished⟩ := s
  cases m with
  | plain | dash | slash => rfl
  | dashes | quoted q | escaped q | lineComment | blockComment | blockStar => cases h

@[simp] lemma Scan.mode_finish (s : Scan) : s.finish.mode = .plain := by
  rw [finish]
  split <;> rfl

@[simp] lemma Scan.current_finish (s : Scan) : s.finish.current = [] := by
  rw [finish]
  split <;> rfl

/-- **What is found stays apart**: past an end of the statement, the scan adds to the statements
found those that it finds in the rest alone. -/
lemma Scan.outcome_finish (s : Scan) (cs : List Char) :
    s.finish.outcome cs = s.finish.finished.reverse ++ statements (String.ofList cs) := by
  rw [outcome, mode_finish, current_finish, statements_eq, String.toList_ofList]
  rw [List.reverse_nil, kept_nil, Mode.ahead]

lemma Scan.outcome_semicolon {s : Scan} (h : s.mode.isPlain = true) (cs : List Char) :
    s.outcome (';' :: cs) = s.outcome [] ++ statements (String.ofList cs) := by
  rw [← outcome_step, step_semicolon h, outcome_finish, outcome_nil]

/-! ### The characters that are not blank -/

def inked (cs : List Char) : ℕ := cs.countP (! isBlank ·)

@[simp] lemma inked_nil : inked [] = 0 := rfl

@[simp] lemma inked_append (v w : List Char) : inked (v ++ w) = inked v + inked w :=
  List.countP_append

lemma inked_trim (cs : List Char) : inked (trim cs) = inked cs := by
  obtain ⟨b, b', hcs, hb, hb'⟩ := exists_trim cs
  have hnone {w : List Char} (hw : ∀ c ∈ w, isBlank c = true) : inked w = 0 :=
    List.countP_eq_zero.2 fun c hc => by simp [hw c hc]
  conv_rhs => rw [hcs, inked_append, inked_append, hnone hb, hnone hb']
  omega

lemma sum_inked_trimmedPieces (pieces : List (List Char)) :
    ((trimmedPieces pieces).map fun t => inked t.toList).sum = (pieces.map inked).sum := by
  induction pieces with
  | nil => rfl
  | cons p pieces ih =>
    have hp := inked_trim p
    by_cases h : trim p = []
    · simp_all [trimmedPieces]
    · simp_all [trimmedPieces]

lemma sum_inked_kept (w : List Char) {pieces : List (List Char)} (h : pieces ≠ []) :
    ((kept w pieces).map inked).sum = inked w + (pieces.map inked).sum := by
  cases pieces with
  | nil => exact absurd rfl h
  | cons p pieces => simp [kept, Nat.add_assoc]

lemma ahead_ne_nil (m : Mode) (cs : List Char) : m.ahead cs ≠ [] := by
  have hcut (r : Region) (cs : List Char) : cut r cs ≠ [] := by
    obtain ⟨p, pieces, h⟩ := exists_cut_cons r cs
    simp [h]
  cases m with
  | slash | blockStar => simpa [Mode.ahead] using hcut _ _
  | plain | dash | dashes | quoted q | escaped q | lineComment | blockComment => exact hcut _ _

/-- A line comment loses the text after the semicolon, a quoted text or a block comment keeps the
semicolon, and before it two dashes are text. -/
lemma sum_inked_ahead {m : Mode} (h : m.isPlain = false) :
    ((m.ahead [';', 'x']).map inked).sum ≠ ((m.ahead []).map inked).sum + 1 := by
  have hquoted (q : Char) : (cut (.quoted q) [';', 'x']) = [[';', 'x']] := by
    rw [cut_quoted (.inl (by decide))]
    split
    · decide
    · rw [cut_quoted_singleton, kept_cons, List.singleton_append]
  cases m with
  | plain | dash | slash => cases h
  | dashes | lineComment | blockComment | blockStar => decide
  | escaped q =>
    have hkept : cut (.escaped q) [';', 'x'] = [[';', 'x']] :=
      congrArg (kept [';']) (cut_quoted_singleton q 'x')
    rw [Mode.ahead, Mode.ahead, hkept, cut_nil]
    decide
  | quoted q =>
    rw [Mode.ahead, Mode.ahead, hquoted, cut_nil]
    decide

/-! ### Joining -/

/-- **A semicolon after plain text**: what follows a script and a semicolon is cut as it is on its
own exactly if the script ends in plain text. -/
theorem endsPlain_iff_statements_append (a : String) :
    endsPlain a = true ↔ ∀ b, statements (a ++ ";" ++ b) = statements a ++ statements b := by
  have hjoined (b : String) : statements (a ++ ";" ++ b) =
      (Scan.start.run a.toList).outcome (';' :: b.toList) := by
    rw [statements, String.toList_append, String.toList_append, List.append_assoc, Scan.run_append,
      Scan.finished_run]
    rfl
  have ha : statements a = (Scan.start.run a.toList).outcome [] := by
    rw [statements, Scan.outcome_nil]
  constructor
  · intro h b
    rw [hjoined, ha, Scan.outcome_semicolon h, String.ofList_toList]
  · intro h
    by_contra hplain
    -- the characters that are not blank are counted: behind `a`, the text `;x` must add just the `x`
    have hx := h "x"
    rw [hjoined, ha, Scan.outcome, Scan.outcome, List.append_assoc,
      List.append_cancel_left_eq] at hx
    have hsum := congrArg (fun ts : List String => (ts.map fun t => inked t.toList).sum) hx
    simp only [List.map_append, List.sum_append, sum_inked_trimmedPieces,
      sum_inked_kept _ (ahead_ne_nil _ _)] at hsum
    refine sum_inked_ahead (Bool.not_eq_true _ ▸ hplain) ?_
    have hone : ((statements "x").map fun t => inked t.toList).sum = 1 := by decide
    exact Nat.add_left_cancel (hsum.trans (by rw [hone, Nat.add_assoc]))

/-- Two dashes at the end of a script open a comment there; with the semicolon they are text. -/
example : endsPlain "a --" = false ∧ statements "a --" ++ statements "b" = ["a", "b"] ∧
    statements "a --;b" = ["a --", "b"] := by
  decide +kernel

/-- **Joined scripts**: if each of them ends in plain text, the statements of scripts joined with
semicolons are those of the scripts in order. -/
theorem statements_joined {scripts : List String} (h : ∀ a ∈ scripts, endsPlain a = true) :
    statements (Text.joined ";" scripts) = scripts.flatMap statements := by
  fun_induction Text.joined ";" scripts with
  | case1 => rfl
  | case2 a => simp
  | case3 a b scripts ih =>
    have ha := (endsPlain_iff_statements_append a).1 (h a List.mem_cons_self)
    rw [ha, ih fun s hs => h s (List.mem_cons_of_mem _ hs), ← List.flatMap_cons]

end Script

end SchemaDrift
