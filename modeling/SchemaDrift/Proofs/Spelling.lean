import Mathlib
import SchemaDrift.Token.Scan

/-!
What stands between quotation marks. Every character of a name or string is spelled by one or two
characters, the mark itself always by two. The readers of quoted names and of strings are sound and
complete for it: they read what is spelled up to the first mark that no second one follows.
-/

namespace SchemaDrift

def quotationMarks : List Char := ['\x27', '\x22', '\x60']

/-- What stands between two marks `q`, and the text that it stands for; backslashes escape in strings
alone. -/
inductive Spells (q : Char) (escapes : Bool) : List Char → List Char → Prop where
  | nil : Spells q escapes [] []
  | twice {w v : List Char} (h : Spells q escapes w v) : Spells q escapes (q :: q :: w) (q :: v)
  | escaped {w v : List Char} (d : Char) (hescapes : escapes = true) (h : Spells q escapes w v) :
    Spells q escapes ('\\' :: d :: w) (unescaped d ++ v)
  | plain {w v : List Char} {c : Char} (hq : c ≠ q) (hescape : escapes = true → c ≠ '\\')
    (h : Spells q escapes w v) : Spells q escapes (c :: w) (c :: v)

/-! ### What is read is spelled -/

lemma spells_of_readQuotedName {cs v rest : List Char} (h : readQuotedName cs = some (v, rest)) :
    ∃ w, Spells '\x60' false w v ∧ cs = w ++ '\x60' :: rest ∧ rest.head? ≠ some '\x60' := by
  fun_induction readQuotedName cs generalizing v rest with
  | case1 => cases h
  | case2 more ih =>
    obtain ⟨⟨v, _⟩, hr, ⟨⟩⟩ := Option.map_eq_some_iff.1 h
    obtain ⟨w, hw, rfl, hrest⟩ := ih hr
    exact ⟨_, .twice hw, rfl, hrest⟩
  | case3 more hmore =>
    -- The closing mark is not followed by another one, which would make both a character.
    cases h
    refine ⟨[], .nil, rfl, fun hhead => ?_⟩
    obtain ⟨more', rfl⟩ := List.head?_eq_some_iff.1 hhead
    exact hmore _ rfl
  | case4 c more _ hc ih =>
    obtain ⟨⟨v, _⟩, hr, ⟨⟩⟩ := Option.map_eq_some_iff.1 h
    obtain ⟨w, hw, rfl, hrest⟩ := ih hr
    exact ⟨_, .plain hc (by simp) hw, rfl, hrest⟩

lemma spells_of_readString {q : Char} {cs v rest : List Char}
    (h : readString q cs = some (v, rest)) :
    ∃ w, Spells q true w v ∧ cs = w ++ q :: rest ∧ rest.head? ≠ some q := by
  fun_induction readString q cs generalizing v rest with
  | case1 => cases h
  | case2 =>
    cases h
    exact ⟨[], .nil, rfl, by simp⟩
  | case3 => cases h
  | case4 d more ih =>
    -- an escape
    obtain ⟨⟨v, _⟩, hr, ⟨⟩⟩ := Option.map_eq_some_iff.1 h
    obtain ⟨w, hw, rfl, hrest⟩ := ih hr
    exact ⟨_, .escaped d rfl hw, rfl, hrest⟩
  | case5 more _ ih =>
    -- the mark written twice
    obtain ⟨⟨v, _⟩, hr, ⟨⟩⟩ := Option.map_eq_some_iff.1 h
    obtain ⟨w, hw, rfl, hrest⟩ := ih hr
    exact ⟨_, .twice hw, rfl, hrest⟩
  | case6 d more hd _ =>
    -- the closing mark
    cases h
    exact ⟨[], .nil, rfl, by simpa using hd⟩
  | case7 c d more hc hq ih =>
    -- any other character
    obtain ⟨⟨v, _⟩, hr, ⟨⟩⟩ := Option.map_eq_some_iff.1 h
    obtain ⟨w, hw, hmore, hrest⟩ := ih hr
    exact ⟨_, .plain hq (fun _ => hc) hw, by rw [hmore]; rfl, hrest⟩

/-! ### What is spelled is read -/

lemma readString_cons {q c : Char} (hc : c ≠ '\\') (hq : c ≠ q) {more : List Char} (h : more ≠ []) :
    readString q (c :: more) = (readString q more).map fun r => (c :: r.1, r.2) := by
  rcases more with _ | ⟨d, more⟩
  · exact absurd rfl h
  · rw [readString, if_neg hc, if_neg hq]

namespace Spells

variable {q : Char} {escapes : Bool} {v w rest : List Char}

lemma reads_name (h : Spells '\x60' false w v) (hrest : rest.head? ≠ some '\x60') :
    readQuotedName (w ++ '\x60' :: rest) = some (v, rest) := by
  induction h with
  | nil => exact readQuotedName.eq_3 rest fun more hmore => hrest (by rw [hmore]; rfl)
  | twice h ih =>
    rw [List.cons_append, List.cons_append, readQuotedName, ih]
    rfl
  | escaped _ hescapes => cases hescapes
  | plain hc _ h ih =>
    rw [List.cons_append, readQuotedName.eq_4 _ _ (fun _ h => absurd h hc) hc, ih]
    rfl

lemma reads (h : Spells q true w v) (hq : q ≠ '\\') (hrest : rest.head? ≠ some q) :
    readString q (w ++ q :: rest) = some (v, rest) := by
  induction h with
  | nil =>
    rcases rest with _ | ⟨d, rest⟩
    · simp [readString]
    · have hd : d ≠ q := by simpa using hrest
      simp [readString, hq, hd]
  | twice h ih =>
    rw [List.cons_append, List.cons_append, readString, if_neg hq, if_pos rfl,
      if_pos rfl, ih]
    rfl
  | escaped d _ h ih =>
    rw [List.cons_append, List.cons_append, readString, if_pos rfl, ih]
    rfl
  | plain hcq hescape h ih =>
    rw [List.cons_append, readString_cons (hescape rfl) hcq (by simp), ih]
    rfl

lemma flatMap {f : Char → List Char}
    (h : ∀ c w v, Spells q escapes w v → Spells q escapes (f c ++ w) (c :: v)) (cs : List Char) :
    Spells q escapes (cs.flatMap f) cs := by
  induction cs with
  | nil => exact .nil
  | cons c cs ih =>
    rw [List.flatMap_cons]
    exact h c _ _ ih

end Spells

end SchemaDrift
