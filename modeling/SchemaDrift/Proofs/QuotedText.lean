import Mathlib
import SchemaDrift.Proofs.WrittenToken

/-!
Quoted texts as a code. Every character of a name or string is spelled by one or two characters
between the quotation marks, the mark itself always by two. So a text that starts with a mark is never
spelled by what follows that mark in itself and behind it: each mark would have to be paid for by
twice as many, and the text would run out.
-/

namespace SchemaDrift

open Text (isBlank)

/-! ### Spelling -/

/-- An escape stands for one character, which is no mark unless it is escaped itself, or for itself
before a wildcard. -/
lemma unescaped_cases (d : Char) :
    (∃ c, unescaped d = [c] ∧ (c ∈ quotationMarks ∨ c = ' ' → c = d)) ∨
      unescaped d = ['\\', d] ∧ d ∉ quotationMarks := by
  unfold unescaped
  split_ifs with h0 hb hn hr ht hz hwild
  · exact .inl ⟨_, rfl, fun h => absurd h (by decide)⟩
  · exact .inl ⟨_, rfl, fun h => absurd h (by decide)⟩
  · exact .inl ⟨_, rfl, fun h => absurd h (by decide)⟩
  · exact .inl ⟨_, rfl, fun h => absurd h (by decide)⟩
  · exact .inl ⟨_, rfl, fun h => absurd h (by decide)⟩
  · exact .inl ⟨_, rfl, fun h => absurd h (by decide)⟩
  · refine .inr ⟨rfl, ?_⟩
    simp only [Bool.or_eq_true, decide_eq_true_eq] at hwild
    rcases hwild with rfl | rfl <;> decide
  · exact .inl ⟨d, rfl, fun _ => rfl⟩

namespace Spells

variable {q : Char} {escapes : Bool} {w v x u : List Char}

lemma split (hq : q ∈ quotationMarks) (h : Spells q escapes w v) (hv : v = x ++ q :: u) :
    ∃ c w', w = c ++ [q] ++ w' ∧ Spells q escapes (c ++ [q]) (x ++ [q]) ∧ Spells q escapes w' u := by
  induction h generalizing x with
  | nil => simp at hv
  | twice h ih =>
    rcases x with _ | ⟨d, x⟩
    · obtain rfl := (List.cons.inj hv).2
      exact ⟨[q], _, rfl, .twice .nil, h⟩
    · obtain ⟨rfl, htail⟩ := List.cons.inj hv
      obtain ⟨c, w', rfl, hc, hw'⟩ := ih htail
      exact ⟨q :: q :: c, w', by simp, .twice hc, hw'⟩
  | plain hcq hescape h ih =>
    rcases x with _ | ⟨d, x⟩
    · exact absurd (List.cons.inj hv).1 hcq
    · obtain ⟨rfl, htail⟩ := List.cons.inj hv
      obtain ⟨c, w', rfl, hc, hw'⟩ := ih htail
      exact ⟨_ :: c, w', by simp, .plain hcq hescape hc, hw'⟩
  | escaped d hescapes h ih =>
    obtain ⟨c, hd, hmark⟩ | ⟨hd, hwild⟩ := unescaped_cases d
    · rw [hd, List.singleton_append] at hv
      rcases x with _ | ⟨e, x⟩
      · obtain ⟨rfl, rfl⟩ := List.cons.inj hv
        obtain rfl := hmark (.inl hq)
        have hspells := Spells.escaped (q := c) c hescapes .nil
        rw [hd] at hspells
        exact ⟨['\\'], _, rfl, hspells, h⟩
      · obtain ⟨rfl, htail⟩ := List.cons.inj hv
        obtain ⟨c', w', rfl, hc, hw'⟩ := ih htail
        have hspells := Spells.escaped d hescapes hc
        rw [hd] at hspells
        exact ⟨'\\' :: d :: c', w', by simp, hspells, hw'⟩
    · -- A wildcard stays behind its backslash, and neither of the two is a mark.
      rw [hd] at hv
      rcases x with _ | ⟨e, _ | ⟨e', x⟩⟩
      · rw [← (List.cons.inj hv).1] at hq
        exact absurd hq (by decide)
      · have hmark := (List.cons.inj (List.cons.inj hv).2).1
        exact absurd (hmark ▸ hq) hwild
      · obtain ⟨rfl, htail⟩ := List.cons.inj hv
        obtain ⟨rfl, hmore⟩ := List.cons.inj htail
        obtain ⟨c', w', rfl, hc, hw'⟩ := ih hmore
        have hspells := Spells.escaped d hescapes hc
        rw [hd] at hspells
        exact ⟨'\\' :: d :: c', w', by simp, hspells, hw'⟩

lemma head_of_isAlpha {d : Char} (hq : q ∈ quotationMarks) (hd : d.isAlpha = true)
    (h : Spells q escapes (d :: w) v) : ∃ v', v = d :: v' := by
  have hmarks : ∀ c ∈ quotationMarks, c.isAlpha = false := by simp [quotationMarks]
  cases h with
  | twice h => exact absurd (hmarks _ hq) (by simp [hd])
  | escaped => exact absurd hd (by decide)
  | plain => exact ⟨_, rfl⟩

end Spells

/-! ### No text spells itself -/

/-- No letter stands behind a space. -/
def SpacesClosed (x : List Char) : Prop := ∀ d, [' ', d] <:+: x → d.isAlpha = false

lemma SpacesClosed.of_infix {x y : List Char} (h : SpacesClosed x) (hy : y <:+: x) : SpacesClosed y :=
  fun d hd => h d (hd.trans hy)

lemma spacesClosed_cons {c : Char} {x : List Char} :
    SpacesClosed (c :: x) ↔ (c = ' ' → ∀ d ∈ x.head?, d.isAlpha = false) ∧ SpacesClosed x := by
  constructor
  · refine fun h => ⟨?_, h.of_infix (List.suffix_cons c x).isInfix⟩
    rintro rfl d hd
    obtain ⟨y, rfl⟩ := List.head?_eq_some_iff.1 hd
    exact h d ⟨[], y, rfl⟩
  · rintro ⟨hhead, hx⟩ d hd
    rcases List.infix_cons_iff.1 hd with ⟨y, hy⟩ | hd
    · obtain ⟨rfl, rfl⟩ := List.cons.inj hy
      exact hhead rfl d rfl
    · exact hx d hd

lemma Spells.spacesClosed {q : Char} {escapes : Bool} {w v : List Char} (hq : q ∈ quotationMarks)
    (h : Spells q escapes w v) (hv : SpacesClosed v) : SpacesClosed w := by
  have hmarks : ∀ c ∈ quotationMarks, c ≠ ' ' := by simp [quotationMarks]
  -- A letter at the start of what spells a text stands at the start of the text.
  have hletter {c : Char} {w v : List Char} (h : Spells q escapes w v)
      (hv : SpacesClosed (c :: v)) (hc : c = ' ') : ∀ d ∈ w.head?, d.isAlpha = false := by
    intro d hd
    by_contra hd'
    obtain ⟨w', rfl⟩ := List.head?_eq_some_iff.1 hd
    obtain ⟨v', rfl⟩ := h.head_of_isAlpha hq (by simpa using hd')
    exact hd' ((spacesClosed_cons.1 hv).1 hc d rfl)
  induction h with
  | nil => exact hv
  | twice h ih =>
    have htail := ih (spacesClosed_cons.1 hv).2
    refine spacesClosed_cons.2 ⟨fun hspace => absurd hspace (hmarks q hq), ?_⟩
    exact spacesClosed_cons.2 ⟨fun hspace => absurd hspace (hmarks q hq), htail⟩
  | plain hcq hescape h ih =>
    exact spacesClosed_cons.2 ⟨hletter h hv, ih (spacesClosed_cons.1 hv).2⟩
  | escaped d hescapes h ih =>
    refine spacesClosed_cons.2 ⟨fun hslash => absurd hslash (by decide), spacesClosed_cons.2 ⟨?_, ?_⟩⟩
    · rintro rfl
      exact hletter h hv rfl
    · exact ih (hv.of_infix (List.suffix_append _ _).isInfix)

/-- Letters may be folded, but no other character is. -/
structure Folds (f : Char → Char) : Prop where
  isAlpha : ∀ c, (f c).isAlpha = c.isAlpha
  fixes : ∀ c, c.isAlpha = false → f c = c

lemma folds_id : Folds id := ⟨fun _ => rfl, fun _ _ => rfl⟩

lemma folds_toLower : Folds Char.toLower where
  isAlpha c := by grind [Char.toLower, Char.isAlpha, Char.isUpper, Char.isLower]
  fixes c h := by grind [Char.toLower, Char.isAlpha, Char.isUpper, Char.isLower]

lemma Folds.eq_of_not_isAlpha {f : Char → Char} (hf : Folds f) {c d : Char} (hd : d.isAlpha = false)
    (h : f c = d) : c = d := by
  have hc : c.isAlpha = false := by rw [← hf.isAlpha, h, hd]
  rw [← h, hf.fixes c hc]

lemma SpacesClosed.of_map {f : Char → Char} (hf : Folds f) {x : List Char}
    (h : SpacesClosed (x.map f)) : SpacesClosed x := by
  intro d hd
  have hmap := hd.map f
  rw [List.map_cons, List.map_singleton, hf.fixes ' ' (by decide)] at hmap
  rw [← hf.isAlpha]
  exact h _ hmap

/-- Nothing stands there, or a letter behind a space. -/
def StartsSpaced (behind : List Char) : Prop :=
  behind = [] ∨ ∃ n more, behind = ' ' :: n :: more ∧ n.isAlpha = true

/-- **No text spells itself.** What stands behind a mark, in a text and behind it, does not spell the
text with that mark in it, up to the case of letters. -/
theorem not_spells_itself {q : Char} {escapes : Bool} {f : Char → Char} {behind : List Char}
    (hq : q ∈ quotationMarks) (hf : Folds f) (hbehind : StartsSpaced behind)
    {x u w v rest : List Char} (hx : SpacesClosed (x ++ [q])) (h : Spells q escapes w v)
    (hv : v.map f = x ++ q :: u) : w ++ q :: rest ≠ u ++ behind := by
  have hmarks : ∀ c ∈ quotationMarks, c.isAlpha = false ∧ c ≠ ' ' := by simp [quotationMarks]
  intro htext
  -- The marks of `x` are spelled by twice as many at the start of `u`, and so on with what is left.
  induction hn : u.length using Nat.strong_induction_on generalizing x u w v with
  | _ n ih =>
    obtain ⟨x', v', rfl, hx', hv'⟩ := List.map_eq_append_iff.1 hv
    obtain ⟨q', u', rfl, hq', hu'⟩ := List.map_eq_cons_iff.1 hv'
    obtain rfl := hf.eq_of_not_isAlpha (hmarks q hq).1 hq'
    obtain ⟨c, w', rfl, hc, hw'⟩ := h.split hq rfl
    have hclosed : SpacesClosed (c ++ [q']) := by
      refine hc.spacesClosed hq (SpacesClosed.of_map hf ?_)
      rwa [List.map_append, hx', List.map_singleton, hq']
    -- What spells the marks does not reach behind `u`, for no letter stands behind a space in it.
    obtain ⟨u₁, rfl, hrest⟩ : ∃ u₁, u = c ++ [q'] ++ u₁ ∧ w' ++ q' :: rest = u₁ ++ behind := by
      rw [List.append_assoc] at htext
      obtain ⟨u₁, hu, hrest⟩ | ⟨z, hz, hrest⟩ := List.append_eq_append_iff.1 htext
      · exact ⟨u₁, hu, hrest⟩
      rcases z with _ | ⟨d, z⟩
      · exact ⟨[], by simpa using hz.symm, by simpa using hrest.symm⟩
      obtain rfl | ⟨n, more, rfl, hletter⟩ := hbehind
      · simp at hrest
      obtain ⟨rfl, hmore⟩ := List.cons.inj hrest
      rcases z with _ | ⟨d, z⟩
      · have hspace : [q'] = [' '] := (List.append_inj' hz rfl).2
        exact absurd (List.cons.inj hspace).1 (hmarks q' hq).2
      · obtain ⟨rfl, -⟩ := List.cons.inj hmore
        have hclosed' := hclosed n ⟨u, z, by simp [hz]⟩
        rw [hletter] at hclosed'
        cases hclosed'
    refine ih u₁.length ?_ hclosed hw' ?_ hrest rfl
    · rw [← hn]
      simp
      omega
    · rw [hu']
      simp

end SchemaDrift
