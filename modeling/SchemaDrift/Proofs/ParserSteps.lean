import Mathlib
import SchemaDrift.Proofs.Finding
import SchemaDrift.Proofs.TokenPlaces

/-!
The steps that grammars are made of, on any list of tokens that ends once. A step passes tokens that
are not the end, and a fault is at a token that was reached or at one passed before. Loops need no
bound: every round takes a token.
-/

namespace SchemaDrift

/-! ### Passing tokens -/

namespace Cursor

/-- The second cursor is the first one past some tokens, none of them the end. -/
def Passes (c c' : Cursor) : Prop := ∃ n, (∀ m < n, c.lexemeAt m ≠ .ending) ∧ c' = c.move n

lemma move_zero (c : Cursor) : c.move 0 = c := rfl

lemma move_move (c : Cursor) (m n : ℕ) : (c.move m).move n = c.move (m + n) := by
  simp [move, List.take_add, List.drop_drop]

lemma lexemeAt_move (c : Cursor) (m n : ℕ) : (c.move m).lexemeAt n = c.lexemeAt (m + n) := by
  simp [lexemeAt, move, List.getElem?_drop]

namespace Passes

variable {c c' c'' : Cursor}

lemma refl (c : Cursor) : c.Passes c := ⟨0, by simp, c.move_zero.symm⟩

lemma trans (h : c.Passes c') (h' : c'.Passes c'') : c.Passes c'' := by
  obtain ⟨m, hm, rfl⟩ := h
  obtain ⟨n, hn, rfl⟩ := h'
  refine ⟨m + n, fun k hk => ?_, move_move c m n⟩
  by_cases hkm : k < m
  · exact hm k hkm
  · have hrest := hn (k - m) (by omega)
    rwa [lexemeAt_move, Nat.add_sub_cancel' (by omega)] at hrest

lemma length_le (h : c.Passes c') : c'.ahead.length ≤ c.ahead.length := by
  obtain ⟨n, -, rfl⟩ := h
  simp [move]

end Passes

lemma exists_of_unended {c : Cursor} (h : c.lexemeAt 0 ≠ .ending) :
    ∃ t rest, c.ahead = t :: rest ∧ t.lexeme ≠ .ending := by
  rcases hahead : c.ahead with _ | ⟨t, rest⟩
  · simp [lexemeAt, hahead] at h
  · exact ⟨t, rest, rfl, by simpa [lexemeAt, hahead] using h⟩

lemma advance_eq_move {c : Cursor} (h : c.lexemeAt 0 ≠ .ending) : c.advance = c.move 1 := by
  obtain ⟨t, rest, hahead, ht⟩ := exists_of_unended h
  simp [advance, move, hahead, ht]

lemma length_advance {c : Cursor} (h : c.lexemeAt 0 ≠ .ending) :
    c.advance.ahead.length < c.ahead.length := by
  obtain ⟨t, rest, hahead, -⟩ := exists_of_unended h
  rw [advance_eq_move h]
  simp [move, hahead]

lemma passes_advance (c : Cursor) : c.Passes c.advance := by
  by_cases h : c.lexemeAt 0 = .ending
  · rw [advance_of_ending h]
    exact .refl c
  · exact ⟨1, fun m hm => by rwa [Nat.lt_one_iff.1 hm], advance_eq_move h⟩

lemma move_length {c : Cursor} {us rest : List Token} (h : c.ahead = us ++ rest) :
    c.move us.length = ⟨us.reverse ++ c.behind, rest⟩ := by
  simp [move, h]

lemma passes_of_append {c : Cursor} {us rest : List Token} (h : c.ahead = us ++ rest)
    (hus : ∀ t ∈ us, t.lexeme ≠ .ending) : c.Passes (c.move us.length) := by
  refine ⟨us.length, fun m hm => ?_, rfl⟩
  have hget : c.ahead[m]? = some us[m] := by
    rw [h, List.getElem?_append_left hm, List.getElem?_eq_getElem hm]
  rw [lexemeAt, hget]
  exact hus _ (List.getElem_mem hm)

lemma passes_of_hasWords {c : Cursor} {ws : List String} (h : c.hasWords ws = true) :
    c.Passes (c.move ws.length) := by
  refine ⟨ws.length, fun m hm hend => ?_, rfl⟩
  have hmem : (ws[m], m) ∈ ws.zip (List.range ws.length) :=
    List.mem_iff_getElem.2 ⟨m, by simpa using hm, by simp⟩
  have hword := List.all_eq_true.1 h _ hmem
  simp [hend, Lexeme.isWord] at hword

end Cursor

/-! ### Loops without a bound -/

section

variable {σ α : Type}

/-- The rounds of a repeated step, however many. -/
inductive Rounds (step : σ → Parse (Option σ)) :
    σ → Cursor → Except ReadingFault (σ × Cursor) → Prop where
  | fail {s c e} (round : step s c = .error e) : Rounds step s c (.error e)
  | last {s c c₁} (round : step s c = .ok (none, c₁)) : Rounds step s c (.ok (s, c₁))
  | more {s c s₁ c₁ r} (round : step s c = .ok (some s₁, c₁)) (rest : Rounds step s₁ c₁ r) :
    Rounds step s c r

/-- Items with commas between them, however many. -/
inductive Items (item : Parse α) : Cursor → Except ReadingFault (List α × Cursor) → Prop where
  | fail {c e} (first : item c = .error e) : Items item c (.error e)
  | last {c a c₁} (first : item c = .ok (a, c₁)) (alone : c₁.lexemeAt 0 ≠ .comma) :
    Items item c (.ok ([a], c₁))
  | more {c a c₁ r} (first : item c = .ok (a, c₁)) (comma : c₁.lexemeAt 0 = .comma)
    (rest : Items item c₁.advance r) : Items item c (r.map fun p => (a :: p.1, p.2))

/-- If every round takes a token, a repetition is bounded by nothing else. -/
lemma rounds_repeated {step : σ → Parse (Option σ)}
    (h : ∀ s c s₁ c₁, step s c = .ok (some s₁, c₁) → c₁.ahead.length < c.ahead.length) (s : σ)
    (c : Cursor) : Rounds step s c (Parse.repeated step s c) := by
  rw [Parse.repeated]
  rcases hstep : step s c with e | ⟨_ | s₁, c₁⟩
  · exact .fail hstep
  · exact .last hstep
  · have hlt := h s c s₁ c₁ hstep
    simp only [if_pos hlt]
    exact .more hstep (rounds_repeated h s₁ c₁)
termination_by c.ahead.length

/-- After a comma there is always less than before the item, if no item gives tokens back. -/
lemma items_separated {item : Parse α}
    (h : ∀ c a c₁, item c = .ok (a, c₁) → c₁.ahead.length ≤ c.ahead.length) (c : Cursor) :
    Items item c (Parse.separated item c) := by
  rw [Parse.separated]
  rcases hitem : item c with e | ⟨a, c₁⟩
  · exact .fail hitem
  · simp only
    split
    · next hcomma =>
      have hlt : c₁.advance.ahead.length < c.ahead.length :=
        (Cursor.length_advance (by simp [hcomma])).trans_le (h c a c₁ hitem)
      have hrest := Items.more hitem hcomma (items_separated h c₁.advance)
      rw [if_pos hlt]
      rcases hnext : Parse.separated item c₁.advance with e | ⟨as, c₂⟩ <;> rw [hnext] at hrest <;>
        exact hrest
    · next hcomma => exact .last hitem hcomma
termination_by c.ahead.length

end

/-! ### What grammars are made of -/

/-- A grammar made of the steps on tokens, with loops that no bound ends. -/
inductive Made : {α : Type} → Parse α → Prop where
  | pure {α : Type} (a : α) : Made (Pure.pure a : Parse α)
  | bind {α β : Type} {m : Parse α} {f : α → Parse β} (first : Made m) (rest : ∀ a, Made (f a)) :
    Made (m >>= f)
  | get : Made (MonadState.get : Parse Cursor)
  | next : Made Parse.next
  | upperWord? : Made Parse.upperWord?
  | atWord (w : String) : Made (Parse.atWord w)
  | advance : Made Parse.advance
  | accept (l : Lexeme) : Made (Parse.accept l)
  | expect (l : Lexeme) (what : String) : Made (Parse.expect l what)
  | acceptWords (ws : List String) : Made (Parse.acceptWords ws)
  | expectWord (w what : String) : Made (Parse.expectWord w what)
  | taking {α : Type} (f : Lexeme → Option α) (what : String) : Made (Parse.taking f what)
  | expected {α : Type} (what : String) : Made (Parse.expected what : Parse α)
  | fault {α : Type} (cause : FaultCause) (back : ℕ) : Made (Parse.fault cause back : Parse α)
  | balanced : Made Parse.balanced
  | skipToEnd : Made Parse.skipToEnd
  | rounds {σ : Type} {step : σ → Parse (Option σ)} {m : σ → Parse σ} (round : ∀ s, Made (step s))
    (ends : ∀ s c, Rounds step s c (m s c)) (s : σ) : Made (m s)
  | items {α : Type} {item : Parse α} {m : Parse (List α)} (one : Made item)
    (ends : ∀ c, Items item c (m c)) : Made m

namespace Parse

variable {α β σ : Type} {m : Parse α} {f : α → Parse β}

/-- A step leads past tokens, and where it fails, that is at a token it reached or at one passed
before. -/
structure Leaves (c : Cursor) (r : Except ReadingFault (α × Cursor)) : Prop where
  ok : ∀ a c', r = .ok (a, c') → c.Passes c'
  error : ∀ e, r = .error e → ∃ c₁ back, c.Passes c₁ ∧
    e.tokens = (c₁.behind.take back).reverse ++ c₁.ahead

namespace Leaves

variable {c c₁ : Cursor} {a : α} {r : Except ReadingFault (α × Cursor)}

lemma of_ok (h : c.Passes c₁) : Leaves c (.ok (a, c₁)) where
  ok := by
    rintro _ _ ⟨⟩
    exact h
  error := by
    rintro _ ⟨⟩

lemma stay (a : α) : Leaves c (.ok (a, c)) := of_ok (.refl c)

lemma of_error (cause : FaultCause) (back : ℕ) :
    Leaves c (.error (c.fault cause back) : Except _ (α × Cursor)) where
  ok := by
    rintro _ _ ⟨⟩
  error := by
    rintro _ ⟨⟩
    exact ⟨c, back, .refl c, rfl⟩

lemma of_expected (what : String) : Leaves c (.error (c.expected what) : Except _ (α × Cursor)) :=
  of_error (.expected what) 0

lemma of_passes (h : c.Passes c₁) (hr : Leaves c₁ r) : Leaves c r where
  ok a c' hok := h.trans (hr.ok a c' hok)
  error e he := by
    obtain ⟨c₂, back, hpasses, htokens⟩ := hr.error e he
    exact ⟨c₂, back, h.trans hpasses, htokens⟩

lemma of_failed {e : ReadingFault} (hr : Leaves c r) (h : r = .error e) :
    Leaves c (.error e : Except _ (β × Cursor)) where
  ok := by
    rintro _ _ ⟨⟩
  error e' he := hr.error e' (h.trans (congrArg _ (Except.error.inj he)))

lemma map {g : α × Cursor → β × Cursor} (hg : ∀ p, (g p).2 = p.2) (hr : Leaves c r) :
    Leaves c (r.map g) := by
  rcases hr' : r with e | ⟨a, c₁⟩
  · exact hr.of_failed hr'
  · have hsame : (g (a, c₁)).2 = c₁ := hg _
    have hpasses := hr.ok a c₁ hr'
    rw [← hsame] at hpasses
    exact of_ok hpasses

lemma bind (hm : Leaves c (m c)) (hf : ∀ a c₁, Leaves c₁ (f a c₁)) : Leaves c ((m >>= f) c) := by
  rcases h : m c with e | ⟨a, c₁⟩
  · have herror : (m >>= f) c = .error e := by
      simp [Bind.bind, StateT.bind, Except.bind, h]
    exact herror ▸ hm.of_failed h
  · have hok : (m >>= f) c = f a c₁ := by
      simp [Bind.bind, StateT.bind, Except.bind, h]
    exact hok ▸ of_passes (hm.ok a c₁ h) (hf a c₁)

lemma advance (a : α) : Leaves c (.ok (a, c.advance)) := of_ok c.passes_advance

lemma expect (l : Lexeme) (what : String) : Leaves c (Parse.expect l what c) := by
  unfold Parse.expect
  split
  · exact .advance _
  · exact .of_expected what

lemma balanced : Leaves c (Parse.balanced c) := by
  refine bind (expect _ _) fun _ c => ?_
  rcases hclosing : closing 0 c.ahead with _ | ⟨inner, close, rest⟩
  · -- the end of the text stands where the group had to be closed
    have hahead : c.ahead = c.ahead.takeWhile (fun t => t.lexeme ≠ .ending) ++
        c.ahead.dropWhile fun t => t.lexeme ≠ .ending := List.takeWhile_append_dropWhile.symm
    have hpasses := Cursor.passes_of_append hahead fun t ht => by
      simpa using List.mem_takeWhile_imp ht
    rw [Cursor.move_length hahead] at hpasses
    simp only [Bind.bind, StateT.bind, get, getThe, MonadStateOf.get, StateT.get, Pure.pure,
      Except.pure, Except.bind, hclosing]
    exact of_passes hpasses (of_expected _)
  · obtain ⟨htokens, hclose, hinner⟩ := closing_eq_some_iff.1 hclosing
    have hahead : c.ahead = (inner ++ [close]) ++ rest := by rw [htokens]; simp
    have hpasses := Cursor.passes_of_append hahead fun t ht hend => by
      rcases List.mem_append.1 ht with ht | ht
      · exact not_ending_of_closed hinner (hend ▸ List.mem_map_of_mem ht)
      · rw [List.mem_singleton.1 ht, hclose] at hend
        cases hend
    rw [Cursor.move_length hahead, List.reverse_append] at hpasses
    simp only [Bind.bind, StateT.bind, get, getThe, MonadStateOf.get, StateT.get, Pure.pure,
      Except.pure, Except.bind, hclosing]
    exact of_ok hpasses

lemma skipToEnd : Leaves c (Parse.skipToEnd c) := by
  let other (t : Token) : Bool := t.lexeme ≠ .ending && t.lexeme ≠ .semicolon
  have hahead : c.ahead = c.ahead.takeWhile other ++ c.ahead.dropWhile other :=
    List.takeWhile_append_dropWhile.symm
  have hlength : c.ahead.length - (c.ahead.dropWhile other).length =
      (c.ahead.takeWhile other).length := by
    have := congrArg List.length hahead
    rw [List.length_append] at this
    omega
  have hpasses := Cursor.passes_of_append hahead fun t ht => by
    have hother : other t = true := List.mem_takeWhile_imp ht
    simp only [other, Bool.and_eq_true, decide_eq_true_eq] at hother
    exact hother.1
  rw [← hlength] at hpasses
  exact of_ok hpasses

lemma rounds {step : σ → Parse (Option σ)} (hstep : ∀ s c, Leaves c (step s c)) {s : σ}
    {r : Except ReadingFault (σ × Cursor)} (h : Rounds step s c r) : Leaves c r := by
  induction h with
  | fail round => exact (hstep _ _).of_failed round
  | last round => exact of_ok ((hstep _ _).ok _ _ round)
  | more round _ ih => exact of_passes ((hstep _ _).ok _ _ round) ih

lemma items {item : Parse α} (hitem : ∀ c, Leaves c (item c))
    {r : Except ReadingFault (List α × Cursor)} (h : Items item c r) : Leaves c r := by
  induction h with
  | fail first => exact (hitem _).of_failed first
  | last first _ => exact of_ok ((hitem _).ok _ _ first)
  | more first _ _ ih =>
    exact of_passes (((hitem _).ok _ _ first).trans (Cursor.passes_advance _)) (ih.map fun _ => rfl)

end Leaves

end Parse

open Parse in
/-- **Steps stay on the tokens**, one case for each way to make a grammar. -/
theorem Made.leaves {α : Type} {m : Parse α} (h : Made m) (c : Cursor) : Leaves c (m c) := by
  induction h generalizing c with
  | pure a => exact .stay a
  | bind _ _ hm hf => exact .bind (hm c) hf
  | get | next | atWord w => exact .stay _
  | upperWord? =>
    unfold Parse.upperWord?
    split <;> exact .stay _
  | advance => exact .advance _
  | accept l =>
    unfold Parse.accept
    split
    · exact .advance _
    · exact .stay _
  | expect l what => exact .expect l what
  | acceptWords ws =>
    unfold Parse.acceptWords
    split
    · next hwords => exact .of_ok (Cursor.passes_of_hasWords hwords)
    · exact .stay _
  | expectWord w what =>
    unfold Parse.expectWord
    split
    · next hword => exact .of_ok (Cursor.passes_of_hasWords hword)
    · exact .of_expected what
  | taking f what =>
    unfold Parse.taking
    split
    · exact .advance _
    · exact .of_expected what
  | expected what => exact .of_expected what
  | fault cause back => exact .of_error cause back
  | balanced => exact .balanced
  | skipToEnd => exact .skipToEnd
  | rounds _ ends s hround => exact .rounds hround (ends s c)
  | items _ ends hone => exact .items hone (ends c)

lemma Made.length_le {α : Type} {m : Parse α} (h : Made m) {c c' : Cursor} {a : α}
    (hok : m c = .ok (a, c')) : c'.ahead.length ≤ c.ahead.length :=
  ((h.leaves c).ok a c' hok).length_le

/-! ### Among the tokens of a text -/

/-- The cursor stands on the `i`-th of the tokens. -/
structure Cursor.On (c : Cursor) (ts : List Token) (i : ℕ) : Prop where
  lt : i < ts.length
  behind : c.behind = (ts.take i).reverse
  ahead : c.ahead = ts.drop i

namespace Cursor

lemma on_ofText (text : String) : (ofText text).On (tokens text) 0 :=
  ⟨List.length_pos_iff.2 (tokensFrom_ne_nil 0 _), rfl, rfl⟩

namespace On

variable {c c' : Cursor} {ts : List Token} {i : ℕ}

lemma of_passes (hts : Ended ts) (h : c.On ts i) (hpasses : c.Passes c') :
    ∃ j, i ≤ j ∧ c'.On ts j := by
  obtain ⟨n, hn, rfl⟩ := hpasses
  obtain ⟨init, e, hsplit, he, -⟩ := hts
  have hlast : ts[ts.length - 1]? = some e := by simp [hsplit]
  have hlt : i + n < ts.length := by
    by_contra hle
    have hi := h.lt
    refine hn (ts.length - 1 - i) (by omega) ?_
    rw [lexemeAt, h.ahead, List.getElem?_drop, show i + (ts.length - 1 - i) = ts.length - 1 by omega,
      hlast]
    exact he
  refine ⟨i + n, Nat.le_add_right _ _, hlt, ?_, ?_⟩
  · rw [move, h.ahead, h.behind, List.take_add, List.reverse_append]
  · rw [move, h.ahead, List.drop_drop]

lemma tokens_back (h : c.On ts i) (back : ℕ) :
    (c.behind.take back).reverse ++ c.ahead = ts.drop (i - back) := by
  have hlength : (ts.take i).length = i := List.length_take_of_le h.lt.le
  have hle : i - back ≤ (ts.take i).length := by omega
  rw [h.behind, h.ahead, List.take_reverse, List.reverse_reverse, hlength,
    ← List.drop_append_of_le_length hle, List.take_append_drop]

end On

end Cursor

/-- From a place among the tokens the step leads to one not before it, or it fails at one of them. -/
def Parse.StaysOn {α : Type} (ts : List Token) (m : Parse α) : Prop :=
  ∀ c i, c.On ts i → (∀ a c', m c = .ok (a, c') → ∃ j, i ≤ j ∧ c'.On ts j) ∧
    ∀ e, m c = .error e → ∃ k < ts.length, e.tokens = ts.drop k

/-- **What is made of steps stays among the tokens**, whatever they are. -/
theorem Made.staysOn {α : Type} {m : Parse α} (h : Made m) {ts : List Token} (hts : Ended ts) :
    Parse.StaysOn ts m := by
  intro c i hc
  have hleaves := h.leaves c
  refine ⟨fun a c' hok => hc.of_passes hts (hleaves.ok a c' hok), fun e herror => ?_⟩
  obtain ⟨c₁, back, hpasses, htokens⟩ := hleaves.error e herror
  obtain ⟨j, -, hj⟩ := hc.of_passes hts hpasses
  exact ⟨j - back, (Nat.sub_le _ _).trans_lt hj.lt, htokens.trans (hj.tokens_back back)⟩

/-! ### Taking a token -/

def Cursor.Unended (c : Cursor) : Prop := c.lexemeAt 0 ≠ .ending

/-- A step takes a token if its result satisfies `P`, from each cursor that satisfies `A`. -/
structure Advances {α : Type} (A : Cursor → Prop) (P : α → Prop) (m : Parse α) : Prop where
  made : Made m
  lt : ∀ c a c', A c → m c = .ok (a, c') → P a → c'.ahead.length < c.ahead.length

namespace Advances

open Parse

variable {α β : Type} {A : Cursor → Prop} {P : α → Prop} {Q : β → Prop} {m : Parse α}
  {f : α → Parse β}

lemma bind (h : Advances A (fun _ => True) m) (hf : ∀ a, Made (f a)) : Advances A Q (m >>= f) where
  made := .bind h.made hf
  lt := by
    intro c b c' hc hok _
    obtain ⟨a, c₁, hm, hrest⟩ := exists_of_bind hok
    exact ((hf a).length_le hrest).trans_lt (h.lt c a c₁ hc hm trivial)

lemma bind_right (h : Made m) (hf : ∀ a, Advances (fun _ => True) Q (f a)) :
    Advances A Q (m >>= f) where
  made := .bind h fun a => (hf a).made
  lt := by
    intro c b c' _ hok hb
    obtain ⟨a, c₁, hm, hrest⟩ := exists_of_bind hok
    exact ((hf a).lt c₁ b c' trivial hrest hb).trans_le (h.length_le hm)

lemma pure {a : α} (h : ¬ P a) : Advances A P (Pure.pure a) where
  made := .pure a
  lt := by
    rintro c _ _ - ⟨⟩ ha
    exact absurd ha h

lemma expected (what : String) : Advances A P (Parse.expected what) where
  made := .expected what
  lt := by
    rintro c _ _ - ⟨⟩

lemma advance {P : Unit → Prop} : Advances Cursor.Unended P Parse.advance where
  made := .advance
  lt := by
    rintro c _ _ hc ⟨⟩ -
    exact Cursor.length_advance hc

lemma taking {g : Lexeme → Option α} {what : String} (h : g .ending = none) :
    Advances A P (Parse.taking g what) where
  made := .taking g what
  lt := by
    intro c a c' _ hok _
    unfold Parse.taking at hok
    split at hok
    · next hsome =>
      obtain ⟨rfl, rfl⟩ := Prod.mk.inj (Except.ok.inj hok)
      exact Cursor.length_advance fun hend => by rw [hend, h] at hsome; cases hsome
    · cases hok

lemma next_bind {g : Lexeme → Parse β} (h : ∀ l, l ≠ .ending → Advances Cursor.Unended Q (g l))
    (hend : Advances A Q (g .ending)) : Advances A Q (Parse.next >>= g) where
  made := .bind .next fun l => by
    by_cases hl : l = .ending
    · exact hl ▸ hend.made
    · exact (h l hl).made
  lt := by
    intro c b c' hc hok hb
    by_cases hl : c.lexemeAt 0 = .ending
    · exact hend.lt c b c' hc (hl ▸ hok) hb
    · exact (h _ hl).lt c b c' hl hok hb

lemma upperWord?_bind {g : Option String → Parse β}
    (hsome : ∀ w, Advances Cursor.Unended Q (g (some w))) (hnone : Advances A Q (g none)) :
    Advances A Q (Parse.upperWord? >>= g) where
  made := .bind .upperWord? fun
    | some w => (hsome w).made
    | none => hnone.made
  lt := by
    intro c b c' hc hok hb
    obtain ⟨w?, c₁, hword, hrest⟩ := exists_of_bind hok
    unfold Parse.upperWord? at hword
    split at hword <;> obtain ⟨rfl, rfl⟩ := Prod.mk.inj (Except.ok.inj hword)
    · next hl => exact (hsome _).lt c b c' (by simp [Cursor.Unended, hl]) hrest hb
    · exact hnone.lt c b c' hc hrest hb

lemma acceptWord_bind {w : String} {g : Bool → Parse β} (htrue : Made (g true))
    (hfalse : Advances A Q (g false)) : Advances A Q (Parse.acceptWord w >>= g) where
  made := .bind (.acceptWords [w]) fun
    | true => htrue
    | false => hfalse.made
  lt := by
    intro c b c' hc hok hb
    obtain ⟨taken, c₁, hword, hrest⟩ := exists_of_bind hok
    unfold Parse.acceptWord Parse.acceptWords at hword
    split at hword <;> obtain ⟨rfl, rfl⟩ := Prod.mk.inj (Except.ok.inj hword)
    · next hwords =>
      have hend := Finds.not_ending_of_hasWords hwords
      refine (htrue.length_le hrest).trans_lt ?_
      rw [List.length_singleton, ← Cursor.advance_eq_move hend]
      exact Cursor.length_advance hend
    · exact hfalse.lt c b c' hc hrest hb

lemma accept_bind {l : Lexeme} {g : Bool → Parse β} (hl : l ≠ .ending) (htrue : Made (g true))
    (hfalse : Advances A Q (g false)) : Advances A Q (Parse.accept l >>= g) where
  made := .bind (.accept l) fun
    | true => htrue
    | false => hfalse.made
  lt := by
    intro c b c' hc hok hb
    obtain ⟨taken, c₁, haccept, hrest⟩ := exists_of_bind hok
    unfold Parse.accept at haccept
    split at haccept <;> obtain ⟨rfl, rfl⟩ := Prod.mk.inj (Except.ok.inj haccept)
    · next hnext =>
      exact (htrue.length_le hrest).trans_lt (Cursor.length_advance (hnext ▸ hl))
    · exact hfalse.lt c b c' hc hrest hb

end Advances

/-! ### Loops -/

namespace Made

variable {α σ : Type}

lemma map {α β : Type} {m : Parse α} (g : α → β) (h : Made m) : Made (g <$> m) := by
  rw [map_eq_pure_bind]
  exact bind h fun a => pure (g a)

lemma repeated {step : σ → Parse (Option σ)}
    (h : ∀ s, Advances (fun _ => True) (·.isSome = true) (step s)) (s : σ) :
    Made (Parse.repeated step s) :=
  rounds (fun s => (h s).made)
    (rounds_repeated fun s c s₁ c₁ hok => (h s).lt c (some s₁) c₁ trivial hok rfl) s

lemma separated {item : Parse α} (h : Made item) : Made (Parse.separated item) :=
  items h (items_separated fun _ _ _ hok => h.length_le hok)

end Made

end SchemaDrift
