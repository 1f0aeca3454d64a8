import Mathlib
import SchemaDrift.Proofs.GrammarSteps
import SchemaDrift.Statement

/-!
Reading never leaves the text. What is sliced out of a text lies between the places of two tokens, and
a statement that cannot be read is refused at one of its tokens.
-/

namespace SchemaDrift

open Parse

/-! ### Slices that grammars take -/

def Text.trimmedSlice? (text : String) (s : Span) : Option String :=
  (slice? text.toList s).map fun part => String.ofList (trim part)

/-- Where the first `k` tokens end. -/
def endBefore (ts : List Token) (k : ℕ) : ℕ :=
  match (ts.take k).getLast? with
  | some t => t.span.stop
  | none => 0

lemma endBefore_tokens (text : String) (k : ℕ) :
    endBefore (tokens text) k = Text.byteSize (Token.spelling ((tokens text).take k)) := by
  unfold endBefore
  rcases List.eq_nil_or_concat ((tokens text).take k) with hnil | ⟨pre, t, hpre⟩
  · simp [hnil, Token.spelling, Text.byteSize]
  · have hsplit : tokens text = pre ++ t :: (tokens text).drop k := by
      have := List.take_append_drop k (tokens text)
      rw [hpre] at this
      simpa using this.symm
    simp [hpre, Token.span, start_of_tokens hsplit, Token.spelling, Text.byteSize_append,
      Nat.add_assoc]

lemma slice?_from {text : String} {pre mid post : List Token} {t : Token} {stop : ℕ}
    (h : tokens text = pre ++ mid ++ post) (ht : (mid ++ post).head? = some t)
    (hstop : stop = Text.byteSize (Token.spelling (pre ++ mid))) :
    Text.slice? text.toList ⟨t.start, max t.start stop⟩ = some (Token.slice mid) := by
  rcases mid with _ | ⟨u, mid⟩
  · obtain ⟨post, rfl⟩ : ∃ rest, post = t :: rest := by simpa [List.head?_eq_some_iff] using ht
    have hsplit : tokens text = pre ++ t :: post := by simpa using h
    have hstart := start_of_tokens hsplit
    have hle : stop ≤ t.start := by
      rw [hstop, hstart, List.append_nil, Text.byteSize_append]
      exact Nat.le_add_right _ _
    have htext : text.toList =
        (Token.spelling pre ++ t.gap) ++ [] ++ (t.text ++ Token.spelling post) := by
      rw [← spelling_tokens, h]
      simp [Token.spelling]
    rw [max_eq_left hle, htext]
    exact Text.slice?_append _ _ _ hstart (by rw [List.append_nil]; exact hstart)
  · obtain rfl : u = t := by simpa using ht
    have hsplit : tokens text = pre ++ u :: (mid ++ post) := by rw [h]; simp
    have hstart := start_of_tokens hsplit
    have hle : u.start ≤ stop := by
      rw [hstop, hstart]
      simp only [Token.spelling, List.flatMap_append, List.flatMap_cons, Text.byteSize_append]
      omega
    rw [max_eq_right hle]
    exact slice?_across h hstop

section

variable {text : String} {start c c' : Cursor} {i j : ℕ} {s : String}

lemma slice?_of_balanced (hc : c.On (tokens text) i) (h : balanced c = .ok (s, c')) :
    ∃ j opening close, (tokens text)[i]? = some opening ∧ (tokens text)[j]? = some close ∧
      c'.On (tokens text) (j + 1) ∧
      Text.trimmedSlice? text ⟨opening.span.stop, close.start⟩ = some s := by
  obtain ⟨opening, inner, close, hgroup, hs⟩ := Group.of_balanced h
  have hahead : (tokens text).drop i = opening :: (inner ++ close :: c'.ahead) := by
    rw [← hc.ahead, hgroup.eq]
  have htokens : tokens text = (tokens text).take i ++ opening :: inner ++ close :: c'.ahead := by
    have := List.take_append_drop i (tokens text)
    rw [hahead] at this
    simpa using this.symm
  obtain ⟨k, -, hk⟩ := (Made.balanced.staysOn (ended_tokens text) c i hc).1 s c' h
  -- the tokens that are left tell the place
  have hplace : k = i + inner.length + 1 + 1 := by
    have hlength := congrArg List.length hahead
    rw [hk.ahead] at hlength
    have := hk.lt
    simp only [List.length_append, List.length_cons, List.length_drop] at hlength
    omega
  refine ⟨i + inner.length + 1, opening, close, ?_, ?_, hplace ▸ hk, ?_⟩
  · rw [← List.head?_drop, hahead]
    rfl
  · rw [Nat.add_assoc, ← List.getElem?_drop, hahead]
    simp
  · rw [Text.trimmedSlice?, slice?_between htokens, Option.map_some, ← hs, String.ofList_toList]

lemma slice?_of_restOfDefinition (hstart : start.On (tokens text) i) (hc : c.On (tokens text) j)
    (hij : i ≤ j) (h : restOfDefinition start c = .ok (s, c')) :
    ∃ k first, (tokens text)[i]? = some first ∧ c'.On (tokens text) k ∧
      Text.trimmedSlice? text ⟨first.start, max first.start (endBefore (tokens text) k)⟩ =
        some s := by
  obtain ⟨k, hjk, hk⟩ :=
    ((Made.restOfDefinition start).staysOn (ended_tokens text) c j hc).1 s c' h
  have hs : s = String.ofList (Text.trim (Token.slice (start.tokensTo c'))) := by
    obtain ⟨_, c₁, -, hrest⟩ := exists_of_bind h
    obtain ⟨rfl, rfl⟩ := Prod.mk.inj (Except.ok.inj hrest)
    rfl
  have hto : start.tokensTo c' = ((tokens text).drop i).take (k - i) := by
    rw [Cursor.tokensTo, hstart.ahead, hk.ahead, List.length_drop, List.length_drop]
    congr 1
    have := hk.lt
    omega
  have hbefore : (tokens text).take k = (tokens text).take i ++ start.tokensTo c' := by
    rw [hto, ← List.take_add, Nat.add_sub_cancel' (hij.trans hjk)]
  have htokens : tokens text = (tokens text).take i ++ start.tokensTo c' ++ (tokens text).drop k := by
    rw [← hbefore, List.take_append_drop]
  have hfrom : (tokens text).drop i = start.tokensTo c' ++ (tokens text).drop k := by
    nth_rewrite 1 [htokens]
    rw [List.append_assoc, List.drop_left' (List.length_take_of_le hstart.lt.le)]
  obtain ⟨first, hfirst⟩ : ∃ first, (tokens text)[i]? = some first :=
    ⟨_, List.getElem?_eq_getElem hstart.lt⟩
  have hhead : (start.tokensTo c' ++ (tokens text).drop k).head? = some first := by
    rw [← hfrom, List.head?_drop, hfirst]
  refine ⟨k, first, hfirst, hk, ?_⟩
  rw [Text.trimmedSlice?, slice?_from htokens hhead (hbefore ▸ endBefore_tokens text k),
    Option.map_some, hs]

end

/-! ### Faults -/

/-- The fault is at one of the tokens, and tells of it and of those up to the last one. -/
def ReadingFault.IsAt (f : ReadingFault) (ts : List Token) : Prop :=
  ∃ k, ∃ h : k < ts.length, f.span = ts[k].span ∧ f.found = ts[k].lexeme.shown ∧
    f.remainder = (ts.drop k).dropLast.map (·.lexeme.shown)

lemma ReadingFault.isAt_of_tokens {f : ReadingFault} {ts : List Token} (hts : Ended ts) {k : ℕ}
    (hk : k < ts.length) (h : f.tokens = ts.drop k) : f.IsAt ts := by
  have hcons : f.tokens = ts[k] :: ts.drop (k + 1) := h.trans (List.drop_eq_getElem_cons hk)
  refine ⟨k, hk, by rw [span, hcons], by rw [found, hcons], ?_⟩
  obtain ⟨init, e, rfl, he, hinit⟩ := hts
  have hdrop : (init ++ [e]).drop k = init.drop k ++ [e] :=
    List.drop_append_of_le_length (by simpa [Nat.lt_succ_iff] using hk)
  have htake : (init.drop k ++ [e]).takeWhile (·.lexeme ≠ .ending) = init.drop k := by
    rw [List.takeWhile_append_of_pos fun t ht => by simpa using hinit t (List.mem_of_mem_drop ht)]
    simp [he]
  rw [remainder, h, hdrop, htake, List.dropLast_concat]

namespace Statement

lemma exists_of_outcome {α : Type} {kind kind' : StatementKind} {m : Parse α} {build : α → Statement}
    {c : Cursor} {fault : ReadingFault} (hbuild : ∀ a, build a ≠ invalid kind' fault)
    (h : outcome kind m build c = invalid kind' fault) : m c = .error fault := by
  unfold outcome at h
  split at h
  · exact absurd h (hbuild _)
  · next herror =>
    cases h
    exact herror

lemma exists_made_of_invalid {real : FloatSize} {text : String} {kind : StatementKind}
    {fault : ReadingFault} (h : read real text = invalid kind fault) :
    ∃ (α : Type) (m : Parse α), Made m ∧ m (Cursor.ofText text) = .error fault := by
  simp only [read] at h
  split at h
  · exact ⟨_, _, Grammar.made_createTable real, exists_of_outcome (by simp) h⟩
  · exact ⟨_, _, Grammar.made_grants .grant, exists_of_outcome (by simp) h⟩
  · exact ⟨_, _, Grammar.made_grants .revoke, exists_of_outcome (by simp) h⟩
  · exact ⟨_, _, Grammar.made_accounts, exists_of_outcome (by simp) h⟩
  · cases h
  · cases h

/-- **Reading never leaves the text.** Its tokens end once, and each covers its own text. The grammars
are made of steps that stay on the tokens, with loops that need no bound. What they slice out of the
text lies between the places of tokens, and what they refuse they refuse at a token. -/
theorem read_stays_on_tokens (real : FloatSize) (text : String) :
    Ended (tokens text) ∧ (∀ t ∈ tokens text, Text.slice? text.toList t.span = some t.text) ∧
    (Made (Grammar.createTable real) ∧ (∀ verb, Made (Grammar.grants verb)) ∧
      Made Grammar.accounts) ∧
    (∀ (α : Type) (m : Parse α), Made m → StaysOn (tokens text) m) ∧
    (∀ c i c' s, c.On (tokens text) i → balanced c = .ok (s, c') →
      ∃ j opening close, (tokens text)[i]? = some opening ∧ (tokens text)[j]? = some close ∧
        c'.On (tokens text) (j + 1) ∧
        Text.trimmedSlice? text ⟨opening.span.stop, close.start⟩ = some s) ∧
    (∀ start i c j c' s, start.On (tokens text) i → c.On (tokens text) j → i ≤ j →
      restOfDefinition start c = .ok (s, c') →
      ∃ k first, (tokens text)[i]? = some first ∧ c'.On (tokens text) k ∧
        Text.trimmedSlice? text ⟨first.start, max first.start (endBefore (tokens text) k)⟩ =
          some s) ∧
    ∀ kind fault, read real text = invalid kind fault → fault.IsAt (tokens text) := by
  refine ⟨ended_tokens text, fun t ht => slice?_span ht,
    ⟨Grammar.made_createTable real, Grammar.made_grants, Grammar.made_accounts⟩,
    fun α m hm => hm.staysOn (ended_tokens text), fun c i c' s hc h => slice?_of_balanced hc h,
    fun start i c j c' s hstart hc hij h => slice?_of_restOfDefinition hstart hc hij h,
    fun kind fault h => ?_⟩
  obtain ⟨α, m, hm, herror⟩ := exists_made_of_invalid h
  obtain ⟨k, hk, htokens⟩ :=
    (hm.staysOn (ended_tokens text) _ 0 (Cursor.on_ofText text)).2 fault herror
  exact ReadingFault.isAt_of_tokens (ended_tokens text) hk htokens

/-- A type that does not exist is refused one token back, here behind a name of more bytes than
characters. -/
example : (read .double "CREATE TABLE t (né FLOAAT)").fault?.map
    (fun f => (f.found, f.span, f.remainder)) =
      some ("FLOAAT", ⟨20, 26⟩, ["FLOAAT", ")"]) := by
  decide +kernel

end Statement

end SchemaDrift
