import Mathlib
import SchemaDrift.Proofs.TableYield
import SchemaDrift.Proofs.WrittenGroup

/-!
What a grammar finds in a text. A step is followed from the tokens of any text: it stays on that
text, and what it takes is what its rule says.
-/

namespace SchemaDrift

namespace Cursor

/-- The tokens ahead are those of a text. -/
def OnText (c : Cursor) : Prop := ∃ cs, c.At cs

variable {c : Cursor}

lemma advance_of_ending (h : c.lexemeAt 0 = .ending) : c.advance = c := by
  rw [lexemeAt, ← List.head?_eq_getElem?] at h
  rw [advance]
  rcases hahead : c.ahead with _ | ⟨t, ts⟩
  · rfl
  · rw [hahead] at h
    exact if_pos h

lemma OnText.advance (h : c.OnText) : c.advance.OnText := by
  obtain ⟨cs, hc⟩ := h
  by_cases hend : c.lexemeAt 0 = .ending
  · rw [advance_of_ending hend]
    exact ⟨cs, hc⟩
  · obtain ⟨rest, hlexes⟩ := hc.exists_lexes hend
    obtain ⟨-, -, -, hrest⟩ := hc.advance hlexes
    exact ⟨rest, hrest⟩

lemma OnText.move_one (h : c.OnText) (hword : c.lexemeAt 0 ≠ .ending) : (c.move 1).OnText := by
  obtain ⟨cs, hc⟩ := h
  obtain ⟨rest, hlexes⟩ := hc.exists_lexes hword
  obtain ⟨-, -, hmove, hrest⟩ := hc.advance hlexes
  exact ⟨rest, hmove ▸ hrest⟩

lemma onText_ofText (text : String) : (ofText text).OnText := ⟨_, at_ofText text⟩

end Cursor

namespace Parse

variable {α β σ : Type} {m : Parse α} {f : α → Parse β}

/-- From each place in `P`, what the step takes leads to `Q`. -/
def Leads (P : Cursor → Prop) (m : Parse α) (Q : α → Cursor → Prop) : Prop :=
  ∀ c a c', P c → m c = .ok (a, c') → Q a c'

namespace Leads

variable {P : Cursor → Prop} {Q : α → Cursor → Prop} {R : β → Cursor → Prop}

lemma bind (hm : Leads P m Q) (hf : ∀ a, Leads (Q a) (f a) R) : Leads P (m >>= f) R := by
  intro c b c' hc h
  obtain ⟨a, c₁, hm₁, hf₁⟩ := exists_of_bind h
  exact hf a c₁ b c' (hm c a c₁ hc hm₁) hf₁

lemma pure {a : α} (h : ∀ c, P c → Q a c) : Leads P (Pure.pure a) Q := by
  intro c b c' hc hb
  obtain ⟨rfl, rfl⟩ := Prod.mk.inj (Except.ok.inj hb)
  exact h c hc

lemma repeated {step : σ → Parse (Option σ)} {I : σ → Cursor → Prop}
    (h : ∀ s, Leads (I s) (step s) fun r c => I (r.getD s) c) (s : σ) :
    Leads (I s) (Parse.repeated step s) I := by
  intro c a c' hc hok
  rw [Parse.repeated] at hok
  rcases hstep : step s c with e | ⟨r, c₁⟩
  · simp [hstep] at hok
  · have hc₁ := h s c r c₁ hc hstep
    rcases r with _ | s₁
    · simp only [hstep] at hok
      obtain ⟨rfl, rfl⟩ := Prod.mk.inj (Except.ok.inj hok)
      exact hc₁
    · simp only [hstep] at hok
      split at hok
      · exact repeated h s₁ c₁ a c' hc₁ hok
      · obtain ⟨rfl, rfl⟩ := Prod.mk.inj (Except.ok.inj hok)
        exact hc₁
termination_by c => c.ahead.length

end Leads

/-- On a text the step stays on it, and what it takes satisfies `R`. -/
def Finds (m : Parse α) (R : α → Prop) : Prop :=
  Leads Cursor.OnText m fun a c => c.OnText ∧ R a

namespace Finds

variable {Q R : α → Prop} {S : β → Prop} {l : Lexeme} {w : String}

lemma bind_leads {T : β → Cursor → Prop} (hm : Finds m Q)
    (hf : ∀ a, Q a → Leads Cursor.OnText (f a) T) : Leads Cursor.OnText (m >>= f) T :=
  Leads.bind hm fun a c b c' hc h => hf a hc.2 c b c' hc.1 h

lemma bind (hm : Finds m Q) (hf : ∀ a, Q a → Finds (f a) S) : Finds (m >>= f) S :=
  hm.bind_leads hf

lemma pure {a : α} (h : R a) : Finds (Pure.pure a) R := Leads.pure fun _ hc => ⟨hc, h⟩

lemma mono (hm : Finds m Q) (h : ∀ a, Q a → R a) : Finds m R := by
  intro c a c' hc hok
  obtain ⟨hc', ha⟩ := hm c a c' hc hok
  exact ⟨hc', h a ha⟩

lemma map {g : α → β} (hm : Finds m Q) (hg : ∀ a, Q a → S (g a)) : Finds (g <$> m) S := by
  rw [map_eq_pure_bind]
  exact bind hm fun a ha => pure (hg a ha)

lemma of_error {e : Cursor → ReadingFault} : Finds (fun c => .error (e c)) R := by
  intro c a c' _ h
  cases h

lemma expected (what : String) : Finds (Parse.expected what) R := of_error

lemma fault (cause : FaultCause) (back : Nat) : Finds (Parse.fault cause back) R := of_error

/-! ### Single tokens -/

lemma next : Finds Parse.next fun _ => True := by
  intro c a c' hc h
  obtain ⟨-, rfl⟩ := Prod.mk.inj (Except.ok.inj h)
  exact ⟨hc, trivial⟩

lemma next_bind {g : Lexeme → Parse β}
    (h : ∀ l, Leads (fun c => c.OnText ∧ c.lexemeAt 0 = l) (g l) fun b c => c.OnText ∧ S b) :
    Finds (Parse.next >>= g) S := fun c b c' hc hok => h (c.lexemeAt 0) c b c' ⟨hc, rfl⟩ hok

lemma at_next (hm : Finds m Q) :
    Leads (fun c => c.OnText ∧ c.lexemeAt 0 = l) m fun a c => c.OnText ∧ Q a :=
  fun c a c' hc hok => hm c a c' hc.1 hok

lemma get : Finds MonadState.get fun _ => True := by
  intro c a c' hc h
  obtain ⟨-, rfl⟩ := Prod.mk.inj (Except.ok.inj h)
  exact ⟨hc, trivial⟩

lemma advance : Finds Parse.advance fun _ => True := by
  intro c a c' hc h
  obtain ⟨-, rfl⟩ := Prod.mk.inj (Except.ok.inj h)
  exact ⟨hc.advance, trivial⟩

lemma accept : Finds (Parse.accept l) fun _ => True := by
  intro c a c' hc h
  rw [Parse.accept] at h
  split at h <;> obtain ⟨-, rfl⟩ := Prod.mk.inj (Except.ok.inj h)
  · exact ⟨hc.advance, trivial⟩
  · exact ⟨hc, trivial⟩

lemma expect {what : String} : Finds (Parse.expect l what) fun _ => True := by
  intro c a c' hc h
  rw [Parse.expect] at h
  split at h
  · obtain ⟨-, rfl⟩ := Prod.mk.inj (Except.ok.inj h)
    exact ⟨hc.advance, trivial⟩
  · cases h

lemma not_ending_of_hasWords {c : Cursor} (h : c.hasWords [w] = true) : c.lexemeAt 0 ≠ .ending := by
  intro hend
  simp [Cursor.hasWords, hend, Lexeme.isWord] at h

lemma acceptWord : Finds (Parse.acceptWord w) fun _ => True := by
  intro c a c' hc h
  rw [Parse.acceptWord, acceptWords] at h
  split at h <;> rename_i hwords <;> obtain ⟨-, rfl⟩ := Prod.mk.inj (Except.ok.inj h)
  · exact ⟨hc.move_one (not_ending_of_hasWords hwords), trivial⟩
  · exact ⟨hc, trivial⟩

lemma keyword : Finds (Parse.keyword w) fun _ => True := by
  intro c a c' hc h
  rw [Parse.keyword, expectWord] at h
  split at h
  · rename_i hwords
    obtain ⟨-, rfl⟩ := Prod.mk.inj (Except.ok.inj h)
    exact ⟨hc.move_one (not_ending_of_hasWords hwords), trivial⟩
  · cases h

lemma atWord : Finds (Parse.atWord w) fun _ => True := by
  intro c a c' hc h
  obtain ⟨-, rfl⟩ := Prod.mk.inj (Except.ok.inj h)
  exact ⟨hc, trivial⟩

lemma upperWord? : Finds Parse.upperWord? fun _ => True := by
  intro c a c' hc h
  rw [Parse.upperWord?] at h
  split at h <;> obtain ⟨-, rfl⟩ := Prod.mk.inj (Except.ok.inj h) <;> exact ⟨hc, trivial⟩

lemma taking {g : Lexeme → Option α} {what : String} (h : ∀ l a, g l = some a → R a) :
    Finds (Parse.taking g what) R := by
  intro c a c' hc hok
  rw [Parse.taking] at hok
  split at hok
  · rename_i a' ha
    obtain ⟨rfl, rfl⟩ := Prod.mk.inj (Except.ok.inj hok)
    exact ⟨hc.advance, h _ _ ha⟩
  · cases hok

lemma string {what : String} : Finds (Parse.string what) fun _ => True :=
  taking fun _ _ _ => trivial

lemma identifier {what : String} : Finds (Parse.identifier what) fun _ => True :=
  taking fun _ _ _ => trivial

lemma value {what : String} : Finds (Parse.value what) fun _ => True := taking fun _ _ _ => trivial

lemma number {what : String} : Finds (Parse.number what) (· ≤ Text.max32) := by
  refine taking fun l n h => ?_
  cases l with
  | number text => exact Text.readNat_le h
  | _ => cases h

lemma parenthesizedNumber {what : String} :
    Finds (Parse.parenthesizedNumber what) (· ≤ Text.max32) :=
  bind expect fun _ _ => bind number fun _ hn => bind expect fun _ _ => pure hn

lemma optionalNumber {what : String} :
    Finds (Parse.optionalNumber what) fun n? => ∀ n ∈ n?, n ≤ Text.max32 := by
  refine bind next fun l _ => ?_
  split
  · exact bind parenthesizedNumber fun n hn => pure (by rintro _ ⟨⟩; exact hn)
  · exact pure (by simp)

lemma balanced : Finds Parse.balanced fun s => OpensNoLine s.toList → IsGroup s := by
  rintro c s c' ⟨cs, hc⟩ h
  exact isGroup_of_balanced hc h

/-! ### Repetition -/

lemma repeated {step : σ → Parse (Option σ)} {I : σ → Prop}
    (h : ∀ s, I s → Finds (step s) fun r => ∀ s' ∈ r, I s') {s : σ} (hs : I s) :
    Finds (Parse.repeated step s) I := by
  have hstep (s : σ) :
      Leads (fun c => c.OnText ∧ I s) (step s) fun r c => c.OnText ∧ I (r.getD s) := by
    intro c r c' hc hok
    obtain ⟨hc', hr⟩ := h s hc.2 c r c' hc.1 hok
    rcases r with _ | s'
    · exact ⟨hc', hc.2⟩
    · exact ⟨hc', hr s' rfl⟩
  have hrounds := Leads.repeated (I := fun s c => c.OnText ∧ I s) hstep s
  exact fun c a c' hc hok => hrounds c a c' ⟨hc, hs⟩ hok

lemma separated {item : Parse α} (h : Finds item R) :
    Finds (Parse.separated item) fun as => as ≠ [] ∧ ∀ a ∈ as, R a := by
  intro c as c' hc hok
  rw [Parse.separated] at hok
  rcases hitem : item c with e | ⟨a, c₁⟩
  · simp [hitem] at hok
  · obtain ⟨hc₁, ha⟩ := h c a c₁ hc hitem
    simp only [hitem] at hok
    split at hok
    · split at hok
      · rcases hnext : Parse.separated item c₁.advance with e | ⟨bs, c₂⟩
        · simp [hnext] at hok
        · simp only [hnext] at hok
          obtain ⟨rfl, rfl⟩ := Prod.mk.inj (Except.ok.inj hok)
          obtain ⟨hc₂, -, hbs⟩ := separated h c₁.advance bs c₂ hc₁.advance hnext
          exact ⟨hc₂, by simp, by simpa using ⟨ha, hbs⟩⟩
      · obtain ⟨rfl, rfl⟩ := Prod.mk.inj (Except.ok.inj hok)
        exact ⟨hc₁.advance, by simp, by simpa using ha⟩
    · obtain ⟨rfl, rfl⟩ := Prod.mk.inj (Except.ok.inj hok)
      exact ⟨hc₁, by simp, by simpa using ha⟩
termination_by c => c.ahead.length

end Finds

end Parse

end SchemaDrift
