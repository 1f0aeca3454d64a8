import Mathlib
import SchemaDrift.Proofs.Finding
import SchemaDrift.Proofs.WrittenGrant

/-!
Grants and clauses on accounts as they are found. Whatever a statement says, its privileges have
names that can be written, its columns are in lower case, and a certificate requires something.
-/

namespace SchemaDrift

open Parse Grammar

/-! ### Words -/

namespace Cursor

variable {c : Cursor}

lemma move_add (c : Cursor) (m n : Nat) : (c.move m).move n = c.move (m + n) := by
  rw [move, move, move, List.drop_drop, List.take_add, List.reverse_append, List.append_assoc]

lemma OnText.move (h : c.OnText) {words : List String} (hwords : c.hasWords words = true) :
    (c.move words.length).OnText := by
  induction words generalizing c with
  | nil => exact h
  | cons w ws ih =>
    have hsplit : c.hasWords ([w] ++ ws) = true := hwords
    rw [hasWords_append, Bool.and_eq_true] at hsplit
    have hnext := ih (h.move_one (Finds.not_ending_of_hasWords hsplit.1)) hsplit.2
    rwa [move_add, Nat.add_comm] at hnext

lemma isWordChar_of_readWord {cs : List Char} {w : String} (h : (readWord cs).1 = .word w) :
    ∀ d ∈ w.toList, isWordChar d = true := by
  have hword : w.toList = cs.takeWhile isWordChar := by
    simp only [readWord] at h
    split at h
    · split at h
      · split at h <;> cases h
      · cases h
    · split at h
      · cases h
      · split at h
        · cases h
        · rw [← Lexeme.word.inj h, String.toList_ofList]
  rw [hword]
  exact fun d hd => List.mem_takeWhile_imp hd

lemma OnText.isWordChar (h : c.OnText) {w : String} (hw : c.lexemeAt 0 = .word w) :
    ∀ d ∈ w.toList, isWordChar d = true := by
  obtain ⟨cs, hc⟩ := h
  obtain ⟨rest, d, more, -, hread⟩ := hc.exists_lexes (by simp [hw])
  have hreads := reads_read d more
  rw [hread, hw] at hreads
  generalize hr : (Lexeme.word w, rest) = r at hreads
  cases hreads with
  | word hd hmore =>
    exact isWordChar_of_readWord (congrArg Prod.fst hr.symm)
  | punctuation hd =>
    have hmem := mem_of_ofPunctuation? hd
    rw [← (Prod.mk.inj hr).1] at hmem
    simp at hmem
  | name | openName | string | openString | literal | openLiteral | other => cases hr

end Cursor

lemma isWordChar_toUpper {c : Char} (h : isWordChar c = true) : isWordChar c.toUpper = true := by
  have hcases : c.toUpper = c ∨ c.toUpper.isAlphanum = true := by
    grind [Char.toUpper, Char.isAlphanum, Char.isAlpha, Char.isUpper]
  rcases hcases with hsame | hc
  · rwa [hsame]
  · exact isWordChar_of_isAlphanum hc

lemma Parse.Yields.bind {α β : Type} {m : Parse α} {f : α → Parse β} {Q : α → Prop} {R : β → Prop}
    (hm : Yields m Q) (hf : ∀ a, Q a → Yields (f a) R) : Yields (m >>= f) R := by
  intro c b c' h
  obtain ⟨a, c₁, ha, h⟩ := exists_of_bind h
  exact hf a (hm c a c₁ ha) c₁ b c' h

namespace Parse.Finds

lemma acceptWords {words : List String} : Finds (Parse.acceptWords words) fun _ => True := by
  intro c a c' hc h
  rw [Parse.acceptWords] at h
  split at h <;> rename_i hwords <;> obtain ⟨-, rfl⟩ := Prod.mk.inj (Except.ok.inj h)
  · exact ⟨hc.move hwords, trivial⟩
  · exact ⟨hc, trivial⟩

lemma upperWord?_chars : Finds Parse.upperWord? fun w? => ∀ w ∈ w?,
    (∀ c ∈ w.toList, isWordChar c = true) ∧ Text.upper w = w := by
  intro c w? c' hc h
  rw [Parse.upperWord?] at h
  split at h <;> rename_i hword <;> obtain ⟨rfl, rfl⟩ := Prod.mk.inj (Except.ok.inj h)
  · refine ⟨hc, ?_⟩
    rintro _ ⟨⟩
    refine ⟨fun d hd => ?_, by simp [Text.upper, Function.comp_def]⟩
    rw [Text.upper, String.toList_ofList] at hd
    obtain ⟨e, he, rfl⟩ := List.mem_map.1 hd
    exact isWordChar_toUpper (hc.isWordChar hword e he)
  · exact ⟨hc, by simp⟩

end Parse.Finds

namespace Grammar

/-! ### Grants -/

lemma finds_privilegeName : Finds privilegeName IsPrivilegeName := by
  refine .bind .get fun c _ => ?_
  split
  · rename_i words hfind
    refine .bind .acceptWords fun _ _ => .pure (.inl ?_)
    exact List.mem_map_of_mem (List.mem_of_find?_eq_some hfind)
  · refine .bind .upperWord?_chars fun w? hw => ?_
    split
    · rename_i w
      split
      · rename_i hmark
        refine .bind .advance fun _ _ => .pure (.inr ?_)
        exact ⟨(hw w rfl).1, List.contains_iff_mem.1 hmark, (hw w rfl).2⟩
      · exact .expected _
    · exact .expected _

lemma grammatical_ofNames (names : List String) : (Scope.ofNames names).Grammatical := by
  unfold Scope.ofNames Scope.ofSet?
  split
  · intro n hn
    obtain ⟨m, -, rfl⟩ := List.mem_map.1 (OrderedSet.mem_ofList.1 hn)
    simp [Text.lower, Function.comp_def]
  · trivial

lemma finds_privilege :
    Finds privilege fun p => IsPrivilegeName p.1 ∧ p.2.Grammatical := by
  refine .bind finds_privilegeName fun n hn => .bind .accept fun b _ => ?_
  split
  · refine .bind (.separated .identifier) fun names _ => .bind .expect fun _ _ => ?_
    exact .pure ⟨hn, grammatical_ofNames names⟩
  · exact .pure ⟨hn, trivial⟩

lemma grammatical_merge {s t : Scope} (hs : s.Grammatical) (ht : t.Grammatical) :
    (s.merge t).Grammatical := by
  cases s with
  | whole => trivial
  | columns as ha =>
    cases t with
    | whole => trivial
    | columns bs hb =>
      intro n hn
      rcases OrderedSet.mem_union.1 hn with hn | hn
      · exact hs n hn
      · exact ht n hn

lemma grammatical_grant {ps : Privileges} {n : String} {s : Scope} (h : Privileges.Grammatical ps)
    (hn : IsPrivilegeName n) (hs : s.Grammatical) :
    Privileges.Grammatical (Privileges.grant ps n s) := by
  rintro ⟨m, t⟩ hp
  rw [← OrderedMap.get?_eq_some_iff, Privileges.grant, OrderedMap.get?_alter] at hp
  split at hp
  · rename_i hm
    obtain rfl := Option.some.inj hp
    refine ⟨hm ▸ hn, ?_⟩
    split
    · rename_i held hheld
      exact grammatical_merge (h _ (OrderedMap.get?_eq_some_iff.1 hheld)).2 hs
    · exact hs
  · exact h _ (OrderedMap.get?_eq_some_iff.1 hp)

lemma grammatical_insert_option {ps : Privileges} (h : Privileges.Grammatical ps) :
    Privileges.Grammatical (ps.insert Grant.grantOption .whole) := by
  rintro ⟨m, t⟩ hp
  rw [← OrderedMap.get?_eq_some_iff, OrderedMap.get?_insert] at hp
  split at hp
  · rename_i hm
    obtain rfl := Option.some.inj hp
    exact ⟨hm ▸ .inl (by decide), trivial⟩
  · exact h _ (OrderedMap.get?_eq_some_iff.1 hp)

lemma entries_alter_ne_nil (ps : Privileges) (n : String) (f : Option Scope → Scope) :
    (ps.alter n f).entries ≠ [] := by
  have hget := OrderedMap.get?_alter_self ps n f
  exact List.ne_nil_of_mem (OrderedMap.get?_eq_some_iff.1 hget)

lemma grammatical_foldl_grant {listed : List (String × Scope)} (hne : listed ≠ [])
    (hlisted : ∀ p ∈ listed, IsPrivilegeName p.1 ∧ p.2.Grammatical) {ps : Privileges}
    (h : Privileges.Grammatical ps) :
    (listed.foldl (fun (ps : Privileges) p => ps.grant p.1 p.2) ps).entries ≠ [] ∧
      Privileges.Grammatical
        (listed.foldl (fun (ps : Privileges) p => ps.grant p.1 p.2) ps) := by
  induction listed generalizing ps with
  | nil => exact absurd rfl hne
  | cons p listed ih =>
    have hp := hlisted p List.mem_cons_self
    have hgrant := grammatical_grant h hp.1 hp.2
    rw [List.foldl_cons]
    rcases listed with _ | ⟨q, listed⟩
    · exact ⟨entries_alter_ne_nil ps p.1 _, hgrant⟩
    · exact ih (List.cons_ne_nil q listed) (fun r hr => hlisted r (.tail _ hr)) hgrant

theorem grammatical_of_grants {verb : GrantVerb} {c c' : Cursor} {gs : List Grant} (hc : c.OnText)
    (h : grants verb c = .ok (gs, c')) : ∀ g ∈ gs, g.verb = verb ∧ g.Grammatical := by
  obtain ⟨⟨⟩, c₁, hkeyword, h⟩ := exists_of_bind h
  obtain ⟨hc₁, -⟩ := Finds.keyword c _ c₁ hc hkeyword
  obtain ⟨listed, c₂, hlisted, h⟩ := exists_of_bind h
  obtain ⟨-, hne, hprivileges⟩ := Finds.separated finds_privilege c₁ listed c₂ hc₁ hlisted
  have hempty : Privileges.Grammatical OrderedMap.empty := by
    simp [Privileges.Grammatical, OrderedMap.empty]
  obtain ⟨hentries, hgrammatical⟩ := grammatical_foldl_grant hne hprivileges hempty
  set ps : Privileges := listed.foldl (fun ps p => ps.grant p.1 p.2) OrderedMap.empty
  obtain ⟨⟨⟩, c₃, -, h⟩ := exists_of_bind h
  obtain ⟨kind?, c₄, -, h⟩ := exists_of_bind h
  obtain ⟨⟨database?, object⟩, c₅, -, h⟩ := exists_of_bind h
  obtain ⟨⟨⟩, c₆, -, h⟩ := exists_of_bind h
  obtain ⟨accounts, c₇, -, h⟩ := exists_of_bind h
  -- Either the listed privileges are held or they and the right to pass them on.
  have hends {qs : Privileges} (hqs : qs = ps ∨ qs = ps.insert Grant.grantOption .whole)
      {c : Cursor} (h : (do
        ending
        return accounts.map fun account => (⟨verb, account, kind?, database?, object, qs⟩ : Grant) :
          Parse (List Grant)) c = .ok (gs, c')) : ∀ g ∈ gs, g.verb = verb ∧ g.Grammatical := by
    obtain ⟨⟨⟩, c₈, -, h⟩ := exists_of_bind h
    obtain ⟨rfl, -⟩ := Prod.mk.inj (Except.ok.inj h)
    intro g hg
    obtain ⟨account, -, rfl⟩ := List.mem_map.1 hg
    rcases hqs with rfl | rfl
    · exact ⟨rfl, hentries, hgrammatical⟩
    · exact ⟨rfl, entries_alter_ne_nil _ _ _, grammatical_insert_option hgrammatical⟩
  split at h
  · obtain ⟨withOption, c₈, -, h⟩ := exists_of_bind h
    dsimp only at h
    split at h
    · obtain ⟨granted, c₉, -, h⟩ := exists_of_bind h
      split at h
      · exact hends (.inr rfl) h
      · cases h
    · exact hends (.inl rfl) h
  · exact hends (.inl rfl) h

/-! ### Clauses on accounts -/

lemma requirements_of_withProperty {c d : Certificate} {name value : String}
    (h : withProperty c name value = some d) : d.requirements ≠ [] := by
  unfold withProperty at h
  split at h <;> split at h <;> cases h <;> simp [Certificate.requirements]

lemma yields_property {otherwise : String} {c : Certificate} :
    Yields (property otherwise c) fun d => d.requirements ≠ [] := by
  refine yields_bind fun name? => ?_
  split
  · split
    · refine yields_bind fun _ => yields_bind fun value => ?_
      split
      · rename_i d hd
        exact yields_pure (requirements_of_withProperty hd)
      · exact yields_fault
    · intro c d c' h
      cases h
  · intro c d c' h
    cases h

lemma yields_nextProperty {c : Certificate} :
    Yields (nextProperty c) fun d? => ∀ d ∈ d?, d.requirements ≠ [] := by
  have hsome {otherwise : String} : Yields (do return some (← property otherwise c))
      fun d? => ∀ d ∈ d?, d.requirements ≠ [] :=
    yields_property.bind fun d hd => yields_pure (by rintro _ ⟨⟩; exact hd)
  refine yields_bind fun more? => ?_
  split
  · exact hsome
  · refine yields_bind fun name? => ?_
    split
    · exact hsome
    · exact hsome
    · exact hsome
    · exact yields_pure (by simp)

lemma yields_transport : Yields transport Transport.Grammatical := by
  have hround (c : Certificate) : Leads (fun _ => c.requirements ≠ []) (nextProperty c)
      fun d? _ => (d?.getD c).requirements ≠ [] := by
    intro d d? d' hc h
    rcases d? with _ | e
    · exact hc
    · exact yields_nextProperty d _ d' h e rfl
  refine yields_bind fun word? => ?_
  split
  · exact yields_bind fun _ => yields_pure trivial
  · exact yields_bind fun _ => yields_pure trivial
  · exact yields_bind fun _ => yields_pure trivial
  · refine yields_property.bind fun first hfirst => ?_
    have hall : Yields (repeated nextProperty first) fun c => c.requirements ≠ [] :=
      fun c d c' h => Leads.repeated (I := fun c _ => c.requirements ≠ []) hround first c d c' hfirst h
    exact hall.bind fun c hc => yields_pure hc

theorem yields_accounts : Yields accounts fun cs => ∀ c ∈ cs, c.Grammatical := by
  have hclauses (verb : AccountVerb) : Yields (do
      keyword "USER"
      let conditional ← condition verb
      let accounts ← separated declaredAccount
      defaultRoles
      let transport? ← if ← acceptWord "REQUIRE" then some <$> transport else pure none
      skipToEnd
      ending
      return accounts.map fun account => (⟨verb, account, conditional, transport?⟩ : AccountClause))
      fun cs => ∀ c ∈ cs, c.Grammatical := by
    refine yields_bind fun _ => yields_bind fun conditional => yields_bind fun accounts =>
      yields_bind fun _ => yields_bind fun required => ?_
    have hend {transport? : Option Transport} (h : ∀ t ∈ transport?, t.Grammatical) : Yields (do
        skipToEnd
        ending
        return accounts.map fun account =>
          (⟨verb, account, conditional, transport?⟩ : AccountClause))
        fun cs => ∀ c ∈ cs, c.Grammatical := by
      refine yields_bind fun _ => yields_bind fun _ => yields_pure fun c hc => ?_
      obtain ⟨account, -, rfl⟩ := List.mem_map.1 hc
      exact h
    dsimp only
    split
    · rw [map_eq_pure_bind, bind_assoc]
      refine yields_transport.bind fun t ht => ?_
      rw [pure_bind]
      exact hend (by rintro _ ⟨⟩; exact ht)
    · rw [pure_bind]
      exact hend (by simp)
  refine yields_bind fun create => ?_
  dsimp only
  split
  · rw [pure_bind]
    exact hclauses .create
  · refine yields_bind fun _ => ?_
    rw [pure_bind]
    exact hclauses .alter

end Grammar

end SchemaDrift
