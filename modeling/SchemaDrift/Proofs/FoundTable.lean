import Mathlib
import SchemaDrift.Proofs.FoundColumn
import SchemaDrift.Proofs.WrittenTable

/-!
Tables as they are found. Whatever a statement says, each of its keys, constraints and options is as
the grammar has it, and what is completed at the end is complete.
-/

namespace SchemaDrift

open Parse

namespace Grammar

/-! ### Keys -/

lemma finds_keyMethod : Finds keyMethod fun m => m = "BTREE" ∨ m = "HASH" := by
  refine .bind .upperWord? fun word? _ => ?_
  split
  · exact .bind .advance fun _ _ => .pure (.inl rfl)
  · exact .bind .advance fun _ _ => .pure (.inr rfl)
  · exact .expected _

lemma finds_keyPart : Finds keyPart KeyPart.Grammatical := by
  have hdirection {p : KeyPart} (h : p.Grammatical) : Finds (do
      if ← acceptWord "DESC" then return { p with descending := true }
      else
        let _ ← acceptWord "ASC"
        return p) KeyPart.Grammatical := by
    refine .bind .acceptWord fun b _ => ?_
    split
    · exact .pure { h with }
    · exact .bind .acceptWord fun _ _ => .pure h
  refine .bind .next fun l _ => ?_
  dsimp only
  split
  · exact .bind .balanced fun s hs => .bind (.pure (R := KeyPart.Grammatical)
      ⟨by simp, fun _ => ⟨rfl, hs⟩⟩) fun p hp => hdirection hp
  · exact .bind .identifier fun name _ => .bind .optionalNumber fun n? hn =>
      .bind (.pure (R := KeyPart.Grammatical) ⟨hn, by simp⟩) fun p hp => hdirection hp

lemma finds_acceptKeyWord : Finds acceptKeyWord fun _ => True := by
  refine .bind .acceptWord fun b _ => ?_
  split
  · exact .pure trivial
  · exact .acceptWord

lemma finds_keyKind : Finds keyKind fun _ => True := by
  have hkind (kind : KeyKind) : Finds (do
      advance
      let _ ← acceptKeyWord
      return kind) fun _ => True :=
    .bind .advance fun _ _ => .bind finds_acceptKeyWord fun _ _ => .pure trivial
  refine .bind .upperWord? fun word? _ => ?_
  split
  · exact .bind .advance fun _ _ => .bind .keyword fun _ _ => .pure trivial
  · exact hkind _
  · exact hkind _
  · exact hkind _
  · exact .bind .advance fun _ _ => .pure trivial
  · exact .bind .advance fun _ _ => .pure trivial
  · exact .expected _

lemma finds_keyName? (kind : KeyKind) (constraint? : Option String) :
    Finds (keyName? kind constraint?) fun n? => kind = .primary → n? = none := by
  unfold keyName?
  split
  · exact .pure fun _ => rfl
  · rename_i hkind
    have hfound {n? : Option String} : kind = .primary → n? = none := fun h => absurd h hkind
    refine .bind .next fun l _ => ?_
    split
    · exact .pure hfound
    · refine .bind .atWord fun b _ => ?_
      split
      · exact .pure hfound
      · exact .bind .identifier fun n _ => .pure hfound

lemma finds_keyAttributes {k : Key} (h : k.Grammatical) :
    Finds (repeated nextKeyAttribute k) Key.Grammatical := by
  refine .repeated (fun k h => ?_) h
  have hsame : Finds (pure (some k)) fun r : Option Key => ∀ k' ∈ r, k'.Grammatical :=
    .pure (by rintro _ ⟨⟩; exact h)
  refine .bind .upperWord? fun word? _ => ?_
  split
  · refine .bind .advance fun _ _ => .bind finds_keyMethod fun m hm => .pure ?_
    rintro _ ⟨⟩
    exact { h with method := by rintro _ ⟨⟩; exact hm }
  · refine .bind .advance fun _ _ => .bind .string fun text _ => .pure ?_
    rintro _ ⟨⟩
    exact { h with }
  · exact .bind .advance fun _ _ => .bind .accept fun _ _ => .bind .number fun _ _ => hsame
  · exact .bind .advance fun _ _ => hsame
  · exact .bind .advance fun _ _ => hsame
  · exact .bind .advance fun _ _ => .bind .keyword fun _ _ => .bind .identifier fun _ _ => hsame
  · exact .pure (by simp)

theorem finds_key (constraint? : Option String) : Finds (key constraint?) Key.Grammatical := by
  refine .bind finds_keyKind fun kind _ => ?_
  refine .bind (finds_keyName? kind constraint?) fun name? hname => .bind .acceptWord fun b _ => ?_
  have hparts {method? : Option String} (hmethod : ∀ m ∈ method?, m = "BTREE" ∨ m = "HASH") :
      Finds (do
        expect .openParen "`(` opening the key column list"
        let parts ← separated keyPart
        expect .closeParen "`,` or `)` in the key column list"
        repeated nextKeyAttribute ⟨kind, name?, parts, method?, none⟩) Key.Grammatical :=
    .bind .expect fun _ _ => .bind (.separated finds_keyPart) fun parts hparts =>
      .bind .expect fun _ _ => finds_keyAttributes ⟨hname, hparts.1, hparts.2, hmethod⟩
  dsimp only
  split
  · refine .bind (.map (S := fun m? => ∀ m ∈ m?, m = "BTREE" ∨ m = "HASH") finds_keyMethod ?_)
      fun m? hm => hparts hm
    rintro m hm _ ⟨⟩
    exact hm
  · exact .bind (.pure (R := (· = none)) rfl) fun m? hm => hparts (by simp [hm])

/-! ### Definitions -/

/-- What stands ahead is a text, and the table is drafted, unless nothing stands ahead. -/
def Settled (t : Table) (c : Cursor) : Prop :=
  c.OnText ∧ (c.lexemeAt 0 = .ending ∨ t.Drafted ∧ t.definitions ≠ [])

lemma eq_of_upperWord? {c c' : Cursor} {w? : Option String} (h : upperWord? c = .ok (w?, c')) :
    c' = c ∧ w? = (c.lexemeAt 0).upperWord? := by
  rw [Parse.upperWord?] at h
  rcases hl : c.lexemeAt 0 <;> rw [hl] at h
  all_goals
    obtain ⟨rfl, rfl⟩ := Prod.mk.inj (Except.ok.inj h)
    exact ⟨rfl, rfl⟩

lemma eq_of_identifier {c c' : Cursor} {n what : String} (h : identifier what c = .ok (n, c')) :
    c' = c.advance ∧ (c.lexemeAt 0 = .word n ∨ c.lexemeAt 0 = .quotedName n) := by
  rw [identifier, taking] at h
  rcases hl : c.lexemeAt 0 <;> simp only [hl] at h <;> try cases h
  all_goals simp

lemma ahead_of_advance {c : Cursor} (h : c.lexemeAt 0 ≠ .ending) :
    ∃ t : Token, t.lexeme = c.lexemeAt 0 ∧ c.ahead = t :: c.advance.ahead := by
  rw [Cursor.lexemeAt] at h ⊢
  rcases hahead : c.ahead with _ | ⟨t, ts⟩
  · simp [hahead] at h
  · have hl : t.lexeme ≠ .ending := by simpa [hahead] using h
    have hadvance : c.advance = ⟨t :: c.behind, ts⟩ := by
      rw [Cursor.advance, hahead]
      exact if_neg hl
    exact ⟨t, rfl, by rw [hadvance]⟩

section

variable {t t' : Table} {c c' start : Cursor} {pre : List Token}

lemma settled_of_addKey (h : t.Drafted) (constraint? : Option String) :
    Leads Cursor.OnText (addKey t constraint?) Settled := by
  refine Leads.bind (finds_key constraint?) fun k => Leads.pure fun c hc => ⟨hc.1, .inr ⟨?_, ?_⟩⟩
  · refine { h with keys := fun k' hk' => ?_ }
    rcases List.mem_append.1 hk' with hk' | hk'
    · exact h.keys k' hk'
    · exact List.mem_singleton.1 hk' ▸ hc.2
  · simp [Table.definitions]

lemma settled_of_addConstraint (h : t.Drafted) (hstart : start.OnText)
    (hpre : start.ahead = pre ++ c.ahead) (hhead : ConstraintHead (pre.map (·.lexeme)))
    (hbody : (c.lexemeAt 0).upperWord? ∈ constraintWords)
    (hok : addConstraint t start c = .ok (t', c')) : Settled t' c' := by
  obtain ⟨cs, hcs⟩ := hstart
  obtain ⟨s, c₁, hrest, hok⟩ := exists_of_bind hok
  obtain ⟨rfl, rfl⟩ := Prod.mk.inj (Except.ok.inj hok)
  obtain ⟨htext, hend⟩ := isConstraint_of_restOfDefinition hcs hpre hhead hbody hrest
  refine ⟨htext, hend.imp_right fun hs => ⟨?_, by simp [Table.definitions]⟩⟩
  refine { h with constraints := fun s' hs' => ?_ }
  rcases List.mem_append.1 hs' with hs' | hs'
  · exact h.constraints s' hs'
  · exact List.mem_singleton.1 hs' ▸ hs

lemma not_ending_of_upperWord? {l : Lexeme} {w : String} (h : l.upperWord? = some w) :
    l ≠ .ending := by
  rintro rfl
  cases h

lemma settled_of_constraint (h : t.Drafted) (hc : c.OnText)
    (hword : (c.lexemeAt 0).upperWord? = some "CONSTRAINT")
    (hok : constraint t c c.advance = .ok (t', c')) : Settled t' c' := by
  obtain ⟨k, hk, hahead⟩ := ahead_of_advance (not_ending_of_upperWord? hword)
  rw [← hk] at hword
  obtain ⟨w?, c₁, hw, hok⟩ := exists_of_bind hok
  obtain ⟨rfl, rfl⟩ := eq_of_upperWord? hw
  extract_lets body at hok
  -- What follows the name of the constraint, or the word alone.
  have hbody (pre : List Token) {name? : Option String} {c₁ : Cursor} (hc₁ : c₁.OnText)
      (hpre : c.ahead = pre ++ c₁.ahead) (hhead : ConstraintHead (pre.map (·.lexeme)))
      (hok : body name? c₁ = .ok (t', c')) : Settled t' c' := by
    obtain ⟨w?, c₂, hw, hdone⟩ := exists_of_bind hok
    obtain ⟨rfl, hw⟩ := eq_of_upperWord? hw
    rw [eq_comm] at hw
    split at hdone
    · exact settled_of_addKey h name? _ _ _ hc₁ hdone
    · exact settled_of_addKey h name? _ _ _ hc₁ hdone
    · exact settled_of_addConstraint h hc hpre hhead (by rw [hw]; decide) hdone
    · exact settled_of_addConstraint h hc hpre hhead (by rw [hw]; decide) hdone
    · cases hdone
  split at hok
  · exact hbody [k] hc.advance hahead (.unnamed hword) hok
  · rename_i hnamed
    obtain ⟨name?, c₁, hname, hok⟩ := exists_of_bind hok
    rw [map_eq_pure_bind] at hname
    obtain ⟨n, c₂, hn, hname⟩ := exists_of_bind hname
    obtain ⟨rfl, rfl⟩ := Prod.mk.inj (Except.ok.inj hname)
    obtain ⟨rfl, hm⟩ := eq_of_identifier hn
    obtain ⟨m, hlexeme, hahead'⟩ := ahead_of_advance (c := c.advance)
      (by rcases hm with hm | hm <;> simp [hm])
    rw [← hlexeme] at hm hnamed
    refine hbody [k, m] hc.advance.advance (hahead.trans ?_) ?_ hok
    · rw [hahead']
      rfl
    · exact .named hword hm (by simpa using hnamed)

/-- **A definition drafts the table.** -/
theorem settled_of_definition (h : t.Drafted) (real : FloatSize) :
    Leads Cursor.OnText (definition real t) Settled := by
  intro c t' c' hc hok
  obtain ⟨start, c₁, hstart, hok⟩ := exists_of_bind hok
  obtain ⟨rfl, rfl⟩ := Prod.mk.inj (Except.ok.inj hstart)
  obtain ⟨w?, c₁, hw, hok⟩ := exists_of_bind hok
  obtain ⟨rfl, hw⟩ := eq_of_upperWord? hw
  rw [eq_comm] at hw
  split at hok
  · obtain ⟨⟨⟩, c₂, hadvance, hok⟩ := exists_of_bind hok
    obtain ⟨-, rfl⟩ := Prod.mk.inj (Except.ok.inj hadvance)
    exact settled_of_constraint h hc hw hok
  case h_8 | h_9 =>
    exact settled_of_addConstraint h hc (List.nil_append _).symm .bare (by rw [hw]; decide) hok
  case h_10 =>
    obtain ⟨hc', d, hd, rfl⟩ := finds_column real t _ _ _ hc hok
    refine ⟨hc', .inr ⟨⟨fun e he => ?_, fun e he => ?_, fun e he => ?_⟩, ?_⟩⟩
    · rcases List.mem_append.1 he with he | he
      · exact h.columns e he
      · exact List.mem_singleton.1 he ▸ hd.column
    · exact (List.mem_append.1 he).elim (h.keys e) (hd.keys e)
    · exact (List.mem_append.1 he).elim (h.constraints e) (hd.constraints e)
    · simp [Table.definitions]
  all_goals exact settled_of_addKey h none _ _ _ hc hok

lemma settled_of_definitions (real : FloatSize) (t : Table) :
    Leads (Settled t) (repeated (nextDefinition real) t) Settled := by
  refine .repeated (fun t => ?_) t
  intro c r c' hc hok
  obtain ⟨b, c₁, haccept, hok⟩ := exists_of_bind hok
  rw [accept] at haccept
  split at haccept <;> obtain ⟨rfl, rfl⟩ := Prod.mk.inj (Except.ok.inj haccept)
  · rename_i hcomma
    obtain ⟨hc, hend | ⟨ht, -⟩⟩ := hc
    · rw [hcomma] at hend
      cases hend
    rw [if_pos rfl] at hok
    obtain ⟨t', c₂, hdefinition, hok⟩ := exists_of_bind hok
    obtain ⟨rfl, rfl⟩ := Prod.mk.inj (Except.ok.inj hok)
    exact settled_of_definition ht real _ _ _ hc.advance hdefinition
  · rw [if_neg (by simp)] at hok
    obtain ⟨rfl, rfl⟩ := Prod.mk.inj (Except.ok.inj hok)
    exact hc

end

lemma drafted_of_settled {t : Table} {c c' : Cursor} {what : String} (h : Settled t c)
    (hclose : expect .closeParen what c = .ok ((), c')) : t.Drafted ∧ t.definitions ≠ [] := by
  rw [expect] at hclose
  split at hclose
  · rename_i hnext
    refine h.2.resolve_left fun hend => ?_
    rw [hnext] at hend
    cases hend
  · cases hclose

/-! ### Options -/

lemma mem_of_spellingAt? {c : Cursor} {o : TableOption} {words : List String}
    (h : spellingAt? c = some (o, words)) : o ∈ TableOption.dictionary := by
  have hfold (es : List (TableOption × List String)) (best? : Option (TableOption × List String))
      (hes : ∀ e ∈ es, e.1 ∈ TableOption.dictionary)
      (hbest : ∀ e ∈ best?, e.1 ∈ TableOption.dictionary) :
      ∀ e ∈ es.foldl (fun best? e =>
        if c.hasWords e.2 && best?.all (fun b => b.2.length ≤ e.2.length) then some (e.1, e.2)
        else best?) best?, e.1 ∈ TableOption.dictionary := by
    induction es generalizing best? with
    | nil => exact hbest
    | cons e es ih =>
      refine ih _ (fun d hd => hes d (.tail _ hd)) ?_
      dsimp only
      split
      · rintro _ ⟨⟩
        exact hes e List.mem_cons_self
      · exact hbest
  refine hfold _ none ?_ (by simp) (o, words) h
  intro e he
  obtain ⟨o, ho, he⟩ := List.mem_flatMap.1 he
  obtain ⟨words, -, rfl⟩ := List.mem_map.1 he
  exact ho

lemma stores_storedValue {o : TableOption} (ho : o ∈ TableOption.dictionary) {v : String}
    (hv : o.accepts v = true) : o.Stores o.name (storedValue o v) := by
  have hany : ∀ o ∈ TableOption.dictionary, o.name = "CHARSET" ∨ o.name = "COLLATE" →
      o.values = .any := by decide
  refine ⟨ho, rfl, ?_, ?_⟩
  · by_cases hname : o.name = "CHARSET" ∨ o.name = "COLLATE"
    · rw [TableOption.accepts, hany o ho hname]
    · rw [not_or] at hname
      rwa [storedValue, if_neg hname.1, if_neg hname.2]
  · unfold storedValue
    split
    · exact Charset.canonical_canonical v
    · split
      · exact Charset.canonicalCollation_canonicalCollation v
      · rfl

lemma grammatical_insert {os : TableOptions} (h : os.Grammatical) {o : TableOption} {v : String}
    (ho : o.Stores o.name v) : TableOptions.Grammatical (os.insert o.name v) := by
  intro e he
  rw [← OrderedMap.get?_eq_some_iff, OrderedMap.get?_insert] at he
  split at he
  · rename_i hname
    rw [hname, ← Option.some.inj he]
    exact ⟨o, ho⟩
  · exact h e (OrderedMap.get?_eq_some_iff.1 he)

/-- The option is one of the dictionary, and new. -/
def AddsOption (os : TableOptions) (r : Option TableOptions) : Prop :=
  ∀ os' ∈ r, ∃ o v, o ∈ TableOption.dictionary ∧ o.accepts v = true ∧ os.contains o.name = false ∧
    os' = os.insert o.name (storedValue o v)

lemma addsOption_nextOption {os : TableOptions} : Leads (fun _ => True) (nextOption os)
    fun r _ => AddsOption os r := by
  unfold nextOption
  extract_lets body
  have hbody : Leads (fun _ => True) (body ()) fun r _ => AddsOption os r := by
    intro c r c' h hok
    obtain ⟨b, c₁, -, hok⟩ := exists_of_bind hok
    split at hok
    · obtain ⟨rfl, rfl⟩ := Prod.mk.inj (Except.ok.inj hok)
      simp [AddsOption]
    · obtain ⟨d, c₂, -, hok⟩ := exists_of_bind hok
      rcases hspelling : spellingAt? d with _ | ⟨o, words⟩ <;> simp only [hspelling] at hok
      · cases hok
      · obtain ⟨b, c₃, -, hok⟩ := exists_of_bind hok
        obtain ⟨b, c₄, -, hok⟩ := exists_of_bind hok
        obtain ⟨v, c₅, -, hok⟩ := exists_of_bind hok
        split at hok
        · cases hok
        · rename_i hrefused
          split at hok
          · cases hok
          · rename_i hnew
            obtain ⟨rfl, rfl⟩ := Prod.mk.inj (Except.ok.inj hok)
            rintro _ ⟨⟩
            exact ⟨o, v, mem_of_spellingAt? hspelling, by simpa using hrefused, by simpa using hnew,
              rfl⟩
  split
  · exact .bind (fun _ _ _ h _ => h) fun _ => hbody
  · exact hbody

lemma leads_nextOption {os : TableOptions} : Leads (fun _ => os.Grammatical) (nextOption os)
    fun r _ => (r.getD os).Grammatical := by
  intro c r c' h hok
  rcases r with _ | os'
  · exact h
  · obtain ⟨o, v, hmem, haccepts, -, rfl⟩ := addsOption_nextOption c _ c' trivial hok os' rfl
    exact grammatical_insert h (stores_storedValue hmem haccepts)

lemma grammatical_options {c c' : Cursor} {os : TableOptions}
    (h : repeated nextOption OrderedMap.empty c = .ok (os, c')) : os.Grammatical :=
  Leads.repeated (I := fun os _ => TableOptions.Grammatical os) (fun _ => leads_nextOption) _ c os
    c' (by simp [TableOptions.Grammatical, OrderedMap.empty]) h

/-! ### Completion -/

lemma repeatedColumn?_of_nodup {earlier cs : List Column}
    (h : ((earlier ++ cs).map fun c => Text.lower c.name).Nodup) :
    repeatedColumn? earlier cs = none := by
  induction cs generalizing earlier with
  | nil => rfl
  | cons c cs ih =>
    have hnew : earlier.any (fun d => Text.sameName d.name c.name) = false := by
      rw [List.any_eq_false]
      intro d hd hsame
      rw [List.map_append, List.nodup_append] at h
      exact h.2.2 _ (List.mem_map_of_mem hd) _ (List.mem_map_of_mem List.mem_cons_self)
        (Text.sameName_iff.1 hsame)
    rw [repeatedColumn?, hnew, if_neg (by simp)]
    exact ih (by simpa using h)

lemma withMandatory_unplaced (primary? : Option Key) (place : Place) (ordinal : Nat)
    (cs : List Column) : withMandatory primary? (placed place ordinal
      ((withMandatory primary? (placed place ordinal cs)).map Column.unplaced)) =
        withMandatory primary? (placed place ordinal cs) := by
  unfold withMandatory
  induction cs generalizing place ordinal with
  | nil => rfl
  | cons c cs ih =>
    by_cases hmandatory : primary?.any (fun k => k.parts.any fun p => Text.sameName p.name c.name)
    · simp [placed, Column.unplaced, hmandatory]
      simpa [Column.unplaced] using ih (.after c.name) (ordinal + 1)
    · simp [placed, Column.unplaced, hmandatory]
      simpa [Column.unplaced] using ih (.after c.name) (ordinal + 1)

lemma isNone_column? (t : Table) (name : String) : (t.column? name).isNone =
    !(t.columns.map (·.name)).any fun n => Text.sameName n name := by
  rw [Table.column?, List.any_map, Bool.eq_iff_iff, Option.isNone_iff_eq_none, List.find?_eq_none]
  simp [Function.comp_def]

lemma names_withMandatory (primary? : Option Key) (cs : List Column) :
    (withMandatory primary? (placed .first 0 cs)).map (·.name) = cs.map (·.name) := by
  obtain ⟨f, hf, hname⟩ := withMandatory_eq_map primary? (placed .first 0 cs)
  have hcomp : (fun c => c.name) ∘ f = fun c : Column => c.name := funext fun c => (hname c).1
  rw [hf, List.map_map, hcomp, map_placed _ fun _ _ _ => rfl]

theorem completed_unplaced {t t' : Table} (h : completed t = .ok t') :
    completed t'.unplaced = .ok t' := by
  obtain ⟨hrepeated, hprimary, hstray, rfl⟩ := completed_eq_ok_iff.1 h
  set t' : Table := { t with columns := withMandatory t.primaryKey? (placed .first 0 t.columns) }
  have hnames : t'.unplaced.columns.map (·.name) = t.columns.map (·.name) := by
    rw [← names_withMandatory t.primaryKey? t.columns]
    exact List.map_map
  refine completed_eq_ok_iff.2 ⟨repeatedColumn?_of_nodup ?_, hprimary, ?_, ?_⟩
  · have hlower (cs : List Column) : (cs.map fun c => Text.lower c.name) =
        (cs.map (·.name)).map Text.lower := by rw [List.map_map]; rfl
    have hnodup := nodup_of_repeatedColumn? hrepeated List.nodup_nil
    rw [List.nil_append] at hnodup ⊢
    rwa [hlower, hnames, ← hlower]
  · have hsame (n : String) : (t'.unplaced.column? n).isNone = (t.column? n).isNone := by
      rw [isNone_column?, isNone_column?, hnames]
    have hkeys : t'.unplaced.keys = t.keys := rfl
    rw [strayPart?, hkeys]
    simp only [hsame]
    exact hstray
  · have hcolumns := withMandatory_unplaced t.primaryKey? .first 0 t.columns
    change t' = { t with columns := withMandatory t.primaryKey? (placed .first 0
      ((withMandatory t.primaryKey? (placed .first 0 t.columns)).map Column.unplaced)) }
    rw [hcolumns]

lemma grammatical_placed {cs : List Column} (h : ∀ c ∈ cs, c.Grammatical) (place : Place)
    (ordinal : Nat) : ∀ c ∈ placed place ordinal cs, c.Grammatical := by
  induction cs generalizing place ordinal with
  | nil => simp [placed]
  | cons c cs ih =>
    rw [placed, List.forall_mem_cons]
    exact ⟨{ h c List.mem_cons_self with }, ih (fun d hd => h d (.tail _ hd)) _ _⟩

lemma grammatical_completed {t t' : Table} (h : completed t = .ok t') (hdrafted : t.Drafted)
    (hne : t.definitions ≠ []) (hoptions : TableOptions.Grammatical t.options) :
    t'.Grammatical := by
  have hcompleted := completed_unplaced h
  obtain ⟨-, -, -, rfl⟩ := completed_eq_ok_iff.1 h
  have hplaced := grammatical_placed hdrafted.columns .first 0
  refine ⟨⟨?_, hdrafted.keys, hdrafted.constraints⟩, ?_, hoptions, hcompleted⟩
  · simp only [withMandatory, List.forall_mem_map]
    intro c hc
    split
    · exact { hplaced c hc with }
    · exact hplaced c hc
  · have hlength : (withMandatory t.primaryKey? (placed .first 0 t.columns)).length =
        t.columns.length := by
      simpa using congrArg List.length (names_withMandatory t.primaryKey? t.columns)
    have hcount (u : Table) : u.definitions.length =
        u.columns.length + (u.keys.length + u.constraints.length) := by simp [Table.definitions]
    rw [← List.length_pos_iff, hcount] at hne ⊢
    rwa [hlength]

/-! ### Statements -/

lemma finds_tableName : Finds tableName fun _ => True := by
  refine .bind .identifier fun first _ => .bind .accept fun b _ => ?_
  split
  · exact .bind .identifier fun _ _ => .pure trivial
  · exact .pure trivial

theorem grammatical_of_createTable (real : FloatSize) :
    Leads Cursor.OnText (createTable real) fun t _ => t.Grammatical := by
  unfold createTable
  refine Finds.bind_leads .keyword fun _ _ => Finds.bind_leads .acceptWord fun temporary _ =>
    Finds.bind_leads .keyword fun _ _ => Finds.bind_leads .acceptWord fun ifNotExists _ => ?_
  extract_lets body
  have hbody : Leads Cursor.OnText (body ()) fun t _ => t.Grammatical := by
    refine Finds.bind_leads finds_tableName fun name _ => Finds.bind_leads .expect fun _ _ => ?_
    have hempty : Table.Drafted { Table.ofName name with temporary, ifNotExists } :=
      ⟨by simp [Table.ofName], by simp [Table.ofName], by simp [Table.ofName]⟩
    refine .bind (settled_of_definition hempty real) fun t =>
      .bind (settled_of_definitions real t) fun t => ?_
    intro c t' c' hsettled hok
    obtain ⟨⟨⟩, c₁, hclose, hok⟩ := exists_of_bind hok
    obtain ⟨options, c₂, hoptions, hok⟩ := exists_of_bind hok
    obtain ⟨⟨⟩, c₃, -, hok⟩ := exists_of_bind hok
    obtain ⟨hdrafted, hne⟩ := drafted_of_settled hsettled hclose
    rcases hcompleted : completed { t with options } with cause | t₁ <;>
      simp only [hcompleted] at hok
    · cases hok
    · obtain ⟨rfl, rfl⟩ := Prod.mk.inj (Except.ok.inj hok)
      exact grammatical_completed hcompleted { hdrafted with } hne (grammatical_options hoptions)
  split
  · exact Finds.bind_leads .keyword fun _ _ => Finds.bind_leads .keyword fun _ _ => hbody
  · exact hbody

end Grammar

end SchemaDrift
