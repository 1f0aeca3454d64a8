import Mathlib
import SchemaDrift.Proofs.BareValue
import SchemaDrift.Proofs.TableRoundTrip

/-!
The round trip of table options. What a table's options are written as is put behind a table of one
column and read again. The options come back if every value that is written bare is one word, number or
literal, and they come back in no other case, unless a bare value begins with a comment.
-/

namespace SchemaDrift

open Parse Grammar

/-! ### What is read in the place of an option -/

lemma Parse.repeated_cases {σ : Type} {step : σ → Parse (Option σ)} {s s' : σ} {c c' : Cursor}
    (h : repeated step s c = .ok (s', c')) : (step s c = .ok (none, c') ∧ s' = s) ∨
      ∃ s₁ c₁, step s c = .ok (some s₁, c₁) ∧
        (repeated step s₁ c₁ = .ok (s', c') ∨ s' = s₁) := by
  rw [repeated] at h
  rcases hstep : step s c with e | ⟨_ | s₁, c₁⟩ <;> simp only [hstep] at h
  · cases h
  · obtain ⟨rfl, rfl⟩ := Prod.mk.inj (Except.ok.inj h)
    exact .inl ⟨rfl, rfl⟩
  · refine .inr ⟨s₁, c₁, rfl, ?_⟩
    split at h
    · exact .inl h
    · exact .inr (Prod.mk.inj (Except.ok.inj h)).1.symm

lemma carries_of_value {c c' : Cursor} {p what : String} (h : value what c = .ok (p, c')) :
    (c.lexemeAt 0).Carries p := by
  unfold value taking at h
  rcases hl : c.lexemeAt 0 with v | v | v | v | v | _ <;>
    simp only [hl, Except.ok.injEq, Prod.mk.injEq, reduceCtorEq] at h
  all_goals obtain ⟨rfl, -⟩ := h
  all_goals simp [Lexeme.Carries, Lexeme.IsValue]

section

variable {os os' : TableOptions} {o : TableOption} {k v : String} {c c' : Cursor}

lemma get?_of_repeated (h : repeated nextOption os c = .ok (os', c')) (hk : os.get? k = some v) :
    os'.get? k = some v := by
  refine Leads.repeated (I := fun os _ => OrderedMap.get? os k = some v) (fun os => ?_) os c os' c'
    hk h
  intro c r c' hk hok
  rcases r with _ | os₁
  · exact hk
  · obtain ⟨o, w, -, -, hnew, rfl⟩ := addsOption_nextOption c _ c' trivial hok os₁ rfl
    have hne : k ≠ o.name := by
      rintro rfl
      rw [OrderedMap.contains, hk] at hnew
      cases hnew
    rw [Option.getD_some, OrderedMap.get?_insert, if_neg hne, hk]

lemma exists_carries_of_repeated (hmem : o ∈ TableOption.dictionary) {tail : List Char}
    (hc : c.At ((" " ++ o.name).toList ++ '=' :: tail))
    (h : repeated nextOption os c = .ok (os', c')) :
    ∃ l p rest, Lexes tail l rest ∧ l.Carries p ∧ os'.get? o.name = some (storedValue o p) := by
  obtain ⟨c₁, hc₁, -, hreaches⟩ := reaches_optionValue hmem os tail c hc
  have hadds {r : Option TableOptions} {c₂ : Cursor} (hstep : nextOption os c = .ok (r, c₂)) :
      ∃ l p rest, Lexes tail l rest ∧ l.Carries p ∧
        r = some (os.insert o.name (storedValue o p)) := by
    rw [hreaches] at hstep
    obtain ⟨p, c₃, hvalue, hstep⟩ := exists_of_bind hstep
    have hcarries := carries_of_value hvalue
    have hnext : c₁.lexemeAt 0 ≠ .ending := by
      intro hend
      rw [hend] at hcarries
      simp [Lexeme.Carries, Lexeme.IsValue] at hcarries
    obtain ⟨rest, hlexes⟩ := hc₁.exists_lexes hnext
    refine ⟨_, p, rest, hlexes, hcarries, ?_⟩
    split at hstep
    · cases hstep
    · split at hstep
      · cases hstep
      · exact (Prod.mk.inj (Except.ok.inj hstep)).1.symm
  obtain ⟨hstep, -⟩ | ⟨os₁, c₂, hstep, hrounds⟩ := Parse.repeated_cases h
  · obtain ⟨l, p, rest, -, -, hr⟩ := hadds hstep
    cases hr
  · obtain ⟨l, p, rest, hlexes, hcarries, hr⟩ := hadds hstep
    obtain rfl := Option.some.inj hr
    have hset : (os.insert o.name (storedValue o p)).get? o.name = some (storedValue o p) := by
      rw [OrderedMap.get?_insert, if_pos rfl]
    refine ⟨l, p, rest, hlexes, hcarries, ?_⟩
    obtain hrounds | rfl := hrounds
    · exact get?_of_repeated hrounds hset
    · exact hset

end

/-! ### All options -/

namespace TableOptions

lemma startsSpaced_text {es : List (String × String)}
    (h : ∀ e ∈ es, ∃ o : TableOption, o.Stores e.1 e.2) : StartsSpaced (text es) := by
  rcases es with _ | ⟨e, es⟩
  · exact .inl rfl
  · obtain ⟨o, hmem, hname, -⟩ := h e List.mem_cons_self
    have hletter : ∀ o ∈ TableOption.dictionary, o.name.toList.head?.any Char.isAlpha = true := by
      decide
    obtain ⟨n, hn, halpha⟩ := (Option.any_eq_true _ _).1 (hletter o hmem)
    obtain ⟨name, hcons⟩ := List.head?_eq_some_iff.1 hn
    refine .inr ⟨n, ?_⟩
    rw [text_cons, TableOption.setting, ← hname, TableOption.find?_name o hmem]
    simp [TableOption.sql, hcons, halpha]

lemma isValue_of_setting {os m : TableOptions} {o : TableOption} {e : String × String}
    {es : List (String × String)} (ho : o.Stores e.1 e.2) (he : e ∈ os.entries)
    (hquoted : o.quoted = false) (hplain : BeginsPlainly e.2) (hrest : StartsSpaced (text es))
    {c c' : Cursor} (hc : c.At (text (e :: es))) (hread : repeated nextOption m c = .ok (os, c')) :
    IsValue e.2 := by
  have htext : text (e :: es) = (" " ++ o.name).toList ++ '=' :: (e.2.toList ++ text es) := by
    rw [text_cons, TableOption.setting, ← ho.name, TableOption.find?_name o ho.mem]
    simp [TableOption.sql, hquoted]
  rw [htext] at hc
  obtain ⟨l, p, rest, hlexes, hcarries, hget⟩ := exists_carries_of_repeated ho.mem hc hread
  have hsame : storedValue o p = e.2 := by
    have hentry := OrderedMap.get?_eq_some_iff.2 he
    rw [← ho.name, hget] at hentry
    exact Option.some.inj hentry
  exact isValue_of_storedValue hplain hrest hcarries hlexes hsame

lemma isValue_of_repeated {os m : TableOptions} (h : os.Grammatical)
    (hplain : ∀ v ∈ os.values, BeginsPlainly v) {es : List (String × String)}
    (hes : os.entries = m.entries ++ es) {c c' : Cursor} (hc : c.At (text es))
    (hread : repeated nextOption m c = .ok (os, c')) :
    ∀ e ∈ es, (TableOption.find? e.1).all (!·.quoted) = true → IsValue e.2 := by
  induction es generalizing m c with
  | nil => simp
  | cons e es ih =>
    have hmem : ∀ d ∈ e :: es, d ∈ os.entries := fun d hd => hes ▸ List.mem_append_right _ hd
    obtain ⟨o, ho⟩ := h e (hmem e List.mem_cons_self)
    have hfind : TableOption.find? e.1 = some o := by rw [← ho.name, TableOption.find?_name o ho.mem]
    have hspaced := startsSpaced_text fun d hd => h d (hmem d (.tail _ hd))
    have hvalue : o.quoted = false → IsValue e.2 := by
      intro hquoted
      refine isValue_of_setting ho (hmem e List.mem_cons_self) hquoted (hplain e.2 ?_) hspaced hc hread
      refine List.mem_map.2 ⟨e, List.mem_filter.2 ⟨hmem e List.mem_cons_self, ?_⟩, rfl⟩
      rw [hfind, Option.all_some, hquoted]
      rfl
    have hlast : ∀ d ∈ m.entries, compare d.1 e.1 = .lt := by
      have hincreasing := os.increasing
      rw [hes, List.pairwise_append] at hincreasing
      exact fun d hd => hincreasing.2.2 d hd e List.mem_cons_self
    have hset : os.entries = (m.insert e.1 e.2).entries ++ es := by
      rw [OrderedMap.entries_insert hlast, hes, List.append_assoc, List.singleton_append]
    -- The option is read as it is, and the next ones behind it.
    obtain ⟨c₁, hok, hc₁, -⟩ :=
      takes_option ho hvalue (OrderedMap.contains_eq_false hlast) (neutral_text es) c hc
    have hmore : ∀ d ∈ es, (TableOption.find? d.1).all (!·.quoted) = true → IsValue d.2 := by
      obtain ⟨hstep, -⟩ | ⟨os₁, c₂, hstep, hrounds⟩ := Parse.repeated_cases hread
      · rw [hok] at hstep
        cases hstep
      · rw [hok] at hstep
        obtain ⟨hos, rfl⟩ := Prod.mk.inj (Except.ok.inj hstep)
        obtain rfl := Option.some.inj hos
        obtain hrounds | rfl := hrounds
        · exact ih hset hc₁ hrounds
        · simp [List.self_eq_append_right.1 hset]
    intro d hd hbare
    obtain rfl | hd := List.mem_cons.1 hd
    · rw [hfind, Option.all_some, Bool.not_eq_true'] at hbare
      exact hvalue hbare
    · exact hmore d hd hbare

end TableOptions

/-! ### Behind a table -/

/-- A table of one column that the options are written behind. -/
def carrier : String := "CREATE TABLE t (a INT)"

def Column.carried : Column := .ofType "a" (.integer .regular none .none)

def Table.carrying (os : TableOptions) : Table :=
  { ofName ⟨none, "t"⟩ with columns := [.carried], options := os }

lemma grammatical_carrying : (Table.carrying OrderedMap.empty).Grammatical := by
  have hread : Statement.read .single carrier = .table (.carrying OrderedMap.empty) := by
    decide +kernel
  exact Statement.grammatical_of_read hread

lemma bareNameIsWord_carried : ∀ n ∈ ["a", "t"], BareNameIsWord n := by
  intro n hn _
  revert n
  decide

lemma takes_carried (real : FloatSize) (t : Table) {rest : List Char} (hneutral : Neutral rest)
    (hclose : firstLexeme rest = .closeParen) : Takes (definition real t) ("a INT".toList ++ rest)
      { t with columns := t.columns ++ [Column.carried.unplaced] } rest := by
  have hsql : Column.carried.sql = "a INT" := by cbv
  have hvalues : Column.carried.values = [] := rfl
  have htexts : Column.carried.texts = [] := rfl
  rw [← hsql, ← List.nil_append (_ ++ _)]
  exact (grammatical_carrying.columns _ List.mem_cons_self).takes
    (bareNameIsWord_carried "a" (by simp)) (by simp [hvalues]) (by simp [htexts]) real t (by simp)
    hneutral (by rw [hclose]; decide)

lemma reaches_options (real : FloatSize) (rest : List Char) :
    Reaches (createTable real) (carrier.toList ++ rest) (do
      let options ← repeated nextOption OrderedMap.empty
      ending
      return .carrying options) rest := by
  have hclose : Lexes (')' :: rest) .closeParen rest := .punctuation rfl rest
  have hneutral : Neutral (')' :: rest) := neutral_cons (by decide) rest
  have hdefinitions (t : Table) : Takes (repeated (nextDefinition real) t) (')' :: rest) t
      (')' :: rest) := takes_definitions (List.forall_mem_nil _) hneutral hclose.first t
  set body := "a INT".toList ++ ')' :: rest
  have hopen : Lexes (' ' :: '(' :: body) .openParen body := (Lexes.punctuation rfl body).space
  obtain ⟨hname, m, hm⟩ :=
    takes_tableName (n := ⟨none, "t"⟩) (by simpa using bareNameIsWord_carried "t" (by simp)) body
  set named := ' ' :: ((TableName.sql ⟨none, "t"⟩).toList ++ ' ' :: '(' :: body)
  obtain ⟨htable, hneutral'⟩ := lexes_spaced " TABLE" "TABLE" rfl (by decide)
    (show Neutral named from neutral_space _)
  have hcreate := Lexes.word (w := "CREATE") (by decide) hneutral'
  have htext : carrier.toList ++ rest = "CREATE".toList ++ (" TABLE".toList ++ named) := by
    have hsql : TableName.sql ⟨none, "t"⟩ = "t" := by decide
    simp [carrier, named, body, hsql]
  rw [htext]
  refine .bind (.keyword hcreate (by decide)) (.bind (.acceptWord_other ?_)
    (.bind (.keyword htable (by decide)) (.bind (.acceptWord_other ?_) ?_)))
  · rw [htable.first]
    decide
  · rw [hm]
    exact nameLexeme_isWord (by decide)
  extract_lets rest
  refine .bind hname (.bind (.expect hopen _) ?_)
  refine .bind (takes_carried real _ hneutral hclose.first) (.bind (hdefinitions _) ?_)
  exact .bind (.expect hclose _) (.refl _ _)

/-! ### The round trip -/

namespace TableOptions

/-- What is written for the options is read, behind a table, as the same options. -/
def ReadsBack (real : FloatSize) (os : TableOptions) : Prop :=
  ∃ t, Statement.read real (carrier ++ " " ++ TableOptions.sql os) = .table t ∧ t.options = os

variable {real : FloatSize} {os : TableOptions}

lemma toList_carried (hne : os.isEmpty = false) :
    (carrier ++ " " ++ TableOptions.sql os).toList = carrier.toList ++ text os.entries := by
  rw [← text_entries, hne, if_neg (by simp)]
  simp

lemma readsBack_of_isValue (h : os.Grammatical) (hne : os.isEmpty = false)
    (hvalues : ∀ v ∈ os.values, IsValue v) : ReadsBack real os := by
  have htakes : Takes (createTable real) (carrier.toList ++ text os.entries) (.carrying os) [] :=
    (reaches_options real _).takes
      (.bind (takes_text h hvalues rfl) (.bind Table.takes_ending (.pure _ [])))
  rw [← toList_carried hne] at htakes
  obtain ⟨c', hok, -⟩ := htakes _ (Cursor.at_ofText _)
  refine ⟨.carrying os, ?_, rfl⟩
  simp only [Statement.read, kindAt_of_createTable hok, Statement.outcome, hok]

lemma isValue_of_readsBack (h : os.Grammatical) (hne : os.isEmpty = false)
    (hplain : ∀ v ∈ os.values, BeginsPlainly v) (hback : ReadsBack real os) :
    ∀ v ∈ os.values, IsValue v := by
  obtain ⟨t, hread, hoptions⟩ := hback
  obtain ⟨c', hok⟩ := Statement.createTable_of_read hread
  have hc := Cursor.at_ofText (carrier ++ " " ++ TableOptions.sql os)
  rw [toList_carried hne] at hc
  obtain ⟨c₁, hc₁, -, hreaches⟩ := reaches_options real _ _ hc
  rw [hreaches] at hok
  obtain ⟨os', c₂, hrepeated, hok⟩ := exists_of_bind hok
  obtain ⟨⟨⟩, c₃, -, hok⟩ := exists_of_bind hok
  obtain rfl : os' = os := by
    rw [← hoptions, ← (Prod.mk.inj (Except.ok.inj hok)).1]
    rfl
  intro v hv
  obtain ⟨e, he, rfl⟩ := List.mem_map.1 hv
  obtain ⟨hmem, hbare⟩ := List.mem_filter.1 he
  exact isValue_of_repeated h hplain rfl hc₁ hrepeated e hmem hbare

/-- **The round trip of table options.** The options of a table that was read, written behind a table
of one column, are read as the same options if each value that is written bare is one word, number or
literal; and unless one of these values begins with a comment, only then. -/
theorem readsBack_of_read {real real' : FloatSize} {text : String} {t : Table}
    (h : Statement.read real text = .table t) (hne : t.options.isEmpty = false) :
    ((∀ v ∈ TableOptions.values t.options, IsValue v) → ReadsBack real' t.options) ∧
      ((∀ v ∈ TableOptions.values t.options, BeginsPlainly v) → ReadsBack real' t.options →
        ∀ v ∈ TableOptions.values t.options, IsValue v) := by
  have hgrammatical := (Statement.grammatical_of_read h).options
  exact ⟨readsBack_of_isValue hgrammatical hne, isValue_of_readsBack hgrammatical hne⟩

/-- A statement whose options are introduced and written in several ways. -/
def archiveText : String :=
  "CREATE TABLE t (a INT) COMMENT 'it''s' ENGINE=`InnoDB`, DEFAULT CHARACTER SET 'UTF8' MAX_ROWS 0x1F"

def archive : TableOptions :=
  .ofList [("CHARSET", "utf8mb3"), ("COMMENT", "it's"), ("ENGINE", "InnoDB"), ("MAX_ROWS", "0x1F")]

theorem readsBack_of_read_archive : Statement.read .single archiveText = .table (.carrying archive) ∧
    OrderedMap.isEmpty archive = false ∧ (∀ v ∈ values archive, IsValue v) ∧
    ReadsBack .double archive := by
  have hread : Statement.read .single archiveText = .table (.carrying archive) := by decide +kernel
  have hne : OrderedMap.isEmpty archive = false := by decide
  have hvalues : ∀ v ∈ values archive, IsValue v := by decide +kernel
  exact ⟨hread, hne, hvalues, (readsBack_of_read hread hne).1 hvalues⟩

/-- **Not all options come back**: a name that was read from between back quotes is written bare. -/
theorem exists_not_readsBack : ∃ t : Table,
    Statement.read .single "CREATE TABLE t (a INT) TABLESPACE=`my space`" = .table t ∧
      t.options.isEmpty = false ∧ ¬ ReadsBack .single t.options := by
  refine ⟨.carrying (.ofList [("TABLESPACE", "my space")]), by decide +kernel, by decide, ?_⟩
  rintro ⟨t, ht, -⟩
  have hrefused : (Statement.read .single (carrier ++ " " ++
      TableOptions.sql (.ofList [("TABLESPACE", "my space")]))).fault?.isSome = true := by decide +kernel
  have hsame : Statement.read .single (carrier ++ " " ++
      TableOptions.sql (.ofList [("TABLESPACE", "my space")])) = .table t := ht
  rw [hsame] at hrefused
  cases hrefused

end TableOptions

end SchemaDrift
