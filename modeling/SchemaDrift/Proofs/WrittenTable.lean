import Mathlib
import SchemaDrift.Statement
import SchemaDrift.Proofs.TableYield
import SchemaDrift.Proofs.WrittenKey
import SchemaDrift.Proofs.WrittenOption

/-!
Tables as they are written. Each definition is read by itself and added to what stands before it, so
the table is read from its definitions in their order, its options, and the checks at the end.
-/

namespace SchemaDrift

open Parse Grammar

/-! ### Definitions -/

/-- The text is read as a definition that changes the table by `f`, whatever blanks stand before
it. -/
def IsDefinition (real : FloatSize) (s : String) (f : Table → Table) : Prop :=
  ∀ (t : Table) (b rest : List Char), (∀ d ∈ b, Text.isBlank d = true) → Neutral rest →
    firstLexeme rest ∈ definitionEnds →
      Takes (definition real t) (b ++ (s.toList ++ rest)) (f t) rest

section

variable {real : FloatSize} {rest : List Char}

def indent : List Char := ['\n', ' ', ' ']

lemma isBlank_of_mem_indent : ∀ d ∈ indent, Text.isBlank d = true := by
  intro d hd
  simp only [indent, List.mem_cons, List.not_mem_nil, or_false] at hd
  rcases hd with rfl | rfl | rfl <;> decide

/-- Definitions behind commas, as a table writes them. -/
def definitionsText (ds : List (String × (Table → Table))) : List Char :=
  ds.flatMap fun d => ',' :: (indent ++ d.1.toList)

lemma definitionsText_cons (d : String × (Table → Table)) (ds : List (String × (Table → Table))) :
    definitionsText (d :: ds) = ',' :: (indent ++ d.1.toList) ++ definitionsText ds := rfl

lemma definitionsText_ends (ds : List (String × (Table → Table))) (hneutral : Neutral rest)
    (hrest : firstLexeme rest ∈ definitionEnds) : Neutral (definitionsText ds ++ rest) ∧
      firstLexeme (definitionsText ds ++ rest) ∈ definitionEnds := by
  rcases ds with _ | ⟨d, ds⟩
  · exact ⟨hneutral, hrest⟩
  · rw [definitionsText_cons, List.append_assoc, List.cons_append]
    refine ⟨neutral_cons (by decide) _, ?_⟩
    rw [(Lexes.punctuation (c := ',') rfl _).first]
    decide

lemma takes_definitions {ds : List (String × (Table → Table))}
    (h : ∀ d ∈ ds, IsDefinition real d.1 d.2) (hneutral : Neutral rest)
    (hrest : firstLexeme rest = .closeParen) (t : Table) :
    Takes (repeated (nextDefinition real) t) (definitionsText ds ++ rest)
      (ds.foldl (fun t d => d.2 t) t) rest := by
  have hends : firstLexeme rest ∈ definitionEnds := by
    rw [hrest]
    decide
  induction ds generalizing t with
  | nil =>
    refine .repeated_last (.bind (.accept_other ?_) ?_)
    · rw [definitionsText, List.flatMap_nil, List.nil_append, hrest]
      simp
    · rw [if_neg (by simp)]
      exact .pure none rest
  | cons d ds ih =>
    obtain ⟨hneutral', hends'⟩ := definitionsText_ends ds hneutral hends
    have hd := h d List.mem_cons_self t indent _ isBlank_of_mem_indent hneutral' hends'
    have htext : definitionsText (d :: ds) ++ rest =
        ',' :: (indent ++ (d.1.toList ++ (definitionsText ds ++ rest))) := by
      simp [definitionsText_cons]
    rw [htext]
    refine .repeated_cons (.bind (.accept (.punctuation rfl _)) ?_) ?_
      (ih (fun e he => h e (.tail _ he)) (d.2 t))
    · rw [if_pos rfl]
      exact .bind hd (.pure _ _)
    · simp
      omega

end

/-! ### Names -/

lemma takes_tableName {n : TableName}
    (h : ∀ m ∈ n.database?.toList ++ [n.name], BareNameIsWord m) (rest : List Char) :
    Takes tableName (' ' :: (n.sql.toList ++ ' ' :: '(' :: rest)) n (' ' :: '(' :: rest) ∧
      ∃ m, firstLexeme (' ' :: (n.sql.toList ++ ' ' :: '(' :: rest)) = nameLexeme m := by
  obtain ⟨database?, name⟩ := n
  have hname : Lexes ((Sql.name name).toList ++ ' ' :: '(' :: rest) (nameLexeme name)
      (' ' :: '(' :: rest) := lexes_name (h name (by simp)) fun d hd => .inl (neutral_space _ d hd)
  have hopen : Lexes (' ' :: '(' :: rest) .openParen rest := (Lexes.punctuation rfl rest).space
  rcases database? with _ | d
  · refine ⟨.bind (.name hname.space _) (.bind (.accept_other ?_) ?_), name, hname.space.first⟩
    · rw [hopen.first]
      simp
    · rw [if_neg (by simp)]
      exact .pure _ _
  · have htext : (TableName.sql ⟨some d, name⟩).toList ++ ' ' :: '(' :: rest =
        (Sql.name d).toList ++ '.' :: ((Sql.name name).toList ++ ' ' :: '(' :: rest) := by
      simp [TableName.sql]
    rw [htext]
    set more := (Sql.name name).toList ++ ' ' :: '(' :: rest
    have hdatabase : Lexes ((Sql.name d).toList ++ '.' :: more) (nameLexeme d) ('.' :: more) :=
      lexes_name (h d (by simp)) fun c hc => .inr (by simpa using hc.symm)
    refine ⟨.bind (.name hdatabase.space _) (.bind (.accept (.punctuation rfl _)) ?_), d,
      hdatabase.space.first⟩
    rw [if_pos rfl]
    exact .bind (.name hname _) (.pure _ _)

/-! ### Opening words -/

section

variable {mid : List Char}

lemma takes_optionalWord {w : String} (hw : isPlainWord w = true) (hmid : Neutral mid)
    (hfirst : (firstLexeme mid).isWord w = false) (b : Bool) :
    Neutral ((if b then " " ++ w else "").toList ++ mid) ∧
      Takes (acceptWord w) ((if b then " " ++ w else "").toList ++ mid) b mid := by
  rcases b with _ | _
  · exact ⟨hmid, .acceptWord_other hfirst⟩
  · obtain ⟨hword, hneutral⟩ := lexes_spaced (" " ++ w) w (by simp) hw hmid
    exact ⟨hneutral, .acceptWord hword (by simp [Lexeme.isWord])⟩

lemma takes_exists {m : String} (hmid : Neutral mid) (hfirst : firstLexeme mid = nameLexeme m)
    (b : Bool) : Neutral ((if b then " NOT EXISTS" else "").toList ++ mid) ∧
      (firstLexeme ((if b then " NOT EXISTS" else "").toList ++ mid)).isWord "IF" = false ∧
      ∀ {α : Type} {a : α} {f : Unit → Parse α} {rest : List Char}, Takes (f ()) mid a rest →
        Takes (if b = true then do
            keyword "NOT"
            keyword "EXISTS"
            f ()
          else f ()) ((if b then " NOT EXISTS" else "").toList ++ mid) a rest := by
  rcases b with _ | _
  · refine ⟨hmid, ?_, fun hf => hf⟩
    have hword : (firstLexeme mid).isWord "IF" = false := by
      rw [hfirst]
      exact nameLexeme_isWord (by decide)
    exact hword
  · obtain ⟨hrun, hneutral⟩ := lexRun_words " NOT EXISTS" ["NOT", "EXISTS"] rfl (by decide) hmid
    obtain _ | ⟨hnot, _ | ⟨hexists, hnil⟩⟩ := hrun
    cases hnil
    refine ⟨hneutral (by simp), ?_, fun hf => ?_⟩
    · rw [if_pos rfl, hnot.first]
      decide
    · exact .bind (.keyword hnot (by decide)) (.bind (.keyword hexists (by decide)) hf)

end

/-! ### Tables -/

namespace Table

def names (t : Table) : List String :=
  t.name.database?.toList ++ [t.name.name] ++ t.columns.map (·.name) ++ t.keys.flatMap Key.names

/-- The names of character sets and collations in the table, and its option values that are not
written as strings. -/
def values (t : Table) : List String :=
  t.columns.flatMap Column.values ++ TableOptions.values t.options

/-- The texts in the table that are kept as written: expressions and constraints. -/
def texts (t : Table) : List String :=
  t.columns.flatMap Column.texts ++ t.keys.flatMap Key.texts ++ t.constraints

def unplaced (t : Table) : Table := { t with columns := t.columns.map Column.unplaced }

/-- The definitions of the table, with what each adds to it. -/
def definitions (t : Table) : List (String × (Table → Table)) :=
  t.columns.map (fun c => (c.sql, fun u => { u with columns := u.columns ++ [c.unplaced] })) ++
  t.keys.map (fun k => (k.sql, fun u => { u with keys := u.keys ++ [k] })) ++
  t.constraints.map (fun s => (s, fun u => { u with constraints := u.constraints ++ [s] }))

/-- The grammar has such definitions. What is said of a constraint holds of those that open no line
comment. -/
structure Drafted (t : Table) : Prop where
  columns : ∀ c ∈ t.columns, c.Grammatical
  keys : ∀ k ∈ t.keys, k.Grammatical
  constraints : ∀ s ∈ t.constraints, OpensNoLine s.toList → IsConstraint s

/-- The grammar has such tables. -/
structure Grammatical (t : Table) : Prop extends Drafted t where
  definitions_ne : t.definitions ≠ []
  options : TableOptions.Grammatical t.options
  completed : completed t.unplaced = .ok t

lemma foldl_definitions (t u : Table) : t.definitions.foldl (fun u d => d.2 u) u =
    { u with
      columns := u.columns ++ t.columns.map Column.unplaced
      keys := u.keys ++ t.keys
      constraints := u.constraints ++ t.constraints } := by
  have hcolumns (cs : List Column) (u : Table) :
      cs.foldl (fun u c => { u with columns := u.columns ++ [c.unplaced] }) u =
        { u with columns := u.columns ++ cs.map Column.unplaced } := by
    induction cs generalizing u with
    | nil => simp
    | cons c cs ih => simp [ih]
  have hkeys (ks : List Key) (u : Table) :
      ks.foldl (fun u k => { u with keys := u.keys ++ [k] }) u =
        { u with keys := u.keys ++ ks } := by
    induction ks generalizing u with
    | nil => simp
    | cons k ks ih => simp [ih]
  have hconstraints (ss : List String) (u : Table) :
      ss.foldl (fun u s => { u with constraints := u.constraints ++ [s] }) u =
        { u with constraints := u.constraints ++ ss } := by
    induction ss generalizing u with
    | nil => simp
    | cons s ss ih => simp [ih]
  rw [definitions, List.foldl_append, List.foldl_append, List.foldl_map, List.foldl_map,
    List.foldl_map, hcolumns, hkeys, hconstraints]

/-- **Every definition of a table is read from its text.** -/
lemma Grammatical.defines {t : Table} (h : t.Grammatical)
    (hnames : ∀ n ∈ t.names, BareNameIsWord n) (hvalues : ∀ v ∈ t.values, IsValue v)
    (hplain : ∀ s ∈ t.texts, OpensNoLine s.toList) (real : FloatSize) :
    ∀ d ∈ t.definitions, IsDefinition real d.1 d.2 := by
  intro d hd
  simp only [definitions, List.mem_append, List.mem_map] at hd
  obtain (⟨c, hc, rfl⟩ | ⟨k, hk, rfl⟩) | ⟨s, hs, rfl⟩ := hd
  · intro u b rest hb hneutral hrest
    refine (h.columns c hc).takes (hnames _ ?_) (fun v hv => hvalues v ?_) (fun s hs => hplain s ?_)
      real u hb hneutral hrest
    · simp only [names, List.mem_append]
      exact .inl (.inr (List.mem_map_of_mem hc))
    · exact List.mem_append_left _ (List.mem_flatMap.2 ⟨c, hc, hv⟩)
    · simp only [texts, List.mem_append]
      exact .inl (.inl (List.mem_flatMap.2 ⟨c, hc, hs⟩))
  · intro u b rest hb hneutral hrest
    refine (h.keys k hk).takes (fun n hn => hnames n ?_) (fun s hs => hplain s ?_)
      real u hb hneutral hrest
    · exact List.mem_append_right _ (List.mem_flatMap.2 ⟨k, hk, hn⟩)
    · simp only [texts, List.mem_append]
      exact .inl (.inr (List.mem_flatMap.2 ⟨k, hk, hs⟩))
  · intro u b rest hb hneutral hrest
    have hconstraint := h.constraints s hs (hplain s (List.mem_append_right _ hs))
    exact hconstraint.takes real u hb hneutral hrest

lemma toList_definitions {t : Table} {d : String × (Table → Table)}
    {ds : List (String × (Table → Table))} (h : t.definitions = d :: ds) :
    (Text.joined "," ((t.columns.map Column.sql ++ t.keys.map Key.sql ++ t.constraints).map
      ("\n  " ++ ·))).toList = indent ++ d.1.toList ++ definitionsText ds := by
  have htexts : t.columns.map Column.sql ++ t.keys.map Key.sql ++ t.constraints =
      (d :: ds).map (·.1) := by
    simp [← h, definitions, Function.comp_def]
  rw [htexts]
  clear htexts h
  induction ds generalizing d with
  | nil => simp [Text.joined, definitionsText, indent]
  | cons e ds ih =>
    have hcons : Text.joined "," (((d :: e :: ds).map (·.1)).map ("\n  " ++ ·)) =
        "\n  " ++ d.1 ++ "," ++ Text.joined "," (((e :: ds).map (·.1)).map ("\n  " ++ ·)) := rfl
    rw [hcons, String.toList_append, ih, definitionsText_cons]
    simp [indent]

lemma takes_ending : Takes ending [] () [] := by
  refine .bind (.accept_other (by simp [firstLexeme_nil])) (.bind (.next _) ?_)
  rw [firstLexeme_nil, if_pos rfl]
  exact .pure () []

theorem Grammatical.takes {t : Table} (h : t.Grammatical)
    (hnames : ∀ n ∈ t.names, BareNameIsWord n) (hvalues : ∀ v ∈ t.values, IsValue v)
    (hplain : ∀ s ∈ t.texts, OpensNoLine s.toList) (real : FloatSize) :
    Takes (createTable real) t.sql.toList t [] := by
  obtain ⟨d, ds, hds⟩ := List.exists_cons_of_ne_nil h.definitions_ne
  have hdefines := h.defines hnames hvalues hplain real
  rw [hds] at hdefines
  -- The text from its end on.
  have hoptions := h.options.takes fun v hv => hvalues v (List.mem_append_right _ hv)
  set options := (if t.options.isEmpty then "" else " " ++ TableOptions.sql t.options).toList
  have hclose : Lexes ('\n' :: ')' :: options) .closeParen options :=
    .blank (by decide) (.punctuation rfl options)
  have hneutral : Neutral ('\n' :: ')' :: options) := neutral_of_isBlank (by decide) _
  have hmore := takes_definitions (fun e he => hdefines e (.tail _ he)) hneutral hclose.first
  obtain ⟨hnext, hends⟩ := definitionsText_ends ds hneutral (by rw [hclose.first]; decide)
  have hfirst (u : Table) :=
    hdefines d List.mem_cons_self u indent _ isBlank_of_mem_indent hnext hends
  set body := indent ++ (d.1.toList ++ (definitionsText ds ++ '\n' :: ')' :: options))
  have hopen : Lexes (' ' :: '(' :: body) .openParen body := (Lexes.punctuation rfl body).space
  obtain ⟨hname, m, hm⟩ := takes_tableName (n := t.name) (fun n hn => hnames n (by
    simp only [names, List.mem_append] at hn ⊢
    exact .inl (.inl hn))) body
  set named := ' ' :: (t.name.sql.toList ++ ' ' :: '(' :: body)
  -- The words before the name.
  obtain ⟨hexists, hif, htakes⟩ := takes_exists (neutral_space _) hm t.ifNotExists
  set absent := (if t.ifNotExists then " NOT EXISTS" else "").toList ++ named
  obtain ⟨hneutral₁, htakes₁⟩ :=
    takes_optionalWord (w := "IF") (by decide) hexists hif t.ifNotExists
  set absent₁ := (if t.ifNotExists then " " ++ "IF" else "").toList ++ absent
  obtain ⟨htable, hneutral₂⟩ := lexes_spaced " TABLE" "TABLE" rfl (by decide) hneutral₁
  obtain ⟨hneutral₃, htakes₃⟩ := takes_optionalWord (w := "TEMPORARY") (by decide) hneutral₂
    (by rw [htable.first]; decide) t.temporary
  have hcreate := Lexes.word (w := "CREATE") (by decide) hneutral₃
  have htext : t.sql.toList = "CREATE".toList ++
      ((if t.temporary then " " ++ "TEMPORARY" else "").toList ++
        (" TABLE".toList ++ absent₁)) := by
    have hdefinitions := toList_definitions hds
    rw [Table.sql]
    generalize Text.joined "," _ = joined at hdefinitions ⊢
    rcases htemporary : t.temporary with _ | _ <;> rcases hexists : t.ifNotExists with _ | _ <;>
      simp [hdefinitions, absent₁, absent, named, body, options, hexists]
  rw [htext]
  refine .bind (.keyword hcreate (by decide)) (.bind htakes₃ (.bind (.keyword htable (by decide))
    (.bind htakes₁ ?_)))
  extract_lets rest
  refine htakes ?_
  refine .bind hname (.bind (.expect hopen _) (.bind (hfirst _) (.bind (hmore _)
    (.bind (.expect hclose _) (.bind hoptions (.bind takes_ending ?_))))))
  have hfold (u : Table) : ds.foldl (fun u e => e.2 u) (d.2 u) =
      t.definitions.foldl (fun u e => e.2 u) u := by rw [hds, List.foldl_cons]
  have hcompleted : Grammar.completed { ds.foldl (fun u e => e.2 u) (d.2 { ofName t.name with
      temporary := t.temporary, ifNotExists := t.ifNotExists }) with options := t.options } =
      .ok t := by
    rw [hfold, foldl_definitions]
    exact h.completed
  rw [hcompleted]
  exact .pure t []

end Table

/-! ### Statements -/

lemma Cursor.hasWords_append (c : Cursor) (ws vs : List String) :
    c.hasWords (ws ++ vs) = (c.hasWords ws && (c.move ws.length).hasWords vs) := by
  have hmove (n : Nat) : (c.move ws.length).lexemeAt n = c.lexemeAt (ws.length + n) := by
    rw [lexemeAt, lexemeAt, move, List.getElem?_drop]
  rw [Bool.eq_iff_iff, Bool.and_eq_true, hasWords_iff, hasWords_iff, hasWords_iff]
  refine ⟨fun h => ⟨fun n w hw => h n w ?_, fun n w hw => ?_⟩, fun h n w hw => ?_⟩
  · rw [List.getElem?_append_left (List.getElem?_eq_some_iff.1 hw).1, hw]
  · rw [hmove]
    refine h _ w ?_
    rw [List.getElem?_append_right (by omega), Nat.add_sub_cancel_left, hw]
  · by_cases hn : n < ws.length
    · rw [List.getElem?_append_left hn] at hw
      exact h.1 n w hw
    · rw [List.getElem?_append_right (by omega)] at hw
      have hvs := h.2 _ w hw
      rwa [hmove, Nat.add_sub_cancel' (by omega)] at hvs

lemma hasWords_of_keyword {w : String} {c c' : Cursor} (h : keyword w c = .ok ((), c')) :
    c.hasWords [w] = true ∧ c' = c.move 1 := by
  rw [keyword, expectWord] at h
  split at h
  · rename_i hwords
    exact ⟨hwords, ((Prod.mk.inj (Except.ok.inj h)).2).symm⟩
  · cases h

lemma hasWords_of_acceptWord {w : String} {c c' : Cursor} {b : Bool}
    (h : acceptWord w c = .ok (b, c')) :
    b = true ∧ c.hasWords [w] = true ∧ c' = c.move 1 ∨ b = false ∧ c' = c := by
  rw [acceptWord, acceptWords] at h
  split at h <;> rename_i hwords <;> obtain ⟨rfl, rfl⟩ := Prod.mk.inj (Except.ok.inj h)
  · exact .inl ⟨rfl, hwords, rfl⟩
  · exact .inr ⟨rfl, rfl⟩

lemma kindAt_of_createTable {real : FloatSize} {c c' : Cursor} {t : Table}
    (h : createTable real c = .ok (t, c')) : Statement.kindAt c = .table := by
  obtain ⟨⟨⟩, c₁, hcreate, h⟩ := exists_of_bind h
  obtain ⟨temporary, c₂, htemporary, h⟩ := exists_of_bind h
  obtain ⟨⟨⟩, c₃, htable, -⟩ := exists_of_bind h
  obtain ⟨hfirst, rfl⟩ := hasWords_of_keyword hcreate
  obtain ⟨hlast, -⟩ := hasWords_of_keyword htable
  refine if_pos ?_
  rw [Bool.or_eq_true]
  obtain ⟨-, hmiddle, rfl⟩ | ⟨-, rfl⟩ := hasWords_of_acceptWord htemporary
  · have hwords : c.hasWords (["CREATE"] ++ (["TEMPORARY"] ++ ["TABLE"])) = true := by
      rw [Cursor.hasWords_append, hfirst, Bool.true_and, Cursor.hasWords_append, Bool.and_eq_true]
      exact ⟨hmiddle, hlast⟩
    exact .inr hwords
  · have hwords : c.hasWords (["CREATE"] ++ ["TABLE"]) = true := by
      rw [Cursor.hasWords_append, hfirst, Bool.true_and]
      exact hlast
    exact .inl hwords

theorem Table.Grammatical.read_sql {t : Table} (h : t.Grammatical)
    (hnames : ∀ n ∈ t.names, BareNameIsWord n) (hvalues : ∀ v ∈ t.values, IsValue v)
    (hplain : ∀ s ∈ t.texts, OpensNoLine s.toList) (real : FloatSize) :
    Statement.read real t.sql = .table t := by
  obtain ⟨c', hok, -⟩ := h.takes hnames hvalues hplain real _ (Cursor.at_ofText t.sql)
  simp only [Statement.read, kindAt_of_createTable hok, Statement.outcome, hok]

end SchemaDrift
