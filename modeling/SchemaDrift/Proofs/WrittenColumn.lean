import Mathlib
import SchemaDrift.Grammar.Table
import SchemaDrift.Proofs.OptionReplay
import SchemaDrift.Proofs.WrittenConstraint
import SchemaDrift.Proofs.WrittenType

/-!
Columns as they are written. The encoding of a column's type is written as attributes of the column,
and each attribute is read by itself, whatever stands behind it.
-/

namespace SchemaDrift

open Parse Grammar

/-! ### Defaults -/

/-- The grammar has such defaults. What is said of an expression holds of those that open no line
comment. -/
def DefaultValue.Grammatical : DefaultValue → Prop
  | null | value _ => True
  | now fraction => fraction ≤ Text.max32
  | literal text => ∀ rest, Neutral rest → Lexes (text.toList ++ rest) (.literal text) rest
  | expression text => OpensNoLine text.toList → IsGroup text

/-- The texts in the default that are kept as written. -/
def DefaultValue.texts : DefaultValue → List String
  | expression text => [text]
  | _ => []

section

variable {cs rest : List Char}

lemma takes_momentDigits {fraction : Nat} (h : fraction ≤ Text.max32)
    (hrest : firstLexeme rest ≠ .openParen) : Takes momentDigits
      ((if fraction = 0 then "" else "(" ++ Text.decimal fraction ++ ")").toList ++ rest)
      fraction rest := by
  by_cases hzero : fraction = 0
  · rw [if_pos hzero, hzero]
    refine .bind (.accept_other hrest) ?_
    rw [if_neg nofun]
    exact .pure 0 rest
  · have htext : ("(" ++ Text.decimal fraction ++ ")").toList ++ rest =
        '(' :: ((Text.decimal fraction).toList ++ ')' :: rest) := by simp
    have hnumber := lexes_decimal fraction (neutral_cons (c := ')') (by decide) rest)
    rw [if_neg hzero, htext]
    refine .bind (.accept (.punctuation rfl _)) ?_
    rw [if_pos rfl]
    refine .bind (.next _) ?_
    rw [hnumber.first]
    refine .bind (.number h (neutral_cons (by decide) _) _) ?_
    exact .bind (.expect (.punctuation rfl _) _) (.pure _ rest)

lemma takes_currentMoment {fraction : Nat} (h : fraction ≤ Text.max32) (hneutral : Neutral rest)
    (hrest : firstLexeme rest ≠ .openParen) :
    Takes defaultValue (' ' :: ((currentMoment fraction).toList ++ rest)) (.now fraction) rest := by
  have htext : ' ' :: ((currentMoment fraction).toList ++ rest) = ' ' ::
      ("CURRENT_TIMESTAMP".toList ++
        ((if fraction = 0 then "" else "(" ++ Text.decimal fraction ++ ")").toList ++ rest)) := by
    simp [currentMoment]
  have hdigits : Neutral
      ((if fraction = 0 then "" else "(" ++ Text.decimal fraction ++ ")").toList ++ rest) := by
    by_cases hzero : fraction = 0
    · rw [if_pos hzero]
      exact hneutral
    · have hopen : ("(" ++ Text.decimal fraction ++ ")").toList ++ rest =
          '(' :: ((Text.decimal fraction).toList ++ ')' :: rest) := by simp
      rw [if_neg hzero, hopen]
      exact neutral_cons (by decide) _
  have hword := (Lexes.word (w := "CURRENT_TIMESTAMP") (by decide) hdigits).space
  have hupper : Text.upper "CURRENT_TIMESTAMP" = "CURRENT_TIMESTAMP" := by decide
  rw [htext]
  refine .bind (.next _) ?_
  rw [hword.first]
  simp only [wordDefault, hupper]
  exact .bind (.advance hword) (.bind (takes_momentDigits h hrest) (.pure _ rest))

theorem DefaultValue.Grammatical.takes {d : DefaultValue} (h : d.Grammatical)
    (hplain : ∀ s ∈ d.texts, OpensNoLine s.toList) (hneutral : Neutral rest)
    (hrest : firstLexeme rest ≠ .openParen) :
    Takes defaultValue (' ' :: (d.sql.toList ++ rest)) d rest := by
  cases d with
  | null =>
    have hword := (Lexes.word (w := "NULL") (by decide) hneutral).space
    have hupper : Text.upper "NULL" = "NULL" := by decide
    refine .bind (.next _) ?_
    rw [DefaultValue.sql, hword.first]
    simp only [wordDefault, hupper]
    exact .bind (.advance hword) (.pure _ rest)
  | value text =>
    have hstring := (lexes_string text hneutral.not_quote).space
    refine .bind (.next _) ?_
    rw [DefaultValue.sql, hstring.first]
    exact .bind (.advance hstring) (.pure _ rest)
  | now fraction => exact takes_currentMoment h hneutral hrest
  | literal text =>
    have hliteral := (h rest hneutral).space
    refine .bind (.next _) ?_
    rw [DefaultValue.sql, hliteral.first]
    exact .bind (.advance hliteral) (.pure _ rest)
  | expression text =>
    have htext : ' ' :: ((DefaultValue.expression text).sql.toList ++ rest) =
        ' ' :: '(' :: (text.toList ++ ')' :: rest) := by simp [DefaultValue.sql]
    rw [htext]
    have hopen : Lexes (' ' :: '(' :: (text.toList ++ ')' :: rest)) .openParen
        (text.toList ++ ')' :: rest) := (Lexes.punctuation rfl _).space
    refine .bind (.next _) ?_
    rw [hopen.first]
    have hgroup : IsGroup text := h (hplain text (by simp [DefaultValue.texts]))
    exact .bind (hgroup.takes hopen) (.pure _ rest)

end

/-! ### Attributes -/

/-- The words that open the attributes of a written column. -/
def attributeWords : List String :=
  ["CHARACTER", "COLLATE", "NOT", "DEFAULT", "ON", "AUTO_INCREMENT", "COMMENT"]

/-- The text goes on with an attribute, or a definition ends before it. -/
structure GoesOn (rest : List Char) : Prop where
  neutral : Neutral rest
  first : firstLexeme rest ∈ definitionEnds ∨ ∃ w ∈ attributeWords, firstLexeme rest = .word w

lemma GoesOn.endsType {rest : List Char} (h : GoesOn rest) : EndsType rest := by
  have hwords : ∀ w ∈ attributeWords, ∀ v ∈ ["PRECISION", "UNSIGNED", "SIGNED", "ZEROFILL"],
      (Lexeme.word w).isWord v = false := by decide
  have hends : ∀ l ∈ definitionEnds, l ≠ .openParen ∧
      ∀ v ∈ ["PRECISION", "UNSIGNED", "SIGNED", "ZEROFILL"], l.isWord v = false := by decide
  rcases h.first with hend | ⟨w, hw, hfirst⟩
  · exact ⟨h.neutral, (hends _ hend).1, (hends _ hend).2⟩
  · exact ⟨h.neutral, by rw [hfirst]; nofun, fun v hv => by rw [hfirst]; exact hwords w hw v hv⟩

/-- From the draft `d` on, the attributes at the start of `cs` give `d'` and leave `rest`. -/
structure Attributes (d : ColumnDraft) (cs : List Char) (d' : ColumnDraft) (rest : List Char) :
    Prop where
  goesOn : GoesOn cs
  takes : Takes (repeated nextAttribute d) cs d' rest

namespace Attributes

variable {d d₁ d' : ColumnDraft} {cs mid rest : List Char}

lemma nil (d : ColumnDraft) (h : Neutral rest) (hend : firstLexeme rest ∈ definitionEnds) :
    Attributes d rest d rest := by
  refine ⟨⟨h, .inl hend⟩, .repeated_last (.bind (.next rest) ?_)⟩
  simp only [definitionEnds, List.mem_cons, List.not_mem_nil, or_false] at hend
  rcases hend with hend | hend | hend <;> rw [hend] <;> exact .pure none rest

lemma cons {w : String} (hw : w ∈ attributeWords) (hcs : Neutral cs)
    (hword : Lexes cs (.word w) mid) {next : List Char}
    (hattribute : Takes (columnAttribute d w) cs d₁ next) (hlen : next.length < cs.length)
    (h : Attributes d₁ next d' rest) : Attributes d cs d' rest := by
  have hupper : ∀ w ∈ attributeWords, Text.upper w = w := by decide
  refine ⟨⟨hcs, .inr ⟨w, hw, hword.first⟩⟩, .repeated_cons ?_ hlen h.takes⟩
  refine .bind (.next cs) ?_
  rw [hword.first]
  refine .bind (.upperWord? cs) ?_
  rw [hword.first, Lexeme.upperWord?, hupper w hw]
  exact .bind hattribute (.pure _ _)

lemma charset {name : String} (hname : IsValue name) (hcanonical : Charset.canonical name = name)
    (h : Attributes { d with charset? := some name } cs d' rest) :
    Attributes d ((" CHARACTER SET " ++ name).toList ++ cs) d' rest := by
  have htext : (" CHARACTER SET " ++ name).toList ++ cs =
      " CHARACTER SET".toList ++ ' ' :: (name.toList ++ cs) := by simp
  rw [htext]
  obtain ⟨l, hlexes, hl⟩ := hname.lexes h.goesOn.neutral
  obtain ⟨hrun, hneutral⟩ := lexRun_words " CHARACTER SET" ["CHARACTER", "SET"] rfl (by decide)
    (neutral_space (name.toList ++ cs))
  obtain _ | ⟨hcharacter, _ | ⟨hset, hnil⟩⟩ := hrun
  cases hnil
  refine cons (by decide) (hneutral (by simp)) hcharacter ?_ ?_ h
  · refine .bind (.advance hcharacter) (.bind (.keyword hset (by decide)) ?_)
    refine .bind (.map _ (.value hlexes.space (.inl hl) _)) ?_
    rw [hcanonical]
    exact .pure _ _
  · exact hlexes.space.length_lt.trans (hset.length_lt.trans hcharacter.length_lt)

lemma collate {name : String} (hname : IsValue name)
    (hcanonical : Charset.canonicalCollation name = name)
    (h : Attributes { d with collation? := some name } cs d' rest) :
    Attributes d ((" COLLATE " ++ name).toList ++ cs) d' rest := by
  obtain ⟨l, hlexes, hl⟩ := hname.lexes h.goesOn.neutral
  obtain ⟨hcollate, hneutral⟩ := lexes_clause " COLLATE " "COLLATE" rfl (by decide) name cs
  refine cons (by decide) hneutral hcollate ?_ ?_ h
  · refine .bind (.advance hcollate) (.bind (.value hlexes.space (.inl hl) _) ?_)
    rw [hcanonical]
    exact .pure _ _
  · exact hlexes.space.length_lt.trans hcollate.length_lt

lemma nullable {nullable : Bool} (hd : d.column.nullable = true)
    (h : Attributes { d with column.nullable := nullable } cs d' rest) :
    Attributes d ((if nullable then "" else " NOT NULL").toList ++ cs) d' rest := by
  rcases nullable with _ | _
  · obtain ⟨hrun, hneutral⟩ := lexRun_words " NOT NULL" ["NOT", "NULL"] rfl (by decide)
      h.goesOn.neutral
    obtain _ | ⟨hnot, _ | ⟨hnull, hnil⟩⟩ := hrun
    cases hnil
    refine cons (by decide) (hneutral (by simp)) hnot ?_ (hnull.length_lt.trans hnot.length_lt) h
    exact .bind (.advance hnot) (.bind (.keyword hnull (by decide)) (.pure _ _))
  · rwa [← hd] at h

lemma autoIncrement {autoIncrement : Bool} (hd : d.column.autoIncrement = false)
    (h : Attributes { d with column.autoIncrement := autoIncrement } cs d' rest) :
    Attributes d ((if autoIncrement then " AUTO_INCREMENT" else "").toList ++ cs) d' rest := by
  rcases autoIncrement with _ | _
  · rwa [← hd] at h
  · obtain ⟨hword, hneutral⟩ := lexes_spaced " AUTO_INCREMENT" "AUTO_INCREMENT" rfl (by decide)
      h.goesOn.neutral
    exact cons (by decide) hneutral hword (.bind (.advance hword) (.pure _ _)) hword.length_lt h

lemma comment {text? : Option String} (hd : d.column.comment? = none)
    (h : Attributes { d with column.comment? := text? } cs d' rest) :
    Attributes d ((text?.elim "" (" COMMENT " ++ Sql.string ·)).toList ++ cs) d' rest := by
  rcases text? with _ | text
  · rwa [← hd] at h
  · have hstring := (lexes_string text h.goesOn.neutral.not_quote).space
    obtain ⟨hword, hneutral⟩ :=
      lexes_clause " COMMENT " "COMMENT" rfl (by decide) (Sql.string text) cs
    refine cons (by decide) hneutral hword ?_ (hstring.length_lt.trans hword.length_lt) h
    exact .bind (.advance hword) (.bind (.string hstring _) (.pure _ _))

lemma default {value? : Option DefaultValue} (hd : d.column.default? = none)
    (hvalue : ∀ v ∈ value?, v.Grammatical ∧ ∀ s ∈ v.texts, OpensNoLine s.toList)
    (h : Attributes { d with column.default? := value? } cs d' rest) :
    Attributes d ((value?.elim "" (" DEFAULT " ++ ·.sql)).toList ++ cs) d' rest := by
  rcases value? with _ | value
  · rwa [← hd] at h
  · obtain ⟨hgrammatical, hplain⟩ := hvalue value rfl
    obtain ⟨hword, hneutral⟩ := lexes_clause " DEFAULT " "DEFAULT" rfl (by decide) value.sql cs
    refine cons (by decide) hneutral hword ?_ ?_ h
    · have htakes := hgrammatical.takes hplain h.goesOn.neutral h.goesOn.endsType.not_open
      exact .bind (.advance hword) (.bind htakes (.pure _ _))
    · refine lt_of_le_of_lt ?_ hword.length_lt
      simp
      omega

lemma onUpdate {fraction? : Option Nat} (hd : d.column.onUpdate? = none)
    (hfraction : ∀ n ∈ fraction?, n ≤ Text.max32)
    (h : Attributes { d with column.onUpdate? := fraction? } cs d' rest) :
    Attributes d ((fraction?.elim "" (" ON UPDATE " ++ currentMoment ·)).toList ++ cs) d' rest := by
  rcases fraction? with _ | fraction
  · rwa [← hd] at h
  · have htext : (" ON UPDATE " ++ currentMoment fraction).toList ++ cs =
        " ON UPDATE".toList ++ ' ' :: ((currentMoment fraction).toList ++ cs) := by simp
    rw [Option.elim_some, htext]
    obtain ⟨hrun, hneutral⟩ := lexRun_words " ON UPDATE" ["ON", "UPDATE"] rfl (by decide)
      (neutral_space ((currentMoment fraction).toList ++ cs))
    obtain _ | ⟨hon, _ | ⟨hupdate, hnil⟩⟩ := hrun
    cases hnil
    have hmoment := takes_currentMoment (hfraction fraction rfl) h.goesOn.neutral
      h.goesOn.endsType.not_open
    refine cons (by decide) (hneutral (by simp)) hon ?_ ?_ h
    · refine .bind (.advance hon) (.bind (.keyword hupdate (by decide)) (.bind hmoment ?_))
      exact .pure _ _
    · refine lt_of_le_of_lt ?_ (hupdate.length_lt.trans hon.length_lt)
      simp
      omega

end Attributes

/-! ### Columns -/

def Encoding.names (e : Encoding) : List String := e.charset.toList ++ e.collation.toList

structure Encoding.Canonical (e : Encoding) : Prop where
  charset : ∀ n ∈ e.charset, Charset.canonical n = n
  collation : ∀ n ∈ e.collation, Charset.canonicalCollation n = n

/-- The grammar has such columns. -/
structure Column.Grammatical (c : Column) : Prop where
  type : c.type.Allowed
  encoding : ∀ e ∈ c.type.encoding?, e.Canonical
  default : ∀ d ∈ c.default?, d.Grammatical
  onUpdate : ∀ n ∈ c.onUpdate?, n ≤ Text.max32

/-- The names of character sets and collations. -/
def Column.values (c : Column) : List String := c.type.encoding?.toList.flatMap Encoding.names

/-- The texts in the definition that are kept as written. -/
def Column.texts (c : Column) : List String := c.default?.toList.flatMap DefaultValue.texts

/-- The column by its definition alone, without its place in the table. -/
def Column.unplaced (c : Column) : Column := { c with ordinal := 0, place := .first }

lemma ColumnType.sql_eq (t : ColumnType) :
    t.sql = (t.withEncoding .none).sql ++ (t.encoding?.getD .none).sql := by
  have hname : (t.withEncoding .none).name = t.name := by
    cases t with
    | string padded content length e => cases padded <;> cases content <;> rfl
    | _ => rfl
  have harguments : t.arguments =
      (t.withEncoding .none).arguments ++ (t.encoding?.getD .none).sql := by
    cases t <;> simp [arguments, withEncoding, encoding?, Encoding.sql, Encoding.none,
      String.append_assoc]
  rw [sql, sql, hname, harguments, String.append_assoc]

lemma ColumnType.Allowed.withEncoding {t : ColumnType} (h : t.Allowed) :
    (t.withEncoding .none).Allowed := by
  cases t with
  | string padded content length e => exact ⟨h.1, fun _ => rfl⟩
  | lob size content e => exact fun _ => rfl
  | _ => exact h

lemma ColumnType.encoding?_withEncoding (t : ColumnType) :
    ∀ e ∈ (t.withEncoding .none).encoding?, e = .none := by
  cases t <;> simp [ColumnType.withEncoding, encoding?]

/-- What follows a column's type. -/
def Column.tail (c : Column) : String :=
  (if c.nullable then "" else " NOT NULL") ++ c.default?.elim "" (" DEFAULT " ++ ·.sql) ++
    c.onUpdate?.elim "" (" ON UPDATE " ++ currentMoment ·) ++
    (if c.autoIncrement then " AUTO_INCREMENT" else "") ++
    c.comment?.elim "" (" COMMENT " ++ Sql.string ·)

lemma Column.sql_eq (c : Column) : c.sql = Sql.name c.name ++ " " ++
    (c.type.withEncoding .none).sql ++ (c.type.encoding?.getD .none).sql ++ c.tail := by
  obtain ⟨name, type, nullable, default?, autoIncrement, comment?, onUpdate?, ordinal, place⟩ := c
  rw [Column.sql, ColumnType.sql_eq]
  rcases default? with _ | _ <;> rcases onUpdate? with _ | _ <;> rcases comment? with _ | _ <;>
    simp [tail, String.append_assoc]

def Column.draft (c : Column) : ColumnDraft :=
  ⟨{ c.unplaced with type := c.type.withEncoding .none }, (c.type.encoding?.getD .none).charset,
    (c.type.encoding?.getD .none).collation, [], []⟩

namespace Attributes

variable {d d' : ColumnDraft} {cs rest : List Char}

lemma encoding {e : Encoding} (he : e.Canonical) (hnames : ∀ n ∈ e.names, IsValue n)
    (hcharset : d.charset? = none)
    (hcollation : d.collation? = none)
    (h : Attributes { d with charset? := e.charset, collation? := e.collation } cs d' rest) :
    Attributes d (e.sql.toList ++ cs) d' rest := by
  obtain ⟨charset?, collation?⟩ := e
  obtain ⟨column, _, _, keys, constraints⟩ := d
  simp only at hcharset hcollation
  subst hcharset hcollation
  have hsql : Encoding.sql ⟨charset?, collation?⟩ =
      charset?.elim "" (" CHARACTER SET " ++ ·) ++ collation?.elim "" (" COLLATE " ++ ·) := by
    rcases charset? with _ | _ <;> rcases collation? with _ | _ <;> rfl
  have hcollate : Attributes ⟨column, charset?, none, keys, constraints⟩
      ((collation?.elim "" (" COLLATE " ++ ·)).toList ++ cs) d' rest := by
    rcases collation? with _ | n
    · exact h
    · exact .collate (hnames n (by simp [Encoding.names])) (he.collation n rfl) h
  rw [hsql, String.toList_append, List.append_assoc]
  rcases charset? with _ | n
  · exact hcollate
  · exact .charset (hnames n (by simp [Encoding.names])) (he.charset n rfl) hcollate

lemma tail {c : Column} (h : c.Grammatical) (hplain : ∀ s ∈ c.texts, OpensNoLine s.toList)
    (hd : d.column = .ofType c.name (c.type.withEncoding .none))
    (hneutral : Neutral rest) (hrest : firstLexeme rest ∈ definitionEnds) :
    Attributes d (c.tail.toList ++ rest)
      { d with column := { c.unplaced with type := c.type.withEncoding .none } } rest := by
  obtain ⟨-, -, hdefault, honUpdate⟩ := h
  obtain ⟨column, charset?, collation?, keys, constraints⟩ := d
  obtain ⟨name, type, isNullable, default?, increments, comment?, onUpdate?, ordinal, place⟩ := c
  simp only at hd
  subst hd
  have hnil := nil ⟨⟨name, type.withEncoding .none, isNullable, default?, increments, comment?,
    onUpdate?, 0, .first⟩, charset?, collation?, keys, constraints⟩ hneutral hrest
  have hvalue : ∀ v ∈ default?, v.Grammatical ∧ ∀ s ∈ v.texts, OpensNoLine s.toList := by
    rintro v rfl
    exact ⟨hdefault v rfl, fun s hs => hplain s (by simpa [Column.texts] using hs)⟩
  simp only [Column.tail, String.toList_append, List.append_assoc]
  exact .nullable rfl (.default rfl hvalue (.onUpdate rfl honUpdate (.autoIncrement rfl
    (.comment rfl hnil))))

lemma draft {c : Column} (h : c.Grammatical) (hvalues : ∀ v ∈ c.values, IsValue v)
    (hplain : ∀ s ∈ c.texts, OpensNoLine s.toList) (hneutral : Neutral rest)
    (hrest : firstLexeme rest ∈ definitionEnds) :
    Attributes (.ofColumn (.ofType c.name (c.type.withEncoding .none)))
      ((c.type.encoding?.getD .none).sql.toList ++ (c.tail.toList ++ rest)) c.draft rest := by
  have hcanonical : (c.type.encoding?.getD .none).Canonical := by
    rcases he : c.type.encoding? with _ | e
    · exact ⟨by simp [Encoding.none], by simp [Encoding.none]⟩
    · exact h.encoding e he
  have hnames : ∀ n ∈ (c.type.encoding?.getD .none).names, IsValue n := by
    rcases he : c.type.encoding? with _ | e
    · simp [Encoding.none, Encoding.names]
    · exact fun n hn => hvalues n (by simpa [Column.values, he] using hn)
  exact .encoding hcanonical hnames rfl rfl (.tail h hplain rfl hneutral hrest)

end Attributes

namespace Column

lemma draft_type {c : Column} (h : c.type.Allowed) :
    (c.draft.namesEncoding && !c.draft.column.type.isTextual) = false ∧
    (if c.draft.namesEncoding then { c.draft.column with type := c.draft.encodedType }
      else c.draft.column) = c.unplaced := by
  obtain ⟨name, type, nullable, default?, autoIncrement, comment?, onUpdate?, ordinal, place⟩ := c
  cases type with
  | string padded content length e =>
    obtain ⟨charset?, collation?⟩ := e
    cases content with
    | text => rcases charset? with _ | _ <;> rcases collation? with _ | _ <;> exact ⟨rfl, rfl⟩
    | bytes =>
      cases h.2 rfl
      exact ⟨rfl, rfl⟩
  | lob size content e =>
    obtain ⟨charset?, collation?⟩ := e
    cases content with
    | text => rcases charset? with _ | _ <;> rcases collation? with _ | _ <;> exact ⟨rfl, rfl⟩
    | bytes =>
      cases h rfl
      exact ⟨rfl, rfl⟩
  | choice kind members e =>
    obtain ⟨charset?, collation?⟩ := e
    rcases charset? with _ | _ <;> rcases collation? with _ | _ <;> exact ⟨rfl, rfl⟩
  | _ => exact ⟨rfl, rfl⟩

theorem Grammatical.takes {c : Column} (h : c.Grammatical) (hname : BareNameIsWord c.name)
    (hvalues : ∀ v ∈ c.values, IsValue v) (hplain : ∀ s ∈ c.texts, OpensNoLine s.toList)
    (real : FloatSize) (t : Table) {b rest : List Char} (hb : ∀ d ∈ b, Text.isBlank d = true)
    (hneutral : Neutral rest) (hrest : firstLexeme rest ∈ definitionEnds) :
    Takes (definition real t) (b ++ (c.sql.toList ++ rest))
      { t with columns := t.columns ++ [c.unplaced] } rest := by
  have hattributes := Attributes.draft h hvalues hplain hneutral hrest
  have htype := takes_type real h.type.withEncoding c.type.encoding?_withEncoding
    hattributes.goesOn.endsType
  have htext : c.sql.toList ++ rest = (Sql.name c.name).toList ++
      ' ' :: ((c.type.withEncoding .none).sql.toList ++
        ((c.type.encoding?.getD .none).sql.toList ++ (c.tail.toList ++ rest))) := by
    simp [sql_eq]
  rw [htext]
  set more := (c.type.withEncoding .none).sql.toList ++
    ((c.type.encoding?.getD .none).sql.toList ++ (c.tail.toList ++ rest))
  have htoken := (lexes_name hname fun d hd => .inl (neutral_space more d hd)).blanks hb
  have hcolumn : Takes (column real t) (b ++ ((Sql.name c.name).toList ++ ' ' :: more))
      { t with columns := t.columns ++ [c.unplaced] } rest := by
    refine .bind (.name htoken _) (.bind htype (.bind hattributes.takes ?_))
    obtain ⟨htextual, hsame⟩ := draft_type h.type
    rw [htextual, if_neg (by simp), hsame]
    simpa [draft] using Takes.pure { t with columns := t.columns ++ [c.unplaced] } rest
  refine .get_bind fun start _ => .bind (.upperWord? _) ?_
  rw [htoken.first]
  have hword : ∀ w ∈ Sql.reserved, (nameLexeme c.name).upperWord? ≠ some w :=
    fun w hw => nameLexeme_upperWord? hw
  split
  case h_10 => exact hcolumn
  all_goals exact absurd ‹_› (hword _ (by decide))

end Column

end SchemaDrift
