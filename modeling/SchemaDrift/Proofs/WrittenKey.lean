import Mathlib
import SchemaDrift.Proofs.WrittenColumn

/-!
Keys as they are written. The words of a key's kind open its definition; a name, the parts in
parentheses and two attributes follow.
-/

namespace SchemaDrift

open Parse Grammar

/-! ### Parts -/

lemma nameLexeme_ne_openParen (n : String) : nameLexeme n ≠ .openParen := by
  unfold nameLexeme
  split <;> simp

structure KeyPart.Grammatical (p : KeyPart) : Prop where
  length : ∀ n ∈ p.length?, n ≤ Text.max32
  expression : p.isExpression = true →
    p.length? = none ∧ (OpensNoLine p.name.toList → IsGroup p.name)

def KeyPart.names (p : KeyPart) : List String := if p.isExpression then [] else [p.name]

def KeyPart.texts (p : KeyPart) : List String := if p.isExpression then [p.name] else []

section

variable {b rest : List Char} {p : KeyPart}

lemma takes_descending (hneutral : Neutral rest) (hrest : firstLexeme rest ∈ definitionEnds)
    (d : Bool) : Neutral ((if d then " DESC" else "").toList ++ rest) ∧
    firstLexeme ((if d then " DESC" else "").toList ++ rest) ≠ .openParen ∧
    ∀ q : KeyPart, q.descending = false → Takes (do
        if ← acceptWord "DESC" then return { q with descending := true }
        else
          let _ ← acceptWord "ASC"
          return q) ((if d then " DESC" else "").toList ++ rest) { q with descending := d }
      rest := by
  have hends : ∀ l ∈ definitionEnds, l ≠ .openParen ∧ l.isWord "DESC" = false ∧
      l.isWord "ASC" = false := by decide
  obtain ⟨hopen, hdesc, hasc⟩ := hends _ hrest
  rcases d with _ | _
  · refine ⟨hneutral, hopen, fun q hq => ?_⟩
    refine .bind (.acceptWord_other hdesc) ?_
    rw [if_neg (by simp)]
    refine .bind (.acceptWord_other hasc) ?_
    have hsame : { q with descending := false } = q := by rw [← hq]
    rw [hsame]
    exact .pure q rest
  · obtain ⟨hword, hstart⟩ := lexes_spaced " DESC" "DESC" rfl (by decide) hneutral
    refine ⟨hstart, ?_, fun q hq => ?_⟩
    · rw [if_pos rfl, hword.first]
      simp
    · refine .bind (.acceptWord hword (by decide)) ?_
      rw [if_pos rfl]
      exact .pure _ rest

lemma KeyPart.Grammatical.takes (h : p.Grammatical) (hname : ∀ n ∈ p.names, BareNameIsWord n)
    (hplain : ∀ s ∈ p.texts, OpensNoLine s.toList) (hb : ∀ d ∈ b, Text.isBlank d = true)
    (hneutral : Neutral rest) (hrest : firstLexeme rest ∈ definitionEnds) :
    Takes keyPart (b ++ (p.sql.toList ++ rest)) p rest := by
  obtain ⟨hlength, hexpression⟩ := h
  obtain ⟨name, isExpression, length?, descending⟩ := p
  obtain ⟨hneutral', hopen, hdirection⟩ := takes_descending hneutral hrest descending
  set direction := (if descending then " DESC" else "").toList ++ rest with hdir
  rcases isExpression with _ | _
  · have htext : (KeyPart.sql ⟨name, false, length?, descending⟩).toList ++ rest =
        (Sql.name name).toList ++ ((ColumnType.argument length?).toList ++ direction) := by
      rcases length? with _ | n <;> simp [KeyPart.sql, ColumnType.argument, hdir]
    have hargument : Neutral ((ColumnType.argument length?).toList ++ direction) :=
      neutral_argument hneutral'
    have htoken := (lexes_name (hname name (by simp [KeyPart.names]))
      fun d hd => .inl (hargument d hd)).blanks hb
    rw [htext]
    refine .bind (.next _) ?_
    rw [htoken.first, if_neg (nameLexeme_ne_openParen name)]
    refine .bind (.name htoken _) (.bind (takes_optionalNumber hlength hopen) ?_)
    exact .bind (.pure _ _) (hdirection _ rfl)
  · obtain ⟨rfl, hgroup⟩ := hexpression rfl
    have htext : (KeyPart.sql ⟨name, true, none, descending⟩).toList ++ rest =
        '(' :: (name.toList ++ ')' :: direction) := by simp [KeyPart.sql, hdir]
    have hparen : Lexes (b ++ '(' :: (name.toList ++ ')' :: direction)) .openParen
        (name.toList ++ ')' :: direction) := (Lexes.punctuation rfl _).blanks hb
    rw [htext]
    refine .bind (.next _) ?_
    rw [hparen.first, if_pos rfl]
    have hname : IsGroup name := hgroup (hplain name (by simp [KeyPart.texts]))
    refine .bind (hname.takes hparen) ?_
    exact .bind (.pure _ _) (hdirection _ rfl)

lemma takes_parts {p : KeyPart} {ps : List KeyPart} (h : ∀ q ∈ p :: ps, q.Grammatical)
    (hnames : ∀ q ∈ p :: ps, ∀ n ∈ q.names, BareNameIsWord n)
    (hplain : ∀ q ∈ p :: ps, ∀ s ∈ q.texts, OpensNoLine s.toList)
    (hb : ∀ d ∈ b, Text.isBlank d = true) : Takes (separated keyPart)
      (b ++ ((Text.joined ", " ((p :: ps).map KeyPart.sql)).toList ++ ')' :: rest)) (p :: ps)
      (')' :: rest) := by
  have hclose : firstLexeme (')' :: rest) = .closeParen := (Lexes.punctuation rfl rest).first
  induction ps generalizing p b with
  | nil =>
    have hp := (h p (by simp)).takes (hnames p (by simp)) (hplain p (by simp)) hb
      (neutral_cons (c := ')') (by decide) rest) (by rw [hclose]; decide)
    refine .separated_last hp ?_
    rw [hclose]
    simp
  | cons q ps ih =>
    have htail := ih (fun r hr => h r (.tail _ hr)) (fun r hr => hnames r (.tail _ hr))
      (fun r hr => hplain r (.tail _ hr)) (b := [' ']) (by simp; decide)
    have htext : (Text.joined ", " ((p :: q :: ps).map KeyPart.sql)).toList ++ ')' :: rest =
        p.sql.toList ++ ',' :: ([' '] ++
          ((Text.joined ", " ((q :: ps).map KeyPart.sql)).toList ++ ')' :: rest)) := by
      simp [Text.joined]
    rw [htext]
    set more := [' '] ++ ((Text.joined ", " ((q :: ps).map KeyPart.sql)).toList ++ ')' :: rest)
    have hcomma : Lexes (',' :: more) .comma more := .punctuation rfl more
    have hp := (h p (by simp)).takes (hnames p (by simp)) (hplain p (by simp)) hb
      (neutral_cons (c := ',') (by decide) more) (by rw [hcomma.first]; decide)
    refine .separated_cons hp hcomma ?_ htail
    simp
    omega

end

/-! ### Kinds -/

/-- The word that opens a key of the kind. -/
def KeyKind.opening : KeyKind → String
  | primary => "PRIMARY"
  | unique => "UNIQUE"
  | plain => "KEY"
  | fulltext => "FULLTEXT"
  | spatial => "SPATIAL"

section

variable {b rest : List Char} {kind : KeyKind}

lemma lexes_opening (kind : KeyKind) (hb : ∀ d ∈ b, Text.isBlank d = true) (hrest : Neutral rest) :
    ∃ mid, Lexes (b ++ (kind.sql.toList ++ rest)) (.word kind.opening) mid ∧
      if kind = .plain then mid = rest else Lexes mid (.word "KEY") rest := by
  obtain ⟨hkey, hneutral⟩ := lexes_spaced " KEY" "KEY" rfl (by decide) hrest
  have hword (w : String) (hw : isPlainWord w = true) :
      Lexes (b ++ (w.toList ++ (" KEY".toList ++ rest))) (.word w) (" KEY".toList ++ rest) :=
    (Lexes.word hw hneutral).blanks hb
  cases kind with
  | plain => exact ⟨rest, (Lexes.word (w := "KEY") (by decide) hrest).blanks hb, rfl⟩
  | primary => exact ⟨_, hword "PRIMARY" (by decide), hkey⟩
  | unique => exact ⟨_, hword "UNIQUE" (by decide), hkey⟩
  | fulltext => exact ⟨_, hword "FULLTEXT" (by decide), hkey⟩
  | spatial => exact ⟨_, hword "SPATIAL" (by decide), hkey⟩

lemma takes_keyKind (hb : ∀ d ∈ b, Text.isBlank d = true) (hrest : Neutral rest) :
    Takes keyKind (b ++ (kind.sql.toList ++ rest)) kind rest := by
  obtain ⟨mid, hopening, hkey⟩ := lexes_opening kind hb hrest
  have haccept (hkey : Lexes mid (.word "KEY") rest) : Takes acceptKeyWord mid true rest := by
    refine .bind (.acceptWord hkey (by decide)) ?_
    rw [if_pos rfl]
    exact .pure true rest
  have hupper : Text.upper kind.opening = kind.opening := by cases kind <;> decide
  refine .bind (.upperWord? _) ?_
  rw [hopening.first, Lexeme.upperWord?, hupper]
  cases kind with
  | plain =>
    obtain rfl : mid = rest := hkey
    exact .bind (.advance hopening) (.pure _ _)
  | primary => exact .bind (.advance hopening) (.bind (.keyword hkey (by decide)) (.pure _ _))
  | unique => exact .bind (.advance hopening) (.bind (haccept hkey) (.pure _ _))
  | fulltext => exact .bind (.advance hopening) (.bind (haccept hkey) (.pure _ _))
  | spatial => exact .bind (.advance hopening) (.bind (haccept hkey) (.pure _ _))

end

/-! ### Attributes -/

/-- What follows the parts of a key. -/
def Key.tail (k : Key) : String :=
  k.method?.elim "" (" USING " ++ ·) ++ k.comment?.elim "" (" COMMENT " ++ Sql.string ·)

section

variable {k : Key} {rest : List Char}

lemma takes_keyAttributes_nil (hrest : firstLexeme rest ∈ definitionEnds) :
    Takes (repeated nextKeyAttribute k) rest k rest := by
  refine .repeated_last (.bind (.upperWord? _) ?_)
  rw [upperWord?_of_definitionEnds hrest]
  exact .pure none rest

lemma takes_keyComment (text? : Option String) (hk : k.comment? = none) (hneutral : Neutral rest)
    (hrest : firstLexeme rest ∈ definitionEnds) :
    Neutral ((text?.elim "" (" COMMENT " ++ Sql.string ·)).toList ++ rest) ∧
    Takes (repeated nextKeyAttribute k)
      ((text?.elim "" (" COMMENT " ++ Sql.string ·)).toList ++ rest) { k with comment? := text? }
      rest := by
  rcases text? with _ | text
  · have hsame : { k with comment? := none } = k := by rw [← hk]
    rw [hsame]
    exact ⟨hneutral, takes_keyAttributes_nil hrest⟩
  · have hstring := (lexes_string text hneutral.not_quote).space
    obtain ⟨hword, hstart⟩ :=
      lexes_clause " COMMENT " "COMMENT" rfl (by decide) (Sql.string text) rest
    have hupper : Text.upper "COMMENT" = "COMMENT" := by decide
    rw [Option.elim_some]
    refine ⟨hstart, .repeated_cons (.bind (.upperWord? _) ?_)
      (hstring.length_lt.trans hword.length_lt) (takes_keyAttributes_nil hrest)⟩
    rw [hword.first, Lexeme.upperWord?, hupper]
    exact .bind (.advance hword) (.bind (.string hstring _) (.pure _ _))

lemma takes_keyMethod {m : String} (hm : m = "BTREE" ∨ m = "HASH") (hneutral : Neutral rest) :
    Takes keyMethod (' ' :: (m.toList ++ rest)) m rest := by
  have hupper : Text.upper m = m ∧ isPlainWord m = true := by rcases hm with rfl | rfl <;> decide
  have hword := (Lexes.word hupper.2 hneutral).space
  refine .bind (.upperWord? _) ?_
  rw [hword.first, Lexeme.upperWord?, hupper.1]
  rcases hm with rfl | rfl <;> exact .bind (.advance hword) (.pure _ _)

lemma takes_keyTail (hk : ∀ m ∈ k.method?, m = "BTREE" ∨ m = "HASH") (hneutral : Neutral rest)
    (hrest : firstLexeme rest ∈ definitionEnds) :
    Takes (repeated nextKeyAttribute { k with method? := none, comment? := none })
      (k.tail.toList ++ rest) k rest := by
  obtain ⟨kind, name?, parts, method?, comment?⟩ := k
  rw [Key.tail, String.toList_append, List.append_assoc]
  rcases method? with _ | m
  · exact (takes_keyComment comment? rfl hneutral hrest).2
  · obtain ⟨hcomment, htakes⟩ :=
      takes_keyComment (k := ⟨kind, name?, parts, some m, none⟩) comment? rfl hneutral hrest
    rw [Option.elim_some]
    set more := (comment?.elim "" (" COMMENT " ++ Sql.string ·)).toList ++ rest
    have hword := (lexes_clause " USING " "USING" rfl (by decide) m more).1
    have hupper : Text.upper "USING" = "USING" := by decide
    refine .repeated_cons (.bind (.upperWord? _) ?_) ?_ htakes
    · rw [hword.first, Lexeme.upperWord?, hupper]
      exact .bind (.advance hword) (.bind (takes_keyMethod (hk m rfl) hcomment) (.pure _ _))
    · refine lt_of_le_of_lt ?_ hword.length_lt
      simp
      omega

end

/-! ### Keys -/

structure Key.Grammatical (k : Key) : Prop where
  name : k.kind = .primary → k.name? = none
  parts_ne : k.parts ≠ []
  parts : ∀ p ∈ k.parts, p.Grammatical
  method : ∀ m ∈ k.method?, m = "BTREE" ∨ m = "HASH"

namespace Key

def names (k : Key) : List String := k.name?.toList ++ k.parts.flatMap KeyPart.names

def texts (k : Key) : List String := k.parts.flatMap KeyPart.texts

def nameSql (k : Key) : String := k.name?.elim "" (Sql.name · ++ " ")

lemma sql_eq {k : Key} (h : k.Grammatical) : k.sql = k.kind.sql ++ " " ++ k.nameSql ++ "(" ++
    Text.joined ", " (k.parts.map KeyPart.sql) ++ ")" ++ k.tail := by
  obtain ⟨kind, name?, parts, method?, comment?⟩ := k
  have hname := h.name
  rcases name? with _ | n <;> rcases method? with _ | m <;> rcases comment? with _ | c <;>
    cases kind <;> simp [sql, nameSql, tail, String.append_assoc] at hname ⊢

lemma takes_keyName {k : Key} (h : k.Grammatical) (hname : ∀ n ∈ k.name?, BareNameIsWord n)
    (rest : List Char) : Takes (keyName? k.kind none) (' ' :: (k.nameSql.toList ++ '(' :: rest))
      k.name? (' ' :: '(' :: rest) := by
  have hopen : Lexes (' ' :: '(' :: rest) .openParen rest := (Lexes.punctuation rfl rest).space
  obtain ⟨kind, name?, parts, method?, comment?⟩ := k
  unfold keyName?
  by_cases hprimary : kind = .primary
  · obtain rfl : name? = none := h.name hprimary
    rw [if_pos hprimary]
    exact .pure none _
  · rw [if_neg hprimary]
    refine .bind (.next _) ?_
    rcases name? with _ | n
    · have hfirst : firstLexeme (' ' :: ((nameSql ⟨kind, none, parts, method?, comment?⟩).toList ++
          '(' :: rest)) = .openParen := hopen.first
      rw [if_pos hfirst]
      exact .pure none _
    · have htext : (nameSql ⟨kind, some n, parts, method?, comment?⟩).toList ++ '(' :: rest =
          (Sql.name n).toList ++ ' ' :: '(' :: rest := by simp [nameSql]
      have htoken := (lexes_name (hname n rfl)
        fun d hd => .inl (neutral_space ('(' :: rest) d hd)).space
      rw [htext, htoken.first, if_neg (nameLexeme_ne_openParen n)]
      refine .bind (.atWord _ _) ?_
      rw [htoken.first, nameLexeme_isWord (by decide), if_neg (by simp)]
      exact .bind (.name htoken _) (.pure _ _)

theorem Grammatical.takes {k : Key} (h : k.Grammatical) (hnames : ∀ n ∈ k.names, BareNameIsWord n)
    (hplain : ∀ s ∈ k.texts, OpensNoLine s.toList) (real : FloatSize) (t : Table)
    {b rest : List Char} (hb : ∀ d ∈ b, Text.isBlank d = true) (hneutral : Neutral rest)
    (hrest : firstLexeme rest ∈ definitionEnds) : Takes (definition real t)
      (b ++ (k.sql.toList ++ rest)) { t with keys := t.keys ++ [k] } rest := by
  obtain ⟨p, ps, hparts⟩ := List.exists_cons_of_ne_nil h.parts_ne
  have htext : k.sql.toList ++ rest = k.kind.sql.toList ++ ' ' :: (k.nameSql.toList ++ '(' ::
      ((Text.joined ", " ((p :: ps).map KeyPart.sql)).toList ++ ')' ::
        (k.tail.toList ++ rest))) := by
    simp [sql_eq h, hparts]
  rw [htext]
  set closing := ')' :: (k.tail.toList ++ rest)
  set parts := (Text.joined ", " ((p :: ps).map KeyPart.sql)).toList ++ closing
  set more := ' ' :: (k.nameSql.toList ++ '(' :: parts)
  have hmore : Neutral more := neutral_space _
  have hopen : Lexes (' ' :: '(' :: parts) .openParen parts := (Lexes.punctuation rfl parts).space
  have hseparated : Takes (separated keyPart) parts (p :: ps) closing := by
    refine takes_parts (b := []) (fun q hq => h.parts q (hparts ▸ hq)) (fun q hq n hn => ?_)
      (fun q hq s hs => hplain s (List.mem_flatMap.2 ⟨q, hparts ▸ hq, hs⟩)) (by simp)
    exact hnames n (List.mem_append_right _ (List.mem_flatMap.2 ⟨q, hparts ▸ hq, hn⟩))
  have hkey : Takes (key none) (b ++ (k.kind.sql.toList ++ more)) k rest := by
    refine .bind (takes_keyKind hb hmore) (.bind (takes_keyName h ?_ parts) ?_)
    · exact fun n hn => hnames n (List.mem_append_left _ (by simpa using hn))
    refine .bind (.acceptWord_other ?_) ?_
    · rw [hopen.first]
      rfl
    rw [if_neg (by simp)]
    refine .bind (.pure none _) (.bind (.expect hopen _) (.bind hseparated ?_))
    refine .bind (.expect (.punctuation rfl _) _) ?_
    rw [← hparts]
    exact takes_keyTail h.method hneutral hrest
  obtain ⟨mid, hopening, -⟩ := lexes_opening k.kind hb hmore
  have hupper : Text.upper k.kind.opening = k.kind.opening := by cases k.kind <;> decide
  refine .get_bind fun start _ => .bind (.upperWord? _) ?_
  rw [hopening.first, Lexeme.upperWord?, hupper]
  have hadd : Takes (addKey t none) (b ++ (k.kind.sql.toList ++ more))
      { t with keys := t.keys ++ [k] } rest := .bind hkey (.pure _ rest)
  generalize k.kind = kind at hadd ⊢
  cases kind <;> exact hadd

end Key

end SchemaDrift
