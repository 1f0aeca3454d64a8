import Mathlib
import SchemaDrift.Grammar.Type
import SchemaDrift.Proofs.Taking

/-!
Column types as they are written. A type without an encoding is read as itself, before every text
that goes on with neither its arguments nor its modifiers.
-/

namespace SchemaDrift

open Parse Grammar

/-! ### Words -/

lemma lexRun_words (s : String) (ws : List String)
    (hs : s.toList = ws.flatMap fun w => ' ' :: w.toList) (hws : ∀ w ∈ ws, isPlainWord w = true)
    {rest : List Char} (hrest : Neutral rest) :
    LexRun (s.toList ++ rest) (ws.map .word) rest ∧ (ws ≠ [] → Neutral (s.toList ++ rest)) := by
  rw [hs]
  clear hs
  induction ws with
  | nil => exact ⟨.nil rest, fun h => absurd rfl h⟩
  | cons w ws ih =>
    obtain ⟨hrun, hneutral⟩ := ih fun w hw => hws w (.tail _ hw)
    have hnext : Neutral ((ws.flatMap fun w => ' ' :: w.toList) ++ rest) := by
      rcases ws with _ | ⟨v, ws⟩
      · exact hrest
      · exact hneutral (List.cons_ne_nil _ _)
    rw [List.flatMap_cons, List.append_assoc, List.cons_append]
    refine ⟨.cons (Lexes.word (hws w List.mem_cons_self) hnext).space hrun, fun _ => ?_⟩
    exact neutral_space _

lemma lexes_spaced (s w : String) (hs : s.toList = ' ' :: w.toList) (hw : isPlainWord w = true)
    {rest : List Char} (hrest : Neutral rest) :
    Lexes (s.toList ++ rest) (.word w) rest ∧ Neutral (s.toList ++ rest) := by
  rw [hs]
  exact ⟨(Lexes.word hw hrest).space, neutral_space _⟩

lemma lexes_clause (s w : String) (hs : s.toList = ' ' :: (w.toList ++ [' ']))
    (hw : isPlainWord w = true) (text : String) (rest : List Char) :
    Lexes ((s ++ text).toList ++ rest) (.word w) (' ' :: (text.toList ++ rest)) ∧
      Neutral ((s ++ text).toList ++ rest) := by
  have htext : (s ++ text).toList ++ rest = ' ' :: (w.toList ++ ' ' :: (text.toList ++ rest)) := by
    simp [hs]
  rw [htext]
  exact ⟨(Lexes.word hw (neutral_space _)).space, neutral_space _⟩

/-! ### Arguments -/

section

variable {rest : List Char} {what : String}

lemma toList_argument (n : Nat) (rest : List Char) : (ColumnType.argument (some n)).toList ++ rest =
    '(' :: ((Text.decimal n).toList ++ ')' :: rest) := by simp [ColumnType.argument]

lemma toList_twoArguments (m n : Nat) (rest : List Char) :
    (ColumnType.twoArguments m n).toList ++ rest =
      '(' :: ((Text.decimal m).toList ++ ',' :: ((Text.decimal n).toList ++ ')' :: rest)) := by
  simp [ColumnType.twoArguments]

lemma takes_parenthesizedNumber {n : Nat} (hn : n ≤ Text.max32) : Takes (parenthesizedNumber what)
    ((ColumnType.argument (some n)).toList ++ rest) n rest := by
  rw [toList_argument]
  refine .bind (.expect (.punctuation rfl _) _) ?_
  refine .bind (.number hn (neutral_cons (by decide) _) _) ?_
  exact .bind (.expect (.punctuation rfl _) _) (.pure n rest)

lemma firstLexeme_argument (n : Nat) :
    firstLexeme ((ColumnType.argument (some n)).toList ++ rest) = .openParen := by
  rw [toList_argument]
  exact (Lexes.punctuation rfl _).first

lemma takes_optionalNumber_none (hrest : firstLexeme rest ≠ .openParen) :
    Takes (optionalNumber what) rest none rest := by
  refine .bind (.next _) ?_
  rw [if_neg hrest]
  exact .pure none rest

lemma takes_optionalNumber {n? : Option Nat} (hn : ∀ n ∈ n?, n ≤ Text.max32)
    (hrest : firstLexeme rest ≠ .openParen) :
    Takes (optionalNumber what) ((ColumnType.argument n?).toList ++ rest) n? rest := by
  rcases n? with _ | n
  · exact takes_optionalNumber_none hrest
  · refine .bind (.next _) ?_
    rw [if_pos (firstLexeme_argument n)]
    exact .bind (takes_parenthesizedNumber (hn n rfl)) (.pure (some n) rest)

lemma takes_optionalDigits {p s : Nat} (hp : p ≤ Text.max32) (hs : s ≤ Text.max32) :
    Takes optionalDigits ((ColumnType.twoArguments p s).toList ++ rest) (some (p, some s))
      rest := by
  rw [toList_twoArguments]
  refine .bind (.accept (.punctuation rfl _)) ?_
  rw [if_pos rfl]
  refine .bind (.number hp (neutral_cons (by decide) _) _) ?_
  refine .bind (.accept (.punctuation rfl _)) ?_
  dsimp only
  rw [if_pos rfl]
  refine .bind (.map some (.number hs (neutral_cons (by decide) _) _)) ?_
  exact .bind (.expect (.punctuation rfl _) _) (.pure _ rest)

lemma takes_optionalDigits_none (hrest : firstLexeme rest ≠ .openParen) :
    Takes optionalDigits rest none rest := by
  refine .bind (.accept_other hrest) ?_
  exact .pure none rest

end

/-! ### Modifiers -/

/-- The text goes on with no type. -/
structure EndsType (rest : List Char) : Prop where
  neutral : Neutral rest
  not_open : firstLexeme rest ≠ .openParen
  not_word : ∀ w ∈ ["PRECISION", "UNSIGNED", "SIGNED", "ZEROFILL"],
    (firstLexeme rest).isWord w = false

section

variable {f : NumberFlags} {cs rest : List Char}

lemma takes_modifier_unsigned (h : Lexes cs (.word "UNSIGNED") rest) :
    Takes (modifier f) cs (some { f with isUnsigned := true }) rest := by
  refine .bind (.acceptWord h (by decide)) ?_
  rw [if_pos rfl]
  exact .pure _ rest

lemma takes_modifier_zerofill (h : Lexes cs (.word "ZEROFILL") rest) :
    Takes (modifier f) cs (some { f with zerofill := true }) rest := by
  refine .bind (.acceptWord_other (by rw [h.first]; decide)) ?_
  rw [if_neg nofun]
  refine .bind (.acceptWord_other (by rw [h.first]; decide)) ?_
  rw [if_neg nofun]
  refine .bind (.acceptWord h (by decide)) ?_
  rw [if_pos rfl]
  exact .pure _ rest

lemma takes_modifier_none (h : EndsType rest) : Takes (modifier f) rest none rest := by
  refine .bind (.acceptWord_other (h.not_word _ (by decide))) ?_
  rw [if_neg nofun]
  refine .bind (.acceptWord_other (h.not_word _ (by decide))) ?_
  rw [if_neg nofun]
  refine .bind (.acceptWord_other (h.not_word _ (by decide))) ?_
  rw [if_neg nofun]
  exact .pure _ rest

lemma takes_zerofill (z : Bool) (h : EndsType rest) :
    Takes (repeated modifier { f with zerofill := false })
      ((if z then " ZEROFILL" else "").toList ++ rest) { f with zerofill := z } rest := by
  rcases z with _ | _
  · exact .repeated_last (takes_modifier_none h)
  · have hword := (lexes_spaced " ZEROFILL" "ZEROFILL" rfl (by decide) h.neutral).1
    exact .repeated_cons (takes_modifier_zerofill hword) hword.length_lt
      (.repeated_last (takes_modifier_none h))

lemma takes_flags (f : NumberFlags) (h : EndsType rest) :
    Takes (repeated modifier .none) (f.sql.toList ++ rest) f rest := by
  obtain ⟨u, z⟩ := f
  have hzerofill (u : Bool) := takes_zerofill (f := ⟨u, false⟩) z h
  rcases u with _ | _
  · exact hzerofill false
  · have hnext : Neutral ((if z then " ZEROFILL" else "").toList ++ rest) := by
      rcases z with _ | _
      · exact h.neutral
      · exact neutral_space _
    have hword := (lexes_spaced " UNSIGNED" "UNSIGNED" rfl (by decide) hnext).1
    have htext : (NumberFlags.sql ⟨true, z⟩).toList ++ rest =
        " UNSIGNED".toList ++ ((if z then " ZEROFILL" else "").toList ++ rest) := by
      simp [NumberFlags.sql]
    rw [htext]
    exact .repeated_cons (takes_modifier_unsigned hword) hword.length_lt (hzerofill true)

lemma flags_sql_cases (f : NumberFlags) (h : EndsType rest) : Neutral (f.sql.toList ++ rest) ∧
    firstLexeme (f.sql.toList ++ rest) ≠ .openParen ∧
    (firstLexeme (f.sql.toList ++ rest)).isWord "PRECISION" = false := by
  have hword (s w : String) (ws : List String)
      (hs : s.toList = (w :: ws).flatMap fun w => ' ' :: w.toList)
      (hws : ∀ v ∈ w :: ws, isPlainWord v = true)
      (hw : (Lexeme.word w).isWord "PRECISION" = false) :
      Neutral (s.toList ++ rest) ∧ firstLexeme (s.toList ++ rest) ≠ .openParen ∧
        (firstLexeme (s.toList ++ rest)).isWord "PRECISION" = false := by
    obtain ⟨hrun, hneutral⟩ := lexRun_words s (w :: ws) hs hws h.neutral
    rw [List.map_cons] at hrun
    exact ⟨hneutral (List.cons_ne_nil _ _), by rw [hrun.first]; nofun, by rw [hrun.first]; exact hw⟩
  obtain ⟨_ | _, _ | _⟩ := f
  · exact ⟨h.neutral, h.not_open, h.not_word _ (by decide)⟩
  · exact hword " ZEROFILL" "ZEROFILL" [] rfl (by decide) (by decide)
  · exact hword " UNSIGNED" "UNSIGNED" [] rfl (by decide) (by decide)
  · exact hword " UNSIGNED ZEROFILL" "UNSIGNED" ["ZEROFILL"] rfl (by decide) (by decide)

end

/-! ### Types -/

/-- The word is the name of types with the given arguments. -/
def IsTypeName (name : String) (head : TypeHead) : Prop :=
  isPlainWord name = true ∧ Text.upper name = name ∧ typeHeads.lookup name = some head

instance (name : String) (head : TypeHead) : Decidable (IsTypeName name head) :=
  inferInstanceAs (Decidable (_ ∧ _ ∧ _))

section

variable (real : FloatSize) {name : String} {head : TypeHead} {type : ColumnType}
  {args rest : List Char}

lemma takes_namedType {cs mid : List Char} {type' : ColumnType} (h : IsTypeName name head)
    (hneutral : Neutral cs) (hbody : Takes (typeBody real head) cs type mid)
    (hend : Takes (if type.isNumeric then do
        let flags ← repeated modifier .none
        return type.mapFlags fun _ => flags
      else return type) mid type' rest) :
    Takes (columnType real) (' ' :: (name.toList ++ cs)) type' rest := by
  obtain ⟨hplain, hupper, hlookup⟩ := h
  have hword := (Lexes.word hplain hneutral).space
  refine .bind (.upperWord? _) ?_
  rw [hword.first, Lexeme.upperWord?, hupper]
  refine .bind (.advance hword) ?_
  simp only [hlookup]
  exact .bind hbody hend

lemma takes_columnType (h : IsTypeName name head) (hargs : Neutral (args ++ rest))
    (hbody : Takes (typeBody real head) (args ++ rest) type rest)
    (hnumeric : type.isNumeric = false) :
    Takes (columnType real) (' ' :: (name.toList ++ (args ++ rest))) type rest := by
  refine takes_namedType real h hargs hbody ?_
  rw [hnumeric]
  exact .pure type rest

lemma takes_numericType {f : NumberFlags} (h : IsTypeName name head) (hrest : EndsType rest)
    (hargs : Neutral (args ++ (f.sql.toList ++ rest)))
    (hbody : Takes (typeBody real head) (args ++ (f.sql.toList ++ rest)) type
      (f.sql.toList ++ rest))
    (hnumeric : type.isNumeric = true) :
    Takes (columnType real) (' ' :: (name.toList ++ (args ++ (f.sql.toList ++ rest))))
      (type.mapFlags fun _ => f) rest := by
  refine takes_namedType real h hargs hbody ?_
  rw [if_pos hnumeric]
  exact .bind (takes_flags f hrest) (.pure _ rest)

lemma takes_plainType {t : PlainType} (hrest : EndsType rest) :
    Takes (columnType real) (' ' :: (t.name.toList ++ rest)) (.plain t) rest := by
  have hname : isPlainWord t.name = true ∧ Text.upper t.name = t.name := by cases t <;> decide
  have hword := (Lexes.word hname.1 hrest.neutral).space
  refine .bind (.upperWord? _) ?_
  rw [hword.first, Lexeme.upperWord?, hname.2]
  refine .bind (.advance hword) ?_
  cases t with
  | year =>
    exact .bind (.bind (takes_optionalNumber_none hrest.not_open) (.pure _ rest)) (.pure _ rest)
  | _ => exact .pure _ rest

end

/-- The grammar has types with these arguments. -/
def ColumnType.Allowed : ColumnType → Prop
  | integer _ width _ => ∀ n ∈ width, n ≤ Text.max32
  | decimal precision scale _ =>
    precision ≠ 0 ∧ precision ≤ maxPrecision ∧ scale ≤ maxScale ∧ scale ≤ precision
  | floating _ digits _ => ∀ d ∈ digits, d.1 ≤ Text.max32 ∧ d.2 ≤ Text.max32
  | string _ content length e => length ≤ Text.max32 ∧ (content = .bytes → e = .none)
  | lob _ content e => content = .bytes → e = .none
  | choice _ members _ => members ≠ []
  | clock _ fraction => fraction ≤ maxFraction
  | bit length => ∀ n ∈ length, n ≤ Text.max32
  | plain _ => True

section

variable (real : FloatSize) {rest : List Char}

lemma neutral_argument {n? : Option Nat} (hrest : Neutral rest) :
    Neutral ((ColumnType.argument n?).toList ++ rest) := by
  rcases n? with _ | n
  · exact hrest
  · rw [toList_argument]
    exact neutral_cons (by decide) _

lemma takes_integer {size : IntegerSize} {width : Option Nat} (f : NumberFlags)
    (hwidth : ∀ n ∈ width, n ≤ Text.max32) (hrest : EndsType rest) : Takes (columnType real)
      (' ' :: ((ColumnType.integer size width f).sql.toList ++ rest)) (.integer size width f)
      rest := by
  obtain ⟨hneutral, hopen, -⟩ := flags_sql_cases f hrest
  have hname : IsTypeName size.name (.integer size) := by
    cases size <;> decide
  have hbody : Takes (typeBody real (.integer size))
      ((ColumnType.argument width).toList ++ (f.sql.toList ++ rest))
      (.integer size width .none) (f.sql.toList ++ rest) :=
    .bind (takes_optionalNumber hwidth hopen) (.pure _ _)
  have htakes := takes_numericType real hname hrest (neutral_argument hneutral) hbody rfl
  simpa [ColumnType.sql, ColumnType.name, ColumnType.arguments, ColumnType.mapFlags] using htakes

lemma neutral_twoArguments (p s : Nat) :
    Neutral ((ColumnType.twoArguments p s).toList ++ rest) := by
  rw [toList_twoArguments]
  exact neutral_cons (by decide) _

lemma takes_decimal {precision scale : Nat} (f : NumberFlags)
    (h : (ColumnType.decimal precision scale f).Allowed) (hrest : EndsType rest) :
    Takes (columnType real) (' ' :: ((ColumnType.decimal precision scale f).sql.toList ++ rest))
      (.decimal precision scale f) rest := by
  obtain ⟨hzero, hprecision, hscale, hle⟩ := h
  have hbound : maxPrecision ≤ Text.max32 := by decide
  have hbody : Takes (typeBody real .decimal)
      ((ColumnType.twoArguments precision scale).toList ++ (f.sql.toList ++ rest))
      (.decimal precision scale .none) (f.sql.toList ++ rest) := by
    refine .bind (takes_optionalDigits (by omega) (by omega)) ?_
    simp only [Option.getD_some]
    rw [if_neg (by simp; omega), if_neg (by simp; omega)]
    exact .pure _ _
  have hname : IsTypeName "DECIMAL" .decimal := by decide
  have htakes := takes_numericType real hname hrest (neutral_twoArguments precision scale) hbody rfl
  simpa [ColumnType.sql, ColumnType.name, ColumnType.arguments, ColumnType.mapFlags] using htakes

lemma takes_floating {size : FloatSize} {digits : Option (Nat × Nat)} (f : NumberFlags)
    (h : (ColumnType.floating size digits f).Allowed) (hrest : EndsType rest) :
    Takes (columnType real) (' ' :: ((ColumnType.floating size digits f).sql.toList ++ rest))
      (.floating size digits f) rest := by
  obtain ⟨hneutral, hopen, hprecision⟩ := flags_sql_cases f hrest
  -- What stands between the name and the modifiers.
  obtain ⟨args, hargs, hneutral, hword, hdigits⟩ : ∃ args : String,
      (ColumnType.floating size digits f).sql = size.name ++ (args ++ f.sql) ∧
      Neutral (args.toList ++ (f.sql.toList ++ rest)) ∧
      (firstLexeme (args.toList ++ (f.sql.toList ++ rest))).isWord "PRECISION" = false ∧
      Takes optionalDigits (args.toList ++ (f.sql.toList ++ rest))
        (digits.map fun d => (d.1, some d.2)) (f.sql.toList ++ rest) := by
    rcases digits with _ | ⟨p, s⟩
    · exact ⟨"", by simp [ColumnType.sql, ColumnType.name, ColumnType.arguments], hneutral,
        hprecision, takes_optionalDigits_none hopen⟩
    · refine ⟨ColumnType.twoArguments p s,
        by simp [ColumnType.sql, ColumnType.name, ColumnType.arguments], neutral_twoArguments p s,
        ?_, takes_optionalDigits (h _ rfl).1 (h _ rfl).2⟩
      rw [toList_twoArguments, (Lexes.punctuation (c := '(') rfl _).first]
      rfl
  have htakes {head : TypeHead} (hname : IsTypeName size.name head)
      (hbody : Takes (typeBody real head) (args.toList ++ (f.sql.toList ++ rest))
        (.floating size digits .none) (f.sql.toList ++ rest)) :
      Takes (columnType real) (' ' :: ((ColumnType.floating size digits f).sql.toList ++ rest))
        (.floating size digits f) rest := by
    rw [hargs]
    simpa [ColumnType.mapFlags] using takes_numericType real hname hrest hneutral hbody rfl
  cases size with
  | single =>
    refine htakes (by decide : IsTypeName "FLOAT" .float) (.bind hdigits ?_)
    rcases digits with _ | ⟨p, s⟩ <;> exact .pure _ _
  | double =>
    refine htakes (by decide : IsTypeName "DOUBLE" .double)
      (.bind (.acceptWord_other hword) (.bind hdigits ?_))
    rcases digits with _ | ⟨p, s⟩ <;> exact .pure _ _

lemma takes_string {padded : Bool} {content : Content} {length : Nat} (h : length ≤ Text.max32)
    (hrest : EndsType rest) : Takes (columnType real)
      (' ' :: ((ColumnType.string padded content length .none).sql.toList ++ rest))
      (.string padded content length .none) rest := by
  have hlength : ∀ n ∈ some length, n ≤ Text.max32 := by
    rintro n ⟨⟩
    exact h
  have hbody : Takes (stringType padded content none)
      ((ColumnType.argument (some length)).toList ++ rest)
      (.string padded content length .none) rest :=
    .bind (takes_optionalNumber hlength hrest.not_open) (.pure _ rest)
  have htakes {name : String} {head : TypeHead} (hname : IsTypeName name head)
      (hsql : (ColumnType.string padded content length .none).name = name)
      (hhead : Takes (typeBody real head) ((ColumnType.argument (some length)).toList ++ rest)
        (.string padded content length .none) rest) : Takes (columnType real)
      (' ' :: ((ColumnType.string padded content length .none).sql.toList ++ rest))
      (.string padded content length .none) rest := by
    have htype := takes_columnType real hname (neutral_argument hrest.neutral) hhead rfl
    have htext : (ColumnType.string padded content length .none).sql =
        name ++ ColumnType.argument (some length) := by
      rw [ColumnType.sql, hsql]
      simp [ColumnType.arguments, Encoding.sql, Encoding.none]
    rw [htext]
    simpa using htype
  rcases padded with _ | _ <;> rcases content with _ | _
  · exact htakes (by decide : IsTypeName "VARCHAR" (.string false .text)) rfl hbody
  · exact htakes (by decide : IsTypeName "VARBINARY" (.string false .bytes)) rfl hbody
  · refine htakes (by decide : IsTypeName "CHAR" .char) rfl (.bind (.acceptWord_other ?_) hbody)
    rw [firstLexeme_argument]
    rfl
  · exact htakes (by decide : IsTypeName "BINARY" (.string true .bytes)) rfl hbody

lemma takes_lob {size : LobSize} {content : Content} (hrest : EndsType rest) :
    Takes (columnType real) (' ' :: ((ColumnType.lob size content .none).sql.toList ++ rest))
      (.lob size content .none) rest := by
  have htakes {head : TypeHead} (hname : IsTypeName (size.name content) head)
      (hhead : Takes (typeBody real head) rest (.lob size content .none) rest) :
      Takes (columnType real) (' ' :: ((ColumnType.lob size content .none).sql.toList ++ rest))
        (.lob size content .none) rest := by
    have hargs : Neutral ([] ++ rest) := hrest.neutral
    have htype := takes_columnType real hname hargs hhead rfl
    simpa [ColumnType.sql, ColumnType.name, ColumnType.arguments, Encoding.sql, Encoding.none]
      using htype
  rcases size with _ | _ | _ | _
  · have hname : IsTypeName (LobSize.tiny.name content) (.lob .tiny content) := by
      cases content <;> decide
    exact htakes hname (.pure _ rest)
  · have hname : IsTypeName (LobSize.regular.name content) (.sizedLob content) := by
      cases content <;> decide
    exact htakes hname (.bind (takes_optionalNumber_none hrest.not_open) (.pure _ rest))
  · have hname : IsTypeName (LobSize.medium.name content) (.lob .medium content) := by
      cases content <;> decide
    exact htakes hname (.pure _ rest)
  · have hname : IsTypeName (LobSize.long.name content) (.lob .long content) := by
      cases content <;> decide
    exact htakes hname (.pure _ rest)

lemma takes_members (what : String) {member : String} {members : List String} :
    Takes (separated (Parse.string what))
      ((Sql.strings "," (member :: members)).toList ++ ')' :: rest) (member :: members)
      (')' :: rest) := by
  induction members generalizing member with
  | nil =>
    refine .separated_last (.string (lexes_string member (by simp)) what) ?_
    rw [(Lexes.punctuation rfl rest).first]
    nofun
  | cons next members ih =>
    have htext : (Sql.strings "," (member :: next :: members)).toList ++ ')' :: rest =
        (Sql.string member).toList ++ ',' ::
          ((Sql.strings "," (next :: members)).toList ++ ')' :: rest) := by
      simp [Sql.strings, Text.joined]
    rw [htext]
    set tail := (Sql.strings "," (next :: members)).toList ++ ')' :: rest
    have hmember : Lexes ((Sql.string member).toList ++ ',' :: tail) (.string member)
      (',' :: tail) := lexes_string member (by simp)
    have hcomma : Lexes (',' :: tail) .comma tail := .punctuation rfl tail
    have hlen := hcomma.length_lt.trans hmember.length_lt
    exact .separated_cons (.string hmember what) hcomma hlen ih

lemma takes_choice {kind : ChoiceKind} {members : List String} (h : members ≠ []) :
    Takes (columnType real) (' ' :: ((ColumnType.choice kind members .none).sql.toList ++ rest))
      (.choice kind members .none) rest := by
  obtain ⟨member, members, rfl⟩ := List.exists_cons_of_ne_nil h
  have hname : IsTypeName kind.name (.choice kind) := by
    cases kind <;> decide
  have hbody : Takes (choiceType kind)
      ('(' :: ((Sql.strings "," (member :: members)).toList ++ [')']) ++ rest)
      (.choice kind (member :: members) .none) rest := by
    rw [List.cons_append, List.append_assoc]
    refine .bind (.expect (.punctuation rfl _) _) (.bind (takes_members _) ?_)
    exact .bind (.expect (.punctuation rfl _) _) (.pure _ rest)
  have htype := takes_columnType real hname (neutral_cons (by decide) _) hbody rfl
  simpa [ColumnType.sql, ColumnType.name, ColumnType.arguments, Encoding.sql, Encoding.none]
    using htype

lemma takes_clock {kind : ClockKind} {fraction : Nat} (h : fraction ≤ maxFraction)
    (hrest : EndsType rest) :
    Takes (columnType real) (' ' :: ((ColumnType.clock kind fraction).sql.toList ++ rest))
      (.clock kind fraction) rest := by
  have hname : IsTypeName kind.name (.clock kind) := by
    cases kind <;> decide
  have hbound : maxFraction ≤ Text.max32 := by decide
  obtain ⟨n?, hargs, hn, hfraction⟩ : ∃ n?, (ColumnType.clock kind fraction).arguments =
      ColumnType.argument n? ∧ (∀ n ∈ n?, n ≤ Text.max32) ∧ n?.getD 0 = fraction := by
    by_cases hzero : fraction = 0
    · exact ⟨none, if_pos hzero, nofun, hzero.symm⟩
    · refine ⟨some fraction, if_neg hzero, ?_, rfl⟩
      rintro n ⟨⟩
      omega
  have hbody : Takes (clockType kind) ((ColumnType.argument n?).toList ++ rest)
      (.clock kind fraction) rest := by
    refine .bind (takes_optionalNumber hn hrest.not_open) ?_
    rw [hfraction, if_neg (by omega)]
    exact .pure _ rest
  have htype := takes_columnType real hname (neutral_argument hrest.neutral) hbody rfl
  rw [ColumnType.sql, hargs]
  simpa [ColumnType.name] using htype

lemma takes_bit {length : Option Nat} (h : ∀ n ∈ length, n ≤ Text.max32) (hrest : EndsType rest) :
    Takes (columnType real) (' ' :: ((ColumnType.bit length).sql.toList ++ rest)) (.bit length)
      rest := by
  have hbody : Takes (typeBody real .bit) ((ColumnType.argument length).toList ++ rest)
      (.bit length) rest := .bind (takes_optionalNumber h hrest.not_open) (.pure _ rest)
  have htype := takes_columnType real (by decide : IsTypeName "BIT" .bit)
    (neutral_argument hrest.neutral) hbody rfl
  simpa [ColumnType.sql, ColumnType.name, ColumnType.arguments] using htype

/-- **A type without an encoding is read as itself**, whatever `REAL` stands for. -/
theorem takes_type {t : ColumnType} (h : t.Allowed) (hplain : ∀ e ∈ t.encoding?, e = .none)
    (hrest : EndsType rest) : Takes (columnType real) (' ' :: (t.sql.toList ++ rest)) t rest := by
  cases t with
  | integer size width flags => exact takes_integer real flags h hrest
  | decimal precision scale flags => exact takes_decimal real flags h hrest
  | floating size digits flags => exact takes_floating real flags h hrest
  | string padded content length e =>
    obtain rfl := hplain e rfl
    exact takes_string real h.1 hrest
  | lob size content e =>
    obtain rfl := hplain e rfl
    exact takes_lob real hrest
  | choice kind members e =>
    obtain rfl := hplain e rfl
    exact takes_choice real h
  | clock kind fraction => exact takes_clock real h hrest
  | bit length => exact takes_bit real h hrest
  | plain type =>
    have htype := takes_plainType real (t := type) hrest
    simpa [ColumnType.sql, ColumnType.name, ColumnType.arguments] using htype

end

end SchemaDrift
