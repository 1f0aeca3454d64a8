import Mathlib
import SchemaDrift.Proofs.ParserSteps

/-!
The grammars are made of steps on tokens. One lemma for each rule says so; the lemma of a rule that a
loop repeats also says that each round takes a token.
-/

namespace SchemaDrift

open Parse

namespace Made

lemma string (what : String) : Made (Parse.string what) := taking _ _

lemma identifier (what : String) : Made (Parse.identifier what) := taking _ _

lemma value (what : String) : Made (Parse.value what) := taking _ _

lemma number (what : String) : Made (Parse.number what) := taking _ _

lemma keyword (w : String) : Made (Parse.keyword w) := expectWord w w

lemma acceptWord (w : String) : Made (Parse.acceptWord w) := acceptWords [w]

lemma parenthesizedNumber (what : String) : Made (Parse.parenthesizedNumber what) :=
  bind (expect _ _) fun _ => bind (number what) fun _ => bind (expect _ _) fun _ => pure _

lemma optionalNumber (what : String) : Made (Parse.optionalNumber what) := by
  refine bind next fun l => ?_
  split
  · exact bind (parenthesizedNumber what) fun _ => pure _
  · exact pure _

lemma advances_balanced {A : Cursor → Prop} {P : String → Prop} :
    Advances A P Parse.balanced where
  made := balanced
  lt := by
    intro c s c' _ hok _
    obtain ⟨opening, inner, close, hgroup, -⟩ := Group.of_balanced hok
    simp [hgroup.eq]
    omega

lemma skipPart (u : Unit) : Advances (fun _ => True) (·.isSome = true) (Parse.skipPart u) := by
  refine .next_bind (fun l hl => ?_) (.pure (by simp))
  split
  · exact .pure (by simp)
  · exact .pure (by simp)
  · exact .pure (by simp)
  · exact .bind advances_balanced fun _ => pure _
  · exact .bind .advance fun _ => pure _

lemma restOfDefinition (start : Cursor) : Made (Parse.restOfDefinition start) :=
  bind (repeated skipPart ()) fun _ => bind get fun _ => pure _

lemma atEnd : Made Parse.atEnd := bind next fun _ => pure _

lemma ending : Made Parse.ending := by
  refine bind (accept _) fun _ => bind next fun l => ?_
  split
  · exact pure _
  · exact expected _

end Made

namespace Grammar

/-! ### Types -/

lemma made_optionalDigits : Made optionalDigits := by
  refine .bind (.accept _) fun b => ?_
  split
  · refine .bind (.number _) fun p => .bind (.accept _) fun b => ?_
    have hend (s? : Option ℕ) : Made (do
        expect .closeParen "`)` closing the precision"
        return some (p, s?)) := .bind (.expect _ _) fun _ => .pure _
    dsimp only
    split
    · exact .bind (.map _ (.number _)) hend
    · exact .bind (.pure _) hend
  · exact .pure _

lemma made_decimalType : Made decimalType := by
  refine .bind made_optionalDigits fun digits? => ?_
  have hchecked (digits : ℕ × ℕ) : Made (
      if digits.1 = 0 || maxPrecision < digits.1 then fault (.decimalPrecision digits.1) 1
      else if maxScale < digits.2 || digits.1 < digits.2 then fault (.decimalScale digits.2) 1
      else return ColumnType.decimal digits.1 digits.2 .none) := by
    split
    · exact .fault _ _
    · split
      · exact .fault _ _
      · exact .pure _
  exact hchecked _

lemma made_floatType : Made floatType := by
  refine .bind made_optionalDigits fun digits? => ?_
  split
  · exact .pure _
  · exact .pure _
  · split
    · exact .pure _
    · split
      · exact .pure _
      · exact .fault _ _

lemma made_floatingType (size : FloatSize) : Made (floatingType size) := by
  refine .bind made_optionalDigits fun digits? => ?_
  split
  · exact .pure _
  · exact .pure _
  · exact .fault _ _

lemma made_stringType (padded : Bool) (content : Content) (charset? : Option String) :
    Made (stringType padded content charset?) := by
  refine .bind (.optionalNumber _) fun length? => ?_
  split
  · exact .pure _
  · split
    · exact .pure _
    · exact .expected _

lemma made_choiceType (kind : ChoiceKind) : Made (choiceType kind) :=
  .bind (.expect _ _) fun _ => .bind (.separated (.string _)) fun _ => .bind (.expect _ _) fun _ =>
    .pure _

lemma made_clockType (kind : ClockKind) : Made (clockType kind) := by
  refine .bind (.optionalNumber _) fun fraction? => ?_
  dsimp only
  split
  · exact .fault _ _
  · exact .pure _

lemma made_nationalType : Made nationalType := by
  refine .bind .upperWord? fun word? => ?_
  split
  · exact .bind .advance fun _ => made_stringType _ _ _
  · exact .bind .advance fun _ => .bind (.acceptWord _) fun _ => made_stringType _ _ _
  · exact .bind .advance fun _ => .bind (.acceptWord _) fun _ => made_stringType _ _ _
  · exact .expected _

lemma made_typeBody (real : FloatSize) (head : TypeHead) : Made (typeBody real head) := by
  cases head with
  | integer size => exact .bind (.optionalNumber _) fun _ => .pure _
  | boolean | lob size content => exact .pure _
  | decimal => exact made_decimalType
  | float => exact made_floatType
  | floating size => exact made_floatingType size
  | double => exact .bind (.acceptWord _) fun _ => made_floatingType _
  | real => exact made_floatingType real
  | char => exact .bind (.acceptWord _) fun _ => made_stringType _ _ _
  | nationalChar =>
    refine .bind (.acceptWord _) fun b => ?_
    split
    · exact made_stringType _ _ _
    · exact .bind (.acceptWord _) fun _ => made_stringType _ _ _
  | nationalVarchar | string padded content => exact made_stringType _ _ _
  | national => exact made_nationalType
  | sizedLob content =>
    refine .bind (.optionalNumber _) fun length? => ?_
    split <;> exact .pure _
  | long =>
    refine .bind (.acceptWord _) fun b => ?_
    split
    · exact .pure _
    · exact .bind (.acceptWord _) fun _ => .pure _
  | choice kind => exact made_choiceType kind
  | clock kind => exact made_clockType kind
  | bit | year => exact .bind (.optionalNumber _) fun _ => .pure _

lemma advances_modifier (flags : NumberFlags) :
    Advances (fun _ => True) (·.isSome = true) (modifier flags) :=
  .acceptWord_bind (.pure _) <| .acceptWord_bind (.pure _) <| .acceptWord_bind (.pure _) <|
    .pure (by simp)

lemma made_columnType (real : FloatSize) : Made (columnType real) := by
  refine .bind .upperWord? fun word? => ?_
  split
  · exact .expected _
  · refine .bind .advance fun _ => ?_
    split
    · refine .bind (made_typeBody real _) fun type => ?_
      split
      · exact .bind (.repeated advances_modifier _) fun _ => .pure _
      · exact .pure _
    · split
      · exact .pure _
      · exact .fault _ _

/-! ### Columns -/

lemma made_tableName : Made tableName := by
  refine .bind (.identifier _) fun first => .bind (.accept _) fun b => ?_
  split
  · exact .bind (.identifier _) fun _ => .pure _
  · exact .pure _

lemma made_momentDigits : Made momentDigits := by
  refine .bind (.accept _) fun b => ?_
  split
  · refine .bind .next fun l => ?_
    have hend (fraction : ℕ) : Made (do
        expect .closeParen "`)`"
        return fraction) := .bind (.expect _ _) fun _ => .pure _
    dsimp only
    split
    · exact .bind (.number _) hend
    · exact .bind (.pure _) hend
  · exact .pure _

lemma made_wordDefault (word : String) : Made (wordDefault word) := by
  have hnow : Made (do
      advance
      return DefaultValue.now (← momentDigits)) :=
    .bind .advance fun _ => .bind made_momentDigits fun _ => .pure _
  unfold wordDefault
  split
  · exact .bind .advance fun _ => .pure _
  · exact .bind .advance fun _ => .pure _
  · exact .bind .advance fun _ => .pure _
  · exact hnow
  · exact hnow
  · exact hnow
  · exact hnow
  · refine .bind .get fun c => ?_
    split
    · split
      · exact .bind .advance fun _ => .bind .advance fun _ => .pure _
      · exact .expected _
    · exact .expected _

lemma made_defaultValue : Made defaultValue := by
  refine .bind .next fun l => ?_
  split
  · exact .bind .advance fun _ => .pure _
  · exact .bind .advance fun _ => .pure _
  · exact .bind .advance fun _ => .pure _
  · exact .bind .balanced fun _ => .pure _
  · exact made_wordDefault _
  · split
    · exact .bind .advance fun _ => .bind (.taking _ _) fun _ => .pure _
    · exact .expected _
  · exact .expected _

lemma made_charsetName : Made charsetName := .map _ (.value _)

lemma advances_columnAttribute (d : ColumnDraft) (word : String) :
    Advances Cursor.Unended (fun _ => True) (columnAttribute d word) := by
  unfold columnAttribute
  split
  · exact .bind .advance fun _ => .bind (.keyword _) fun _ => .pure _
  · exact .bind .advance fun _ => .pure _
  · exact .bind .advance fun _ => .bind made_defaultValue fun _ => .pure _
  · exact .bind .advance fun _ => .pure _
  · exact .bind .advance fun _ => .bind (.string _) fun _ => .pure _
  · refine .bind .advance fun _ => .bind (.keyword _) fun _ => .bind made_defaultValue fun v => ?_
    split
    · exact .pure _
    · exact .fault _ _
  · exact .bind .advance fun _ => .bind (.keyword _) fun _ => .bind made_charsetName fun _ => .pure _
  · exact .bind .advance fun _ => .bind made_charsetName fun _ => .pure _
  · exact .bind .advance fun _ => .bind (.value _) fun _ => .pure _
  · exact .bind .advance fun _ => .bind (.keyword _) fun _ => .pure _
  · exact .bind .advance fun _ => .pure _
  · exact .bind .advance fun _ => .bind (.acceptWord _) fun _ => .pure _
  · exact .bind .advance fun _ => .bind .balanced fun _ => .pure _
  · exact .bind .advance fun _ => .bind (.value _) fun _ => .pure _
  · exact .bind .advance fun _ => .bind (.value _) fun _ => .pure _
  · exact .bind .advance fun _ => .pure _
  · exact .bind .advance fun _ => .pure _
  · exact .expected _

lemma advances_nextAttribute (d : ColumnDraft) :
    Advances (fun _ => True) (·.isSome = true) (nextAttribute d) := by
  refine .next_bind (fun l hl => ?_) (.pure (by simp))
  split
  · exact .pure (by simp)
  · exact .pure (by simp)
  · exact .pure (by simp)
  · exact .pure (by simp)
  · exact .upperWord?_bind (fun w => .bind (advances_columnAttribute d w) fun _ => .pure _)
      (.expected _)

lemma made_column (real : FloatSize) (t : Table) : Made (column real t) := by
  refine .bind (.identifier _) fun name => .bind (made_columnType real) fun type =>
    .bind (.repeated advances_nextAttribute _) fun d => ?_
  split
  · exact .fault _ _
  · exact .pure _

/-! ### Keys -/

lemma made_keyMethod : Made keyMethod := by
  refine .bind .upperWord? fun word? => ?_
  split
  · exact .bind .advance fun _ => .pure _
  · exact .bind .advance fun _ => .pure _
  · exact .expected _

lemma made_acceptKeyWord : Made acceptKeyWord := by
  refine .bind (.acceptWord _) fun b => ?_
  split
  · exact .pure _
  · exact .acceptWord _

lemma made_keyPart : Made keyPart := by
  have hdirection (p : KeyPart) : Made (do
      if ← acceptWord "DESC" then return { p with descending := true }
      else
        let _ ← acceptWord "ASC"
        return p) := by
    refine .bind (.acceptWord _) fun b => ?_
    split
    · exact .pure _
    · exact .bind (.acceptWord _) fun _ => .pure _
  refine .bind .next fun l => ?_
  dsimp only
  split
  · exact .bind .balanced fun s => .bind (.pure _) hdirection
  · exact .bind (.identifier _) fun name => .bind (.optionalNumber _) fun n? =>
      .bind (.pure _) hdirection

lemma made_keyKind : Made keyKind := by
  have hkind (kind : KeyKind) : Made (do
      advance
      let _ ← acceptKeyWord
      return kind) := .bind .advance fun _ => .bind made_acceptKeyWord fun _ => .pure _
  refine .bind .upperWord? fun word? => ?_
  split
  · exact .bind .advance fun _ => .bind (.keyword _) fun _ => .pure _
  · exact hkind _
  · exact hkind _
  · exact hkind _
  · exact .bind .advance fun _ => .pure _
  · exact .bind .advance fun _ => .pure _
  · exact .expected _

lemma advances_nextKeyAttribute (k : Key) :
    Advances (fun _ => True) (·.isSome = true) (nextKeyAttribute k) := by
  refine .upperWord?_bind (fun w => ?_) (.pure (by simp))
  split
  · exact .bind .advance fun _ => .bind made_keyMethod fun _ => .pure _
  · exact .bind .advance fun _ => .bind (.string _) fun _ => .pure _
  · exact .bind .advance fun _ => .bind (.accept _) fun _ => .bind (.number _) fun _ => .pure _
  · exact .bind .advance fun _ => .pure _
  · exact .bind .advance fun _ => .pure _
  · exact .bind .advance fun _ => .bind (.keyword _) fun _ => .bind (.identifier _) fun _ => .pure _
  · exact .pure (by simp)

lemma made_keyName? (kind : KeyKind) (constraint? : Option String) :
    Made (keyName? kind constraint?) := by
  unfold keyName?
  split
  · exact .pure _
  · refine .bind .next fun l => ?_
    split
    · exact .pure _
    · refine .bind (.atWord _) fun b => ?_
      split
      · exact .pure _
      · exact .bind (.identifier _) fun _ => .pure _

lemma made_key (constraint? : Option String) : Made (key constraint?) := by
  refine .bind made_keyKind fun kind => .bind (made_keyName? kind constraint?) fun name? =>
    .bind (.acceptWord _) fun b => ?_
  have hparts (method? : Option String) : Made (do
      expect .openParen "`(` opening the key column list"
      let parts ← separated keyPart
      expect .closeParen "`,` or `)` in the key column list"
      repeated nextKeyAttribute ⟨kind, name?, parts, method?, none⟩) :=
    .bind (.expect _ _) fun _ => .bind (.separated made_keyPart) fun _ => .bind (.expect _ _) fun _ =>
      .repeated advances_nextKeyAttribute _
  dsimp only
  split
  · exact .bind (.map _ made_keyMethod) hparts
  · exact .bind (.pure _) hparts

/-! ### Definitions and options -/

lemma made_addKey (t : Table) (constraint? : Option String) : Made (addKey t constraint?) :=
  .bind (made_key constraint?) fun _ => .pure _

lemma made_addConstraint (t : Table) (start : Cursor) : Made (addConstraint t start) :=
  .bind (.restOfDefinition start) fun _ => .pure _

lemma made_constraint (t : Table) (start : Cursor) : Made (constraint t start) := by
  unfold constraint
  refine .bind .upperWord? fun word? => ?_
  extract_lets body
  have hbody (name? : Option String) : Made (body name?) := by
    refine .bind .upperWord? fun word? => ?_
    split
    · exact made_addKey t name?
    · exact made_addKey t name?
    · exact made_addConstraint t start
    · exact made_addConstraint t start
    · exact .expected _
  split
  · exact .bind (.pure _) hbody
  · exact .bind (.map _ (.identifier _)) hbody

lemma made_definition (real : FloatSize) (t : Table) : Made (definition real t) := by
  refine .bind .get fun start => .bind .upperWord? fun word? => ?_
  split
  · exact .bind .advance fun _ => made_constraint t start
  iterate 6 exact made_addKey t none
  · exact made_addConstraint t start
  · exact made_addConstraint t start
  · exact made_column real t

lemma advances_nextDefinition (real : FloatSize) (t : Table) :
    Advances (fun _ => True) (·.isSome = true) (nextDefinition real t) :=
  .accept_bind (by simp) (.bind (made_definition real t) fun _ => .pure _) (.pure (by simp))

lemma advances_nextOption (os : TableOptions) :
    Advances (fun _ => True) (·.isSome = true) (nextOption os) := by
  unfold nextOption
  extract_lets body
  have hbody (u : Unit) : Advances (fun _ => True) (·.isSome = true) (body u) := by
    refine .bind_right .atEnd fun b => ?_
    split
    · exact .pure (by simp)
    · refine .bind_right .get fun c => ?_
      split
      · exact .expected _
      · -- the words of an option may be none, its value is a token
        refine .bind_right (.acceptWords _) fun _ => .bind_right (.accept _) fun _ =>
          .bind (.taking rfl) fun v => ?_
        split
        · exact .fault _ _
        · split
          · exact .fault _ _
          · exact .pure _
  split
  · exact .bind_right (.accept _) fun _ => hbody ()
  · exact hbody ()

lemma made_createTable (real : FloatSize) : Made (createTable real) := by
  unfold createTable
  refine .bind (.keyword _) fun _ => .bind (.acceptWord _) fun temporary => .bind (.keyword _)
    fun _ => .bind (.acceptWord _) fun ifNotExists => ?_
  extract_lets body
  have hbody (u : Unit) : Made (body u) := by
    refine .bind made_tableName fun name => .bind (.expect _ _) fun _ =>
      .bind (made_definition real _) fun t => .bind (.repeated (advances_nextDefinition real) t)
        fun t => .bind (.expect _ _) fun _ => .bind (.repeated advances_nextOption _) fun options =>
          .bind .ending fun _ => ?_
    split
    · exact .pure _
    · exact .fault _ _
  split
  · exact .bind (.keyword _) fun _ => .bind (.keyword _) hbody
  · exact hbody ()

/-! ### Grants -/

lemma made_privilegeName : Made privilegeName := by
  refine .bind .get fun c => ?_
  split
  · exact .bind (.acceptWords _) fun _ => .pure _
  · refine .bind .upperWord? fun word? => ?_
    split
    · split
      · exact .bind .advance fun _ => .pure _
      · exact .expected _
    · exact .expected _

lemma made_privilege : Made privilege := by
  refine .bind made_privilegeName fun name => .bind (.accept _) fun b => ?_
  split
  · exact .bind (.separated (.identifier _)) fun _ => .bind (.expect _ _) fun _ => .pure _
  · exact .pure _

lemma made_levelPart : Made levelPart := by
  refine .bind (.accept _) fun b => ?_
  split
  · exact .pure _
  · exact .identifier _

lemma made_level : Made level := by
  refine .bind made_levelPart fun first => .bind (.accept _) fun b => ?_
  split
  · exact .bind made_levelPart fun _ => .pure _
  · exact .pure _

lemma made_objectKind? : Made objectKind? := by
  refine .bind .upperWord? fun word? => ?_
  split
  · exact .bind .advance fun _ => .pure _
  · exact .bind .advance fun _ => .pure _
  · exact .bind .advance fun _ => .pure _
  · exact .pure _

lemma made_account : Made account := by
  refine .bind (.taking _ _) fun user => .bind (.accept _) fun b => ?_
  split
  · exact .bind (.taking _ _) fun _ => .pure _
  · exact .pure _

lemma made_grants (verb : GrantVerb) : Made (grants verb) := by
  refine .bind (.keyword _) fun _ => .bind (.separated made_privilege) fun listed =>
    .bind (.keyword _) fun _ => .bind made_objectKind? fun objectKind => .bind made_level fun level =>
      .bind (.keyword _) fun _ => .bind (.separated made_account) fun accounts => ?_
  have hend (privileges : Privileges) : Made (do
      ending
      return accounts.map fun account =>
        (⟨verb, account, objectKind, level.1, level.2, privileges⟩ : Grant)) :=
    .bind .ending fun _ => .pure _
  have hoption (withOption : Bool) (privileges : Privileges) : Made (do
      let privileges ← if withOption then do
          if ← acceptWords ["GRANT", "OPTION"] then
            pure (privileges.insert Grant.grantOption .whole)
          else Parse.expected "GRANT OPTION"
        else pure privileges
      ending
      return accounts.map fun account =>
        (⟨verb, account, objectKind, level.1, level.2, privileges⟩ : Grant)) := by
    dsimp only
    split
    · refine .bind (.acceptWords _) fun b => ?_
      split
      · exact .bind (.pure _) hend
      · exact .bind (.expected _) hend
    · exact .bind (.pure _) hend
  dsimp only
  split
  · exact .bind (.acceptWord _) fun withOption => hoption withOption _
  · exact .bind (.pure _) fun withOption => hoption withOption _

/-! ### Accounts -/

lemma made_password : Made password := by
  refine .bind (.acceptWords _) fun b => ?_
  split
  · exact .pure _
  · exact .bind (.acceptWord _) fun _ => .bind (.string _) fun _ => .pure _

lemma made_credentials : Made credentials := by
  refine .bind (.acceptWord _) fun b => ?_
  split
  · refine .bind (.acceptWord _) fun b => ?_
    split
    · have hretained (u : Unit) : Made (do
          let _ ← acceptWords ["RETAIN", "CURRENT", "PASSWORD"]
          return ()) := .bind (.acceptWords _) fun _ => .pure _
      refine .bind made_password fun _ => .bind (.acceptWord _) fun b => ?_
      dsimp only
      split
      · exact .bind (.string _) fun _ => hretained ()
      · exact hretained ()
    · refine .bind (.acceptWord _) fun b => ?_
      split
      · refine .bind (.value _) fun _ => .bind (.acceptWord _) fun b => ?_
        split
        · exact made_password
        · refine .bind (.acceptWord _) fun b => ?_
          split
          · exact .bind (.string _) fun _ => .pure _
          · exact .pure _
      · exact .expected _
  · exact .pure _

lemma made_declaredAccount : Made declaredAccount :=
  .bind made_account fun _ => .bind made_credentials fun _ => .pure _

lemma advances_property (otherwise : String) (c : Certificate) :
    Advances Cursor.Unended (fun _ => True) (property otherwise c) := by
  refine .upperWord?_bind (fun name => ?_) (.expected _)
  dsimp only
  split
  · refine .bind .advance fun _ => .bind (.string _) fun value => ?_
    split
    · exact .pure _
    · exact .fault _ _
  · exact .expected _

lemma advances_nextProperty (c : Certificate) :
    Advances (fun _ => True) (·.isSome = true) (nextProperty c) := by
  refine .acceptWord_bind (.bind (advances_property _ c).made fun _ => .pure _)
    (.upperWord?_bind (fun w => ?_) (.pure (by simp)))
  split
  · exact .bind (advances_property _ c) fun _ => .pure _
  · exact .bind (advances_property _ c) fun _ => .pure _
  · exact .bind (advances_property _ c) fun _ => .pure _
  · exact .pure (by simp)

lemma made_transport : Made transport := by
  refine .bind .upperWord? fun word? => ?_
  split
  · exact .bind .advance fun _ => .pure _
  · exact .bind .advance fun _ => .pure _
  · exact .bind .advance fun _ => .pure _
  · exact .bind (advances_property _ _).made fun first =>
      .bind (.repeated advances_nextProperty first) fun _ => .pure _

lemma made_condition (verb : AccountVerb) : Made (condition verb) := by
  refine .bind (.acceptWord _) fun b => ?_
  split
  · have hexists (u : Unit) : Made (do
        keyword "EXISTS"
        return true) := .bind (.keyword _) fun _ => .pure _
    dsimp only
    split
    · exact .bind (.keyword _) hexists
    · exact hexists ()
  · exact .pure _

lemma made_defaultRoles : Made defaultRoles := by
  refine .bind (.acceptWord _) fun b => ?_
  split
  · exact .bind (.keyword _) fun _ => .bind (.separated made_account) fun _ => .pure _
  · exact .pure _

lemma made_accounts : Made accounts := by
  have hclauses (verb : AccountVerb) : Made (do
      keyword "USER"
      let conditional ← condition verb
      let accounts ← separated declaredAccount
      defaultRoles
      let transport? ← if ← acceptWord "REQUIRE" then some <$> transport else pure none
      skipToEnd
      ending
      return accounts.map fun account =>
        (⟨verb, account, conditional, transport?⟩ : AccountClause)) := by
    refine .bind (.keyword _) fun _ => .bind (made_condition verb) fun conditional =>
      .bind (.separated made_declaredAccount) fun accounts => .bind made_defaultRoles fun _ =>
        .bind (.acceptWord _) fun required => ?_
    have hend (transport? : Option Transport) : Made (do
        skipToEnd
        ending
        return accounts.map fun account =>
          (⟨verb, account, conditional, transport?⟩ : AccountClause)) :=
      .bind .skipToEnd fun _ => .bind .ending fun _ => .pure _
    dsimp only
    split
    · exact .bind (.map _ made_transport) hend
    · exact .bind (.pure _) hend
  refine .bind (.acceptWord _) fun create => ?_
  dsimp only
  split
  · exact .bind (.pure _) hclauses
  · exact .bind (.keyword _) fun _ => .bind (.pure _) hclauses

end Grammar

end SchemaDrift
