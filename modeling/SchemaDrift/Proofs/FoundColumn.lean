import Mathlib
import SchemaDrift.Proofs.CharsetName
import SchemaDrift.Proofs.Finding
import SchemaDrift.Proofs.WrittenKey

/-!
Columns as they are found. Whatever a definition says, its numbers are within their bounds, its
names of character sets are canonical, and its expressions are groups.
-/

namespace SchemaDrift

open Parse Grammar

/-! ### Types -/

/-- The grammar has such types, with canonical encodings. -/
structure ColumnType.Found (t : ColumnType) : Prop where
  allowed : t.Allowed
  encoding : ∀ e ∈ t.encoding?, e.Canonical

lemma canonical_none : Encoding.none.Canonical := ⟨by simp [Encoding.none], by simp [Encoding.none]⟩

lemma ColumnType.Found.mapFlags {t : ColumnType} (h : t.Found) (f : NumberFlags → NumberFlags) :
    (t.mapFlags f).Found := by
  obtain ⟨hallowed, hencoding⟩ := h
  cases t <;> exact ⟨hallowed, hencoding⟩

namespace Grammar

lemma finds_optionalDigits : Finds optionalDigits fun d? => ∀ d ∈ d?, d.1 ≤ Text.max32 ∧
    ∀ s ∈ d.2, s ≤ Text.max32 := by
  have hclose {p : Nat} (hp : p ≤ Text.max32) {s? : Option Nat} (hs : ∀ s ∈ s?, s ≤ Text.max32) :
      Finds (do
          expect .closeParen "`)` closing the precision"
          return some (p, s?))
        fun d? => ∀ d ∈ d?, d.1 ≤ Text.max32 ∧ ∀ s ∈ d.2, s ≤ Text.max32 :=
    .bind .expect fun _ _ => .pure (by rintro _ ⟨⟩; exact ⟨hp, hs⟩)
  refine .bind .accept fun b _ => ?_
  split
  · refine .bind .number fun p hp => .bind .accept fun b _ => ?_
    dsimp only
    split
    · refine .bind (.map (S := fun s? => ∀ s ∈ s?, s ≤ Text.max32) .number ?_) fun _ => hclose hp
      rintro _ hs _ ⟨⟩
      exact hs
    · exact .bind (.pure (R := (· = none)) rfl) fun s? hs => hclose hp (by simp [hs])
  · exact .pure (by simp)

lemma finds_decimalType : Finds decimalType ColumnType.Found := by
  refine .bind finds_optionalDigits fun d? _ => ?_
  split
  rename_i p s _
  split
  · exact .fault _ _
  · split
    · exact .fault _ _
    · rename_i hprecision hscale
      simp only [Bool.or_eq_true, decide_eq_true_eq, not_or, not_lt] at hprecision hscale
      exact .pure ⟨⟨hprecision.1, hprecision.2, hscale.1, hscale.2⟩, by simp [ColumnType.encoding?]⟩

lemma found_floating {size : FloatSize} {digits : Option (Nat × Nat)}
    (h : ∀ d ∈ digits, d.1 ≤ Text.max32 ∧ d.2 ≤ Text.max32) :
    (ColumnType.floating size digits .none).Found := ⟨h, by simp [ColumnType.encoding?]⟩

lemma finds_floatType : Finds floatType ColumnType.Found := by
  refine .bind finds_optionalDigits fun d? hd => ?_
  split
  · exact .pure (found_floating (by simp))
  · obtain ⟨hp, hs⟩ := hd _ rfl
    exact .pure (found_floating (by rintro _ ⟨⟩; exact ⟨hp, hs _ rfl⟩))
  · split
    · exact .pure (found_floating (by simp))
    · split
      · exact .pure (found_floating (by simp))
      · exact .fault _ _

lemma finds_floatingType (size : FloatSize) : Finds (floatingType size) ColumnType.Found := by
  refine .bind finds_optionalDigits fun d? hd => ?_
  split
  · exact .pure (found_floating (by simp))
  · obtain ⟨hp, hs⟩ := hd _ rfl
    exact .pure (found_floating (by rintro _ ⟨⟩; exact ⟨hp, hs _ rfl⟩))
  · exact .fault _ _

lemma finds_stringType (padded : Bool) {content : Content} {charset? : Option String}
    (h : ∀ n ∈ charset?, content = .text ∧ Charset.canonical n = n) :
    Finds (stringType padded content charset?) ColumnType.Found := by
  have hfound {length : Nat} (hlength : length ≤ Text.max32) :
      (ColumnType.string padded content length ⟨charset?, none⟩).Found := by
    refine ⟨⟨hlength, fun hbytes => ?_⟩, ?_⟩
    · rcases charset? with _ | n
      · rfl
      · rw [(h n rfl).1] at hbytes
        cases hbytes
    · rintro _ ⟨⟩
      exact ⟨fun n hn => (h n hn).2, by simp⟩
  refine .bind .optionalNumber fun n? hn => ?_
  split
  · exact .pure (hfound (hn _ rfl))
  · split
    · exact .pure (hfound (by decide))
    · exact .expected _

lemma finds_choiceType (kind : ChoiceKind) : Finds (choiceType kind) ColumnType.Found := by
  refine .bind .expect fun _ _ => .bind (.separated .string) fun members hmembers =>
    .bind .expect fun _ _ => .pure ⟨hmembers.1, ?_⟩
  rintro _ ⟨⟩
  exact canonical_none

lemma finds_clockType (kind : ClockKind) : Finds (clockType kind) ColumnType.Found := by
  refine .bind .optionalNumber fun n? _ => ?_
  dsimp only
  split
  · exact .fault _ _
  · rename_i hfraction
    exact .pure ⟨not_lt.1 hfraction, by simp [ColumnType.encoding?]⟩

lemma canonical_national : ∀ n ∈ some nationalCharset, Content.text = .text ∧
    Charset.canonical n = n := by
  rintro _ ⟨⟩
  exact ⟨rfl, by decide⟩

lemma finds_nationalType : Finds nationalType ColumnType.Found := by
  have hstring (padded : Bool) := finds_stringType padded canonical_national
  refine .bind .upperWord? fun word? _ => ?_
  split
  · exact .bind .advance fun _ _ => hstring false
  · exact .bind .advance fun _ _ => .bind .acceptWord fun varying _ => hstring _
  · exact .bind .advance fun _ _ => .bind .acceptWord fun varying _ => hstring _
  · exact .expected _

lemma found_lob {size : LobSize} {content : Content} :
    (ColumnType.lob size content .none).Found := by
  refine ⟨fun _ => rfl, ?_⟩
  rintro _ ⟨⟩
  exact canonical_none

lemma finds_typeBody (real : FloatSize) (head : TypeHead) :
    Finds (typeBody real head) ColumnType.Found := by
  have hnational (padded : Bool) := finds_stringType padded canonical_national
  have hstring (padded : Bool) (content : Content) :
      Finds (stringType padded content none) ColumnType.Found :=
    finds_stringType padded (by simp)
  cases head with
  | integer size =>
    exact .bind .optionalNumber fun n? hn => .pure ⟨hn, by simp [ColumnType.encoding?]⟩
  | boolean => exact .pure ⟨by rintro _ ⟨⟩; decide, by simp [ColumnType.encoding?]⟩
  | decimal => exact finds_decimalType
  | float => exact finds_floatType
  | floating size => exact finds_floatingType size
  | double => exact .bind .acceptWord fun _ _ => finds_floatingType .double
  | real => exact finds_floatingType real
  | char => exact .bind .acceptWord fun varying _ => hstring (!varying) .text
  | nationalChar =>
    refine .bind .acceptWord fun b _ => ?_
    split
    · exact hnational false
    · exact .bind .acceptWord fun varying _ => hnational _
  | nationalVarchar => exact hnational false
  | national => exact finds_nationalType
  | string padded content => exact hstring padded content
  | lob size content => exact .pure found_lob
  | sizedLob content =>
    refine .bind .optionalNumber fun n? _ => ?_
    split <;> exact .pure found_lob
  | long =>
    refine .bind .acceptWord fun b _ => ?_
    split
    · exact .pure found_lob
    · exact .bind .acceptWord fun _ _ => .pure found_lob
  | choice kind => exact finds_choiceType kind
  | clock kind => exact finds_clockType kind
  | bit => exact .bind .optionalNumber fun n? hn => .pure ⟨hn, by simp [ColumnType.encoding?]⟩
  | year => exact .bind .optionalNumber fun _ _ => .pure ⟨trivial, by simp [ColumnType.encoding?]⟩

lemma finds_modifier (f : NumberFlags) : Finds (modifier f) fun _ => True := by
  refine .bind .acceptWord fun _ _ => ?_
  split
  · exact .pure trivial
  · refine .bind .acceptWord fun _ _ => ?_
    split
    · exact .pure trivial
    · refine .bind .acceptWord fun _ _ => ?_
      split <;> exact .pure trivial

theorem finds_columnType (real : FloatSize) : Finds (columnType real) ColumnType.Found := by
  refine .bind .upperWord? fun word? _ => ?_
  split
  · exact .expected _
  · refine .bind .advance fun _ _ => ?_
    split
    · refine .bind (finds_typeBody real _) fun type htype => ?_
      split
      · have hflags : Finds (repeated modifier .none) fun _ => True :=
          .repeated (fun f _ => (finds_modifier f).mono fun _ _ _ _ => trivial) trivial
        exact .bind hflags fun flags _ => .pure (htype.mapFlags _)
      · exact .pure htype
    · split
      · exact .pure ⟨trivial, by simp [ColumnType.encoding?]⟩
      · exact .fault _ _

/-! ### Defaults -/

lemma finds_momentDigits : Finds momentDigits (· ≤ Text.max32) := by
  have hzero : 0 ≤ Text.max32 := by decide
  refine .bind .accept fun b _ => ?_
  split
  · refine .bind .next fun l _ => ?_
    dsimp only
    split
    · exact .bind .number fun _ hn => .bind .expect fun _ _ => .pure hn
    · refine .bind (.pure (R := (· ≤ Text.max32)) hzero) fun _ hn => ?_
      exact .bind .expect fun _ _ => .pure hn
  · exact .pure hzero

lemma finds_wordDefault (word : String) : Finds (wordDefault word) DefaultValue.Grammatical := by
  have hvalue (text : String) : DefaultValue.Grammatical (.value text) := trivial
  have hmoment : Finds (do
      advance
      return DefaultValue.now (← momentDigits)) DefaultValue.Grammatical :=
    .bind .advance fun _ _ => .bind finds_momentDigits fun _ hn => .pure hn
  unfold wordDefault
  split
  · exact .bind .advance fun _ _ => .pure trivial
  · exact .bind .advance fun _ _ => .pure (hvalue "1")
  · exact .bind .advance fun _ _ => .pure (hvalue "0")
  · exact hmoment
  · exact hmoment
  · exact hmoment
  · exact hmoment
  · refine .bind .get fun c _ => ?_
    split
    · split
      · exact .bind .advance fun _ _ => .bind .advance fun _ _ => .pure (hvalue _)
      · exact .expected _
    · exact .expected _

lemma lexes_literal {c : Cursor} (hc : c.OnText) {text : String}
    (h : c.lexemeAt 0 = .literal text) : (DefaultValue.literal text).Grammatical := by
  obtain ⟨cs, hcs⟩ := hc
  obtain ⟨rest, d, more, -, hread⟩ := hcs.exists_lexes (by simp [h])
  rw [h] at hread
  exact fun rest' hrest' => lexes_of_read hread (.inr (.inr rfl)) hrest'

lemma finds_defaultValue : Finds defaultValue DefaultValue.Grammatical := by
  have hvalue (text : String) : DefaultValue.Grammatical (.value text) := trivial
  refine .next_bind fun l => ?_
  cases l with
  | literal text =>
    rintro c v c' ⟨hc, hl⟩ h
    obtain ⟨rfl, rfl⟩ := Prod.mk.inj (Except.ok.inj h)
    exact ⟨hc.advance, lexes_literal hc hl⟩
  | string text | number text => exact Finds.at_next (.bind .advance fun _ _ => .pure (hvalue text))
  | openParen => exact Finds.at_next (.bind .balanced fun _ hs => .pure hs)
  | word word => exact Finds.at_next (finds_wordDefault word)
  | other sign =>
    refine Finds.at_next ?_
    dsimp only
    split
    · refine .bind (Q := fun _ => True) .advance fun _ _ =>
        .bind (Q := fun _ => True) (.taking fun _ _ _ => trivial) fun text _ => ?_
      exact .pure (hvalue _)
    · exact .expected _
  | _ => exact Finds.at_next (.expected _)

/-! ### Attributes -/

/-- Everything that the attributes of a column say is as the grammar has it. -/
structure ColumnDraft.Grammatical (d : ColumnDraft) : Prop where
  column : d.column.Grammatical
  charset : ∀ n ∈ d.charset?, Charset.canonical n = n
  collation : ∀ n ∈ d.collation?, Charset.canonicalCollation n = n
  keys : ∀ k ∈ d.keys, k.Grammatical
  constraints : ∀ s ∈ d.constraints, OpensNoLine s.toList → IsConstraint s

namespace ColumnDraft.Grammatical

variable {d : ColumnDraft}

lemma ofType {type : ColumnType} (h : type.Found) (name : String) :
    (ColumnDraft.ofColumn (.ofType name type)).Grammatical where
  column := ⟨h.allowed, h.encoding, by simp [Column.ofType, ofColumn],
    by simp [Column.ofType, ofColumn]⟩
  charset := by simp [ofColumn]
  collation := by simp [ofColumn]
  keys := by simp [ofColumn]
  constraints := by simp [ofColumn]

lemma addKey (h : d.Grammatical) (kind : KeyKind) : (d.addKey kind).Grammatical := by
  refine { h with keys := fun k hk => ?_ }
  rcases List.mem_append.1 hk with hk | hk
  · exact h.keys k hk
  · obtain rfl := List.mem_singleton.1 hk
    refine ⟨fun _ => rfl, by simp [Key.ofParts], ?_, by simp [Key.ofParts]⟩
    intro p hp
    obtain rfl := List.mem_singleton.1 hp
    exact ⟨by simp [KeyPart.ofColumn], by simp [KeyPart.ofColumn]⟩

lemma addCheck (h : d.Grammatical) {condition : String}
    (hcondition : OpensNoLine condition.toList → IsGroup condition) : ColumnDraft.Grammatical
      { d with constraints := d.constraints ++ ["CHECK (" ++ condition ++ ")"] } := by
  refine { h with constraints := fun s hs hplain => ?_ }
  rcases List.mem_append.1 hs with hs | hs
  · exact h.constraints s hs hplain
  · obtain rfl := List.mem_singleton.1 hs
    refine isConstraint_check (hcondition (hplain.of_infix ?_))
    exact ⟨"CHECK (".toList, ")".toList, by simp⟩

end ColumnDraft.Grammatical

lemma finds_charsetName : Finds charsetName fun n => Charset.canonical n = n :=
  .map .value fun name _ => Charset.canonical_canonical name

lemma finds_columnAttribute {d : ColumnDraft} (h : d.Grammatical) (word : String) :
    Finds (columnAttribute d word) ColumnDraft.Grammatical := by
  have hsame : Finds (pure d) ColumnDraft.Grammatical := .pure h
  have hcharset : Finds (do
      let n ← charsetName
      return { d with charset? := some n }) ColumnDraft.Grammatical :=
    .bind finds_charsetName fun n hn => .pure { h with charset := by rintro _ ⟨⟩; exact hn }
  have hkey (kind : KeyKind) : Finds (pure (d.addKey kind)) ColumnDraft.Grammatical :=
    .pure (h.addKey kind)
  have hcolumn := h.column
  unfold columnAttribute
  split
  · exact .bind .advance fun _ _ => .bind .keyword fun _ _ =>
      .pure { h with column := { hcolumn with } }
  · exact .bind .advance fun _ _ => .pure { h with column := { hcolumn with } }
  · exact .bind .advance fun _ _ => .bind finds_defaultValue fun v hv =>
      .pure { h with column := { hcolumn with default := by rintro _ ⟨⟩; exact hv } }
  · exact .bind .advance fun _ _ => .pure { h with column := { hcolumn with } }
  · exact .bind .advance fun _ _ => .bind .string fun text _ =>
      .pure { h with column := { hcolumn with } }
  · refine .bind .advance fun _ _ => .bind .keyword fun _ _ => ?_
    refine .bind finds_defaultValue fun v hv => ?_
    split
    · exact .pure { h with column := { hcolumn with onUpdate := by rintro _ ⟨⟩; exact hv } }
    · exact .fault _ _
  · exact .bind .advance fun _ _ => .bind .keyword fun _ _ => hcharset
  · exact .bind .advance fun _ _ => hcharset
  · refine .bind .advance fun _ _ => .bind .value fun name _ => .pure { h with collation := ?_ }
    rintro _ ⟨⟩
    exact Charset.canonicalCollation_canonicalCollation name
  · exact .bind .advance fun _ _ => .bind .keyword fun _ _ => hkey .primary
  · exact .bind .advance fun _ _ => hkey .primary
  · exact .bind .advance fun _ _ => .bind .acceptWord fun _ _ => hkey .unique
  · exact .bind .advance fun _ _ => .bind .balanced fun s hs => .pure (h.addCheck hs)
  · exact .bind .advance fun _ _ => .bind .value fun _ _ => hsame
  · exact .bind .advance fun _ _ => .bind .value fun _ _ => hsame
  · exact .bind .advance fun _ _ => hsame
  · exact .bind .advance fun _ _ => hsame
  · exact .expected _

lemma finds_attributes {d : ColumnDraft} (h : d.Grammatical) :
    Finds (repeated nextAttribute d) ColumnDraft.Grammatical := by
  refine .repeated (fun d h => ?_) h
  have hnone : Finds (pure none) fun r : Option ColumnDraft => ∀ d' ∈ r, d'.Grammatical :=
    .pure (by simp)
  refine .bind .next fun l _ => ?_
  split
  · exact hnone
  · exact hnone
  · exact hnone
  · exact hnone
  · refine .bind .upperWord? fun word? _ => ?_
    split
    · exact .bind (finds_columnAttribute h _) fun d' hd' => .pure (by rintro _ ⟨⟩; exact hd')
    · exact .expected _

lemma ColumnDraft.Grammatical.encoded {d : ColumnDraft} (h : d.Grammatical)
    (htextual : d.column.type.isTextual = true) :
    Column.Grammatical { d.column with type := d.encodedType } := by
  obtain ⟨hcolumn, hcharset, hcollation, -, -⟩ := h
  obtain ⟨⟨name, type, nullable, default?, autoIncrement, comment?, onUpdate?, ordinal, place⟩,
    charset?, collation?, keys, constraints⟩ := d
  have hcanonical (e : Encoding) (he : e.Canonical) : Encoding.Canonical
      ⟨charset?.orElse fun _ => e.charset, collation?.orElse fun _ => e.collation⟩ := by
    constructor
    · rcases charset? with _ | n
      · exact he.charset
      · exact hcharset
    · rcases collation? with _ | n
      · exact he.collation
      · exact hcollation
  have hencoding := hcolumn.encoding
  have hallowed := hcolumn.type
  cases type with
  | string padded content length e =>
    obtain rfl : content = .text := by simpa [ColumnType.isTextual] using htextual
    refine { hcolumn with type := ⟨hallowed.1, by simp⟩, encoding := ?_ }
    rintro _ ⟨⟩
    exact hcanonical e (hencoding e rfl)
  | lob size content e =>
    obtain rfl : content = .text := by simpa [ColumnType.isTextual] using htextual
    refine { hcolumn with type := fun h => absurd h (by decide), encoding := ?_ }
    rintro _ ⟨⟩
    exact hcanonical e (hencoding e rfl)
  | choice kind members e =>
    refine { hcolumn with type := hallowed, encoding := ?_ }
    rintro _ ⟨⟩
    exact hcanonical e (hencoding e rfl)
  | _ => simp [ColumnType.isTextual] at htextual

/-- **Columns are found as the grammar has them**, with the keys and constraints among their
attributes. -/
theorem finds_column (real : FloatSize) (t : Table) : Finds (column real t) fun t' =>
    ∃ d : ColumnDraft, d.Grammatical ∧ t' = { t with
      columns := t.columns ++ [d.column]
      keys := t.keys ++ d.keys
      constraints := t.constraints ++ d.constraints } := by
  refine .bind .identifier fun name _ => .bind (finds_columnType real) fun type htype =>
    .bind (finds_attributes (.ofType htype name)) fun d hd => ?_
  split
  · exact .fault _ _
  · rename_i hrefused
    by_cases hnames : d.namesEncoding = true
    · have htextual : d.column.type.isTextual = true := by simpa [hnames] using hrefused
      rw [if_pos hnames]
      exact .pure ⟨{ d with column := _ }, { hd with column := hd.encoded htextual }, rfl⟩
    · rw [if_neg hnames]
      exact .pure ⟨d, hd, rfl⟩

end Grammar

end SchemaDrift
