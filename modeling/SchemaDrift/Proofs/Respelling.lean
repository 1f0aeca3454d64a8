import Mathlib
import SchemaDrift.Proofs.Convergence
import SchemaDrift.Proofs.KeyNaming

/-!
What a server makes of a declaration without changing it. It leaves out the width of integers,
writes out defaults and encodings, gives names to keys and has its own letter case. A table compared
with such a respelling of itself has no drift.
-/

namespace SchemaDrift

open Text (lower)
open TablePair (impliedSetting? sameSetting keyNamed? columnNames sameColumn)

/-! ### Respellings -/

/-- `e` names the character set and the collation of `inherited`, under any of their names. -/
structure Encoding.Names (e inherited : Encoding) : Prop where
  charset : e.charset.map Charset.canonical = inherited.charset
  collation : e.collation.map Charset.canonicalCollation =
    inherited.collation.map Charset.canonicalCollation

/-- A type is respelled by itself, by another width where zeros do not fill it up, or by the
encoding that it takes from the table. -/
inductive ColumnType.Respells (inherited : Encoding) : ColumnType → ColumnType → Prop where
  | same (t : ColumnType) : Respells inherited t t
  | width (size : IntegerSize) (width width' : Option Nat) {flags : NumberFlags}
      (hflags : flags.zerofill = false) :
      Respells inherited (.integer size width flags) (.integer size width' flags)
  | encoding {t : ColumnType} {e : Encoding} (htextual : t.isTextual = true)
      (hnone : t.encoding? = some .none) (he : e.Names inherited) :
      Respells inherited t (t.withEncoding e)

structure Column.Respells (inherited : Encoding) (c c' : Column) : Prop where
  name : lower c'.name = lower c.name
  type : c.type.Respells inherited c'.type
  nullable : c'.nullable = c.nullable
  autoIncrement : c'.autoIncrement = c.autoIncrement
  onUpdate? : c'.onUpdate? = c.onUpdate?
  default? : c'.default? = c.default? ∨
    c.nullable = true ∧ c.autoIncrement = false ∧ c'.default?.getD .null = c.default?.getD .null
  comment? : c'.comment?.getD "" = c.comment?.getD ""

/-- A key is respelled up to letter case; without a name it may have the one that the server gives
to it. -/
structure Key.Respells (named : String × Key) (k' : Key) : Prop where
  name? : k'.name?.map lower = named.2.name?.map lower ∨
    named.2.name? = none ∧ k'.name?.map lower = some (lower named.1)
  kind : k'.kind = named.2.kind
  parts : List.Forall₂ (fun p p' => KeyPart.same p' p) named.2.parts k'.parts
  method? : k'.method? = named.2.method?
  comment? : k'.comment?.getD "" = named.2.comment?.getD ""

/-- The option is in the dictionary, and its value is not free text in quotes. -/
def TableOption.isCaseless (name : String) : Bool :=
  (find? name).any fun o => !(o.quoted && o.values = .any)

/-- What may become of the value of an option of `t`. -/
inductive TableOption.Respells (catalog : Catalog) (t : Table) (name : String) :
    Option String → Option String → Prop where
  | same (value? : Option String) : Respells catalog t name value? value?
  | cased {a b : String} (hcaseless : isCaseless name = true) (hab : lower a = lower b) :
      Respells catalog t name (some a) (some b)
  | counter (hname : name = "AUTO_INCREMENT") (a? b? : Option String) :
      Respells catalog t name a? b?
  | impliedAdded {d b : String} (hd : impliedSetting? name = some d)
      (hb : sameSetting name b d = true) : Respells catalog t name none (some b)
  | impliedRemoved {d a : String} (hd : impliedSetting? name = some d)
      (ha : sameSetting name a d = true) : Respells catalog t name (some a) none
  | encodingAdded (hname : name = "CHARSET" ∨ name = "COLLATE")
      (hnone : t.defaultEncoding.isEmpty = true) (b : String) : Respells catalog t name none (some b)
  | collationAdded (hname : name = "COLLATE") {charset b : String}
      (hcharset : t.options.get? "CHARSET" = some charset)
      (hb : catalog.isDefaultCollation charset b = true) : Respells catalog t name none (some b)
  | collationRemoved (hname : name = "COLLATE") {charset a : String}
      (hcharset : t.options.get? "CHARSET" = some charset)
      (ha : catalog.isDefaultCollation charset a = true) : Respells catalog t name (some a) none

/-- `t'` is `t` in a spelling that a server may give to it. -/
structure Table.Respells (catalog : Catalog) (t t' : Table) : Prop where
  columns : List.Forall₂ (Column.Respells (t'.encodingInForce.resolved catalog)) t.columns t'.columns
  keys : List.Forall₂ Key.Respells t.namedKeys t'.keys
  options : ∀ name,
    TableOption.Respells catalog t name (t.options.get? name) (t'.options.get? name)

variable {catalog : Catalog}

lemma exists_of_forall₂ {α β : Type} {R : α → β → Prop} {xs : List α} {ys : List β}
    (h : List.Forall₂ R xs ys) {x : α} (hx : x ∈ xs) : ∃ y ∈ ys, R x y := by
  induction h with
  | nil => cases hx
  | @cons a b xs ys hab _ ih =>
    rcases List.mem_cons.1 hx with rfl | hx
    · exact ⟨b, List.mem_cons_self, hab⟩
    · obtain ⟨y, hy, hxy⟩ := ih hx
      exact ⟨y, List.mem_cons_of_mem _ hy, hxy⟩

/-! ### Encodings -/

lemma map_eq_of_lower {f : String → String} (hf : ∀ {a b}, lower a = lower b → f a = f b)
    {a? b? : Option String} (h : a?.map lower = b?.map lower) : a?.map f = b?.map f := by
  have hlower (c? : Option String) : c?.map f = (c?.map lower).map f := by
    rw [Option.map_map]
    exact congrArg (Option.map · c?) (funext fun c => hf (Text.lower_lower c).symm)
  rw [hlower a?, h, ← hlower b?]

namespace Charset

lemma canonical_of_lower {a b : String} (h : lower a = lower b) : canonical a = canonical b := by
  rw [canonical, canonical, h]

lemma canonicalCollation_of_lower {a b : String} (h : lower a = lower b) :
    canonicalCollation a = canonicalCollation b := by
  rw [canonicalCollation, canonicalCollation, h]

lemma ofCollation_of_lower {a b : String} (h : lower a = lower b) :
    ofCollation a = ofCollation b := by
  rw [ofCollation, ofCollation, canonicalCollation_of_lower h]

end Charset

lemma Catalog.isDefaultCollation_congr {charset a b : String}
    (h : Charset.canonicalCollation a = Charset.canonicalCollation b) :
    catalog.isDefaultCollation charset a = catalog.isDefaultCollation charset b := by
  rw [isDefaultCollation, isDefaultCollation, h]

lemma Catalog.isDefaultCollation_canonical (charset collation : String) :
    catalog.isDefaultCollation (Charset.canonical charset) collation =
      catalog.isDefaultCollation charset collation := by
  simp [isDefaultCollation, find?, Charset.canonical_canonical]

namespace Encoding

/-- A collation in canonical form, unless the character set implies it. -/
def ownCollation? (catalog : Catalog) (charset? collation? : Option String) : Option String :=
  (collation?.map Charset.canonicalCollation).filter fun collation =>
    !charset?.any (catalog.isDefaultCollation · collation)

lemma collation_eq_none {e : Encoding} (h : e.effectiveCharset? = .none) : e.collation = .none := by
  obtain ⟨_ | charset, _ | collation⟩ := e
  · rfl
  · cases h
  · rfl
  · cases h

lemma effectiveCharset?_eq (e : Encoding) : e.effectiveCharset? =
    (e.charset.map Charset.canonical).or (e.collation.map Charset.ofCollation) := by
  rcases h : e.charset <;> simp [effectiveCharset?, h]

lemma isEmpty_eq (e : Encoding) : e.isEmpty = e.effectiveCharset?.isNone := by
  obtain ⟨_ | charset, _ | collation⟩ := e <;> rfl

lemma canonical_eq (e d : Encoding) (catalog : Catalog) : e.canonical d catalog =
    ⟨e.effectiveCharset?.or d.effectiveCharset?,
      ownCollation? catalog (e.effectiveCharset?.or d.effectiveCharset?) (e.collation.or
        (if d.effectiveCharset? = e.effectiveCharset?.or d.effectiveCharset? then d.collation
        else .none))⟩ := by
  have hor : (e.effectiveCharset?.orElse fun _ => d.effectiveCharset?) =
      e.effectiveCharset?.or d.effectiveCharset? := by
    rcases e.effectiveCharset? <;> rfl
  have himplied (charset collation : String) : (if catalog.isDefaultCollation charset collation
      then .none else some collation) =
        (some collation).filter fun collation => !catalog.isDefaultCollation charset collation := by
    rcases h : catalog.isDefaultCollation charset collation <;> simp [h, Option.filter]
  simp only [canonical, hor, ownCollation?]
  generalize hc : e.effectiveCharset?.or d.effectiveCharset? = charset?
  congr 1
  rcases charset? with _ | charset
  · obtain ⟨he, hd⟩ := Option.or_eq_none_iff.1 hc
    simp [collation_eq_none he, collation_eq_none hd]
  · rcases e.collation with _ | collation
    · by_cases hd : d.effectiveCharset? = some charset
      · rcases d.collation with _ | collation
        · simp
        · simp only [hd, Option.isSome_some, decide_true, Bool.and_true, if_true, Option.map_some,
            Option.none_or]
          exact himplied charset _
      · simp [hd]
    · exact himplied charset _

lemma canonical_none (d : Encoding) (catalog : Catalog) : Encoding.none.canonical d catalog =
    ⟨d.effectiveCharset?, ownCollation? catalog d.effectiveCharset? d.collation⟩ := by
  rw [canonical_eq]
  simp [none, effectiveCharset?]

/-- Two defaults mean the same, for whatever is compared under them. -/
structure SameMeaning (catalog : Catalog) (d d' : Encoding) : Prop where
  charset : d.effectiveCharset? = d'.effectiveCharset?
  collation : ownCollation? catalog d.effectiveCharset? d.collation =
    ownCollation? catalog d'.effectiveCharset? d'.collation

lemma SameMeaning.canonical_eq {d d' : Encoding} (h : SameMeaning catalog d d') (e : Encoding) :
    e.canonical d catalog = e.canonical d' catalog := by
  rw [Encoding.canonical_eq, Encoding.canonical_eq, h.charset]
  rcases hc : e.collation with _ | collation
  · have hcollation := h.collation
    rw [h.charset] at hcollation
    split_ifs with he
    · simp [← he, hcollation]
    · rfl
  · rfl

lemma ownCollation?_congr {charset? : Option String} {a? b? : Option String}
    (h : a?.map Charset.canonicalCollation = b?.map Charset.canonicalCollation) :
    ownCollation? catalog charset? a? = ownCollation? catalog charset? b? := by
  rw [ownCollation?, ownCollation?, h]

lemma ownCollation?_of_isDefault {charset : String} {a? : Option String}
    (h : ∀ collation ∈ a?, catalog.isDefaultCollation charset collation = true) :
    ownCollation? catalog (some charset) a? = .none := by
  rcases a? with _ | collation
  · rfl
  · have hcanonical : catalog.isDefaultCollation charset (Charset.canonicalCollation collation) =
        catalog.isDefaultCollation charset collation :=
      Catalog.isDefaultCollation_congr (Charset.canonicalCollation_canonicalCollation collation)
    simp [ownCollation?, Option.filter, hcanonical, h collation rfl]

lemma Names.canonical_eq {rows : List (String × String × Nat)} {e d : Encoding}
    (h : e.Names (d.resolved (.ofReport rows))) :
    e.canonical d (.ofReport rows) = Encoding.none.canonical d (.ofReport rows) := by
  obtain ⟨hcharset, hcollation⟩ := h
  obtain ⟨charset?, collation?⟩ := e
  rcases hd : d.effectiveCharset? with _ | charset
  · simp only [resolved, hd, collation_eq_none hd] at hcharset hcollation
    obtain rfl : charset? = .none := by simpa using hcharset
    obtain rfl : collation? = .none := by simpa using hcollation
    rfl
  · obtain ⟨charset, rfl, rfl⟩ : ∃ c, charset? = some c ∧ Charset.canonical c = charset := by
      simpa [resolved, hd] using hcharset
    have he : effectiveCharset? ⟨some charset, collation?⟩ = some (Charset.canonical charset) := rfl
    rw [Encoding.canonical_eq, he, canonical_none, hd]
    congr 1
    rcases hdc : d.collation with _ | inherited
    · -- The default has the collation that its character set implies, if the catalog knows it.
      simp only [Option.some_or, if_true, Option.or_none]
      refine Eq.trans (ownCollation?_of_isDefault fun collation hc => ?_) (by rfl)
      have hcollation : some (Charset.canonicalCollation collation) =
          ((Catalog.ofReport rows).find? (Charset.canonical charset)).map
            (Charset.canonicalCollation ·.defaultCollation) := by
        obtain rfl : collation? = some collation := by simpa using hc
        simpa [resolved, hd, hdc, Function.comp_def] using hcollation
      obtain ⟨facts, hfacts, hcanonical⟩ := Option.map_eq_some_iff.1 hcollation.symm
      rw [← Charset.canonical_canonical charset,
        Catalog.isDefaultCollation_congr hcanonical.symm]
      exact Catalog.isDefaultCollation_defaultCollation hfacts
    · have hc : collation?.map Charset.canonicalCollation =
          some (Charset.canonicalCollation inherited) := by simpa [resolved, hdc] using hcollation
      obtain ⟨collation, rfl, hc⟩ := Option.map_eq_some_iff.1 hc
      exact ownCollation?_congr (by simp [hc])

end Encoding

namespace TableOption

variable {t : Table}

lemma Respells.lower_charset {a? b? : Option String} (h : Respells catalog t "CHARSET" a? b?)
    (ht : t.defaultEncoding.isEmpty = false) : b?.map lower = a?.map lower := by
  have himplied : impliedSetting? "CHARSET" = none := by decide
  cases h with
  | same => rfl
  | cased hcaseless hab => simp [hab]
  | counter hname => exact absurd hname (by decide)
  | impliedAdded hd | impliedRemoved hd => simp [himplied] at hd
  | encodingAdded hname hnone => simp [ht] at hnone
  | collationAdded hname | collationRemoved hname => exact absurd hname (by decide)

lemma Respells.lower_collation {a? b? : Option String} (h : Respells catalog t "COLLATE" a? b?)
    (ht : t.defaultEncoding.isEmpty = false) : b?.map lower = a?.map lower ∨
      ∃ charset, t.options.get? "CHARSET" = some charset ∧
        (∀ a ∈ a?, catalog.isDefaultCollation (Charset.canonical charset) a = true) ∧
        ∀ b ∈ b?, catalog.isDefaultCollation (Charset.canonical charset) b = true := by
  have himplied : impliedSetting? "COLLATE" = none := by decide
  cases h with
  | same => exact .inl rfl
  | cased hcaseless hab => exact .inl (by simp [hab])
  | counter hname => exact absurd hname (by decide)
  | impliedAdded hd | impliedRemoved hd => simp [himplied] at hd
  | encodingAdded hname hnone => simp [ht] at hnone
  | collationAdded hname hcharset hb =>
    exact .inr ⟨_, hcharset, by simp, by simpa [Catalog.isDefaultCollation_canonical] using hb⟩
  | collationRemoved hname hcharset ha =>
    exact .inr ⟨_, hcharset, by simpa [Catalog.isDefaultCollation_canonical] using ha, by simp⟩

end TableOption

lemma Table.effectiveCharset?_of_charset {t : Table} {charset : String}
    (h : t.options.get? "CHARSET" = some charset) :
    t.defaultEncoding.effectiveCharset? = some (Charset.canonical charset) := by
  simp [defaultEncoding, Encoding.effectiveCharset?, h]

namespace Table.Respells

variable {t t' : Table} (h : t.Respells catalog t')

include h in
lemma effectiveCharset?_eq (ht : t.defaultEncoding.isEmpty = false) :
    t'.defaultEncoding.effectiveCharset? = t.defaultEncoding.effectiveCharset? := by
  have hcharset := map_eq_of_lower Charset.canonical_of_lower
    ((h.options "CHARSET").lower_charset ht)
  rw [Encoding.effectiveCharset?_eq, Encoding.effectiveCharset?_eq]
  simp only [defaultEncoding, hcharset]
  rcases (h.options "COLLATE").lower_collation ht with hlower | ⟨charset, hc, -⟩
  · rw [map_eq_of_lower Charset.ofCollation_of_lower hlower]
  · -- The collation makes no difference beside a character set.
    rw [hc, Option.map_some, Option.some_or, Option.some_or]

include h in
lemma ownCollation?_eq (ht : t.defaultEncoding.isEmpty = false) :
    Encoding.ownCollation? catalog t.defaultEncoding.effectiveCharset?
        (t'.options.get? "COLLATE") =
      Encoding.ownCollation? catalog t.defaultEncoding.effectiveCharset?
        (t.options.get? "COLLATE") := by
  rcases (h.options "COLLATE").lower_collation ht with hlower | ⟨charset, hcharset, ha, hb⟩
  · exact Encoding.ownCollation?_congr (map_eq_of_lower Charset.canonicalCollation_of_lower hlower)
  · rw [effectiveCharset?_of_charset hcharset, Encoding.ownCollation?_of_isDefault hb,
      Encoding.ownCollation?_of_isDefault ha]

include h in
lemma sameMeaning : Encoding.SameMeaning catalog (⟨t', t, catalog⟩ : TablePair).liveEncoding
    (⟨t', t, catalog⟩ : TablePair).declaredEncoding := by
  rcases ht : t.defaultEncoding.isEmpty with _ | _
  · have hcharset := h.effectiveCharset?_eq ht
    have hcollation := h.ownCollation?_eq ht
    have hlive : (⟨t', t, catalog⟩ : TablePair).liveEncoding = t'.defaultEncoding := by
      refine if_neg ?_
      rw [Encoding.isEmpty_eq, hcharset, ← Encoding.isEmpty_eq, ht]
      decide
    have hdeclared : (⟨t', t, catalog⟩ : TablePair).declaredEncoding = t.defaultEncoding := by
      simp [TablePair.declaredEncoding, ht]
    rw [hlive, hdeclared]
    refine ⟨hcharset, ?_⟩
    rw [hcharset]
    exact hcollation
  · have hdeclared : (⟨t', t, catalog⟩ : TablePair).declaredEncoding =
        (⟨t', t, catalog⟩ : TablePair).liveEncoding := by
      simp [TablePair.declaredEncoding, ht]
    rw [hdeclared]
    exact ⟨rfl, rfl⟩

end Table.Respells

/-! ### Columns -/

namespace ColumnType

lemma withEncoding_encoding? (t : ColumnType) : t.withEncoding (t.encoding?.getD .none) = t := by
  cases t <;> rfl

lemma canonical_congr {d d' : Encoding} (h : Encoding.SameMeaning catalog d d') (t : ColumnType) :
    t.canonical d catalog = t.canonical d' catalog := by
  rcases htextual : t.isTextual with _ | _
  · exact canonical_of_not_textual htextual d d' catalog
  · calc t.canonical d catalog
        = (t.withEncoding (t.encoding?.getD .none)).canonical d catalog := by
          rw [withEncoding_encoding?]
      _ = (t.canonical d' catalog).withEncoding
            ((t.encoding?.getD .none).canonical d' catalog) := by
          rw [canonical_withEncoding htextual _ d d', h.canonical_eq]
      _ = t.canonical d' catalog := (withEncoding_canonical_eq_iff htextual).2 rfl

lemma Respells.canonical_eq {rows : List (String × String × Nat)} {inForce : Encoding}
    {t t' : ColumnType} (h : t.Respells (inForce.resolved (.ofReport rows)) t') :
    t'.canonical inForce (.ofReport rows) = t.canonical inForce (.ofReport rows) := by
  cases h with
  | same => rfl
  | width size width width' hflags => simp [canonical, hflags]
  | encoding htextual hnone he =>
    rw [canonical_withEncoding htextual _ _ inForce, he.canonical_eq,
      withEncoding_canonical_eq_iff htextual, hnone]
    rfl

end ColumnType

namespace Column.Respells

variable {inherited : Encoding} {c c' : Column}

lemma effectiveDefault?_eq (h : c.Respells inherited c') :
    c'.effectiveDefault? = c.effectiveDefault? := by
  rw [effectiveDefault?, effectiveDefault?, h.nullable, h.autoIncrement]
  rcases h.default? with hd | ⟨hn, ha, hd⟩
  · rw [hd]
  · rw [hn, ha]
    rcases hc : c.default? with _ | d <;> rcases hc' : c'.default? with _ | d' <;>
      rw [hc, hc'] at hd <;> simp_all

lemma nonemptyComment?_eq (h : c.Respells inherited c') :
    (c'.comment?.filter fun text => !text.isEmpty) =
      c.comment?.filter fun text => !text.isEmpty := by
  have hgetD (comment? : Option String) : (comment?.filter fun text => !text.isEmpty) =
      (some (comment?.getD "")).filter fun text => !text.isEmpty := by
    rcases comment? with _ | text
    · rfl
    · rfl
  rw [hgetD, h.comment?, ← hgetD]

lemma sameColumn {rows : List (String × String × Nat)} {inForce d : Encoding}
    (h : c.Respells (inForce.resolved (.ofReport rows)) c')
    (hd : Encoding.SameMeaning (.ofReport rows) inForce d) :
    sameColumn (TablePair.canonicalColumn (.ofReport rows) inForce c')
      (TablePair.canonicalColumn (.ofReport rows) d c) = true := by
  have hsame := TablePair.sameColumn_self (TablePair.canonicalColumn (.ofReport rows) d c)
  have htype : c'.type.canonical inForce (.ofReport rows) = c.type.canonical d (.ofReport rows) :=
    h.type.canonical_eq.trans (ColumnType.canonical_congr hd c.type)
  simp only [TablePair.sameColumn, TablePair.canonicalColumn, htype, h.effectiveDefault?_eq,
    h.nonemptyComment?_eq, h.nullable, h.autoIncrement, h.onUpdate?] at hsame ⊢
  exact hsame

end Column.Respells

namespace TablePair

variable {t t' : Table} {rows : List (String × String × Nat)} (h : t.Respells (.ofReport rows) t')

include h in
lemma columnNames_respelled : columnNames t' = columnNames t := by
  have hnames := h.columns.imp (S := fun c c' => lower c'.name = lower c.name) fun _ _ h => h.name
  rw [columnNames, columnNames, ← List.forall₂_eq_eq_eq, List.forall₂_map_left_iff,
    List.forall₂_map_right_iff]
  exact hnames.flip

include h in
theorem columnDrifts_respelled (ht : t.WellPlaced) :
    (⟨t', t, .ofReport rows⟩ : TablePair).columnDrifts = [] := by
  have hnames : columnNames t' = columnNames t := columnNames_respelled h
  have hmoved : (⟨t', t, .ofReport rows⟩ : TablePair).movedColumns = [] := by
    rw [List.eq_nil_iff_forall_not_mem]
    intro n hn
    have hn := Moves.mem_moved.1 hn
    rw [hnames, Moves.longestCommon_self] at hn
    exact hn.2 hn.1
  rw [columnDrifts, hmoved, List.append_eq_nil_iff, List.filterMap_eq_nil_iff, List.map_eq_nil_iff,
    List.filter_eq_nil_iff]
  refine ⟨fun c hc => ?_, fun c' hc' => ?_⟩
  · obtain ⟨c', hc', hspelled⟩ := exists_of_forall₂ h.columns hc
    have hfound : t'.column? c.name = some c' :=
      Table.column?_of_mem (hnames ▸ ht.nodup) hc' hspelled.name
    have hsame : sameColumn (canonicalLive ⟨t', t, .ofReport rows⟩ c')
        (canonicalDeclared ⟨t', t, .ofReport rows⟩ c) = true := hspelled.sameColumn h.sameMeaning
    rw [declaredColumnDrift?_eq, hfound]
    simp [hsame]
  · have hdeclared : lower c'.name ∈ columnNames t := by
      rw [← hnames]
      exact List.mem_map_of_mem hc'
    rw [Option.isNone_iff_eq_none, Table.column?_eq_none_iff, not_not]
    exact hdeclared

/-! ### Options -/

lemma optionDrift?_undeclared {name : String} (h : impliedSetting? name = none)
    (live? : Option String) : optionDrift? name live? none = none := by
  rcases live? with _ | a
  · rfl
  · rw [optionDrift?_set_none, h, Option.bind_none]

lemma optionDrift?_of_lower {name : String} (h : TableOption.isCaseless name = true)
    {a? b? : Option String} (hab : a?.map lower = b?.map lower) : optionDrift? name a? b? = none := by
  rcases a? with _ | a <;> rcases b? with _ | b
  · rfl
  · simp at hab
  · simp at hab
  · obtain ⟨o, ho, hfree⟩ := (Option.any_eq_true _ _).1 h
    have hsame : sameSetting name a b = true := by
      have hlower : Text.sameName a b = true := Text.sameName_iff.2 (by simpa using hab)
      rw [sameSetting, ho]
      simp_all [TableOption.sameValue]
    rw [optionDrift?_set_set, if_pos hsame]

include h in
lemma optionDrift?_respelled {name : String} (hcounter : name ≠ "AUTO_INCREMENT")
    (hcollate : name ≠ "COLLATE") :
    optionDrift? name (t'.options.get? name) (t.options.get? name) = none := by
  have hoption := h.options name
  generalize t.options.get? name = a?, t'.options.get? name = b? at hoption
  cases hoption with
  | same =>
    rcases a? with _ | a
    · rfl
    · rw [optionDrift?_set_set, if_pos (sameSetting_self name a)]
  | cased hcaseless hab => exact optionDrift?_of_lower hcaseless (congrArg some hab.symm)
  | counter hname => exact absurd hname hcounter
  | impliedAdded hd hb => rw [optionDrift?_set_none, hd, Option.bind_some, if_pos hb]
  | impliedRemoved hd ha => rw [optionDrift?_none_set, hd, Option.any_some, if_pos ha]
  | encodingAdded hname =>
    obtain rfl := hname.resolve_right hcollate
    exact optionDrift?_undeclared (by decide) _
  | collationAdded hname | collationRemoved hname => exact absurd hname hcollate

include h in
lemma optionDrift?_collate_respelled :
    optionDrift? "COLLATE" ((comparedOptions ⟨t', t, .ofReport rows⟩ t').get? "COLLATE")
      ((comparedOptions ⟨t', t, .ofReport rows⟩ t).get? "COLLATE") = none := by
  rw [get?_comparedOptions_collate, get?_comparedOptions_collate]
  rcases ht : t.defaultEncoding.isEmpty with _ | _
  · rw [h.effectiveCharset?_eq ht]
    refine optionDrift?_of_lower (by decide) ?_
    rcases (h.options "COLLATE").lower_collation ht with hlower | ⟨charset, hcharset, ha, hb⟩
    · generalize t.options.get? "COLLATE" = a?, t'.options.get? "COLLATE" = b? at hlower ⊢
      rcases a? with _ | a <;> rcases b? with _ | b
      · rfl
      · simp at hlower
      · simp at hlower
      · have himplied (charset : String) : (Catalog.ofReport rows).isDefaultCollation charset b =
            (Catalog.ofReport rows).isDefaultCollation charset a :=
          Catalog.isDefaultCollation_congr
            (Charset.canonicalCollation_of_lower (by simpa using hlower))
        simp only [Option.filter, himplied]
        split
        · exact hlower
        · rfl
    · have hfilter {c? : Option String} (hc : ∀ c ∈ c?, (Catalog.ofReport rows).isDefaultCollation
          (Charset.canonical charset) c = true) : (c?.filter fun collation =>
            !(some (Charset.canonical charset)).any fun charset =>
              (Catalog.ofReport rows).isDefaultCollation charset collation) = none := by
        rw [Option.filter_eq_none_iff]
        simpa using hc
      rw [Table.effectiveCharset?_of_charset hcharset, hfilter ha, hfilter hb]
  · have hnone : t.options.get? "COLLATE" = none := by
      simp_all [Encoding.isEmpty, Table.defaultEncoding]
    rw [hnone]
    exact optionDrift?_undeclared (by decide) _

include h in
theorem optionDrifts_respelled : (⟨t', t, .ofReport rows⟩ : TablePair).optionDrifts = [] := by
  rw [optionDrifts, List.filterMap_eq_nil_iff]
  intro name _
  by_cases hname : name = "COLLATE"
  · subst hname
    exact optionDrift?_collate_respelled h
  · rw [get?_comparedOptions _ hname, get?_comparedOptions _ hname]
    by_cases hcounter : name = "AUTO_INCREMENT"
    · simp [hcounter, driftingOptions]
      rfl
    · rw [if_neg (by simpa [driftingOptions] using hcounter),
        if_neg (by simpa [driftingOptions] using hcounter)]
      exact optionDrift?_respelled h hcounter hname

end TablePair

/-! ### Keys -/

namespace Key

/-- A name that is free is still the first free one when other names are taken besides. -/
lemma lower_firstFree {taken taken' : List String} {base base' : String}
    (hbase : lower base' = lower base) (htaken : ∀ x ∈ taken, x ∈ taken') {tries tries' : Nat}
    (htries : tries ≤ tries') {n : Nat} (hfree : lower (firstFree taken base tries n) ∉ taken') :
    lower (firstFree taken' base' tries' n) = lower (firstFree taken base tries n) := by
  induction tries generalizing tries' n with
  | zero =>
    have hnow := lower_candidate hbase n
    cases tries' with
    | zero => exact hnow
    | succ tries' =>
      have hnot : ¬ taken'.contains (lower (candidate base' n)) = true := by
        rw [hnow]
        exact mt List.contains_iff_mem.1 hfree
      rw [firstFree, firstFree, if_neg hnot]
      exact hnow
  | succ tries ih =>
    obtain ⟨tries', rfl⟩ := Nat.exists_eq_succ_of_ne_zero (show tries' ≠ 0 by omega)
    rw [firstFree] at hfree ⊢
    rw [firstFree, lower_candidate hbase]
    by_cases hn : lower (candidate base n) ∈ taken
    · rw [if_pos (List.contains_iff_mem.2 hn)] at hfree ⊢
      rw [if_pos (List.contains_iff_mem.2 (htaken _ hn))]
      exact ih (by omega) hfree
    · rw [if_neg (mt List.contains_iff_mem.1 hn)] at hfree ⊢
      rw [if_neg (mt List.contains_iff_mem.1 hfree)]
      exact lower_candidate hbase n

lemma lower_freshName {taken taken' : List String} {k k' : Key}
    (hparts : List.Forall₂ (fun p p' => KeyPart.same p' p) k.parts k'.parts)
    (htaken : ∀ x ∈ taken, x ∈ taken') (hlength : taken.length ≤ taken'.length)
    (hfree : lower (freshName taken k) ∉ taken') :
    lower (freshName taken' k') = lower (freshName taken k) := by
  refine lower_firstFree ?_ htaken hlength hfree
  rcases hp : k.parts with _ | ⟨p, ps⟩ <;> rcases hp' : k'.parts with _ | ⟨p', ps'⟩ <;>
    rw [hp, hp'] at hparts
  · cases hparts
  · cases hparts
  · have hsame := (List.forall₂_cons.1 hparts).1
    rw [KeyPart.same, Bool.and_assoc, Bool.and_assoc, Bool.and_eq_true] at hsame
    exact Text.sameName_iff.1 hsame.1

/-- The names that respelling gives to keys without one. -/
def givenNames : List (String × Key) → List Key → List String
  | named :: ks, k' :: ks' =>
    if named.2.kind ≠ .primary ∧ named.2.name? = none ∧ k'.name?.isSome then
      lower named.1 :: givenNames ks ks'
    else givenNames ks ks'
  | _, _ => []

lemma perm_ownNames {taken : List String} {ks ks' : List Key}
    (h : List.Forall₂ Respells (named taken ks) ks') :
    (ownNames ks').Perm (ownNames ks ++ givenNames (named taken ks) ks') := by
  induction ks generalizing taken ks' with
  | nil =>
    cases h
    exact .nil
  | cons k ks ih =>
    rw [named_cons] at h ⊢
    by_cases hk : k.kind = .primary
    · rw [if_pos hk] at h ⊢
      cases h with | @cons _ k' _ ks' hspelled h =>
      have hk' : k'.kind = .primary := hspelled.kind.trans hk
      simpa [ownNames_cons, hk, hk', givenNames] using ih h
    · rw [if_neg hk] at h ⊢
      cases h with | @cons _ k' _ ks' hspelled h =>
      have hk' : k'.kind ≠ .primary := fun hp => hk (hspelled.kind.symm.trans hp)
      rw [ownNames_cons, ownNames_cons, if_neg hk, if_neg hk', givenNames]
      rcases hspelled.name? with hname | ⟨hn, hgiven⟩
      · have hnot : ¬ (k.name? = none ∧ k'.name?.isSome) := by
          rintro ⟨hn, hn'⟩
          obtain ⟨n', hn'⟩ := Option.isSome_iff_exists.1 hn'
          simp [hn, hn'] at hname
        rw [if_neg fun hand => hnot hand.2, hname, List.append_assoc]
        exact (ih h).append_left _
      · have hgiven' : k'.name?.isSome := by
          rcases hn' : k'.name? with _ | n'
          · simp [hn'] at hgiven
          · rfl
        have hown : (k.name?.map lower).toList = [] := by rw [hn]; rfl
        rw [if_pos ⟨hk, hn, hgiven'⟩, hown, hgiven]
        exact ((ih h).cons _).trans List.perm_middle.symm

lemma mem_keyNames_of_mem_givenNames {x : String} {ks : List (String × Key)} {ks' : List Key}
    (h : x ∈ givenNames ks ks') : x ∈ keyNames ks := by
  induction ks generalizing ks' with
  | nil => cases h
  | cons k ks ih =>
    cases ks' with
    | nil => cases h
    | cons k' ks' =>
      rw [givenNames] at h
      split at h
      · rcases List.mem_cons.1 h with rfl | h
        · exact List.mem_cons_self
        · exact List.mem_cons_of_mem _ (ih h)
      · exact List.mem_cons_of_mem _ (ih h)

/-- A key without a name gets the same one if the names that later keys are given by respelling are
taken already. -/
lemma lower_freshName_respelled {earlier taken taken' : List String} {k k' : Key}
    {ks ks' : List Key}
    (hparts : List.Forall₂ (fun p p' => KeyPart.same p' p) k.parts k'.parts)
    (hnodup : (earlier ++ lower (freshName taken k) ::
      keyNames (named (lower (freshName taken k) :: taken) ks)).Nodup)
    (htaken : ∀ x ∈ taken, x ∈ earlier ∨ x ∈ ownNames ks)
    (hgiven : taken'.Perm
      (taken ++ givenNames (named (lower (freshName taken k) :: taken) ks) ks')) :
    lower (freshName taken' k') = lower (freshName taken k) := by
  have hlater := (List.nodup_cons.1 hnodup.of_append_right).1
  refine lower_freshName hparts (fun x hx => ?_) ?_ ?_
  · exact hgiven.mem_iff.2 (List.mem_append_left _ hx)
  · rw [hgiven.length_eq, List.length_append]
    omega
  · rw [hgiven.mem_iff, List.mem_append, not_or]
    refine ⟨fun hm => ?_, fun hm => hlater (mem_keyNames_of_mem_givenNames hm)⟩
    rcases htaken _ hm with hm | hm
    · exact (List.nodup_append.1 hnodup).2.2 _ hm _ List.mem_cons_self rfl
    · exact hlater (mem_keyNames_of_mem_ownNames hm _)

/-- Respelled keys keep the names by which the server knows them. The names `earlier` are those of
the keys before. -/
lemma forall₂_named (earlier : List String) {taken taken' : List String} {ks ks' : List Key}
    (h : List.Forall₂ Respells (named taken ks) ks')
    (hnodup : (earlier ++ keyNames (named taken ks)).Nodup)
    (htaken : ∀ x ∈ taken, x ∈ earlier ∨ x ∈ ownNames ks)
    (htaken' : taken'.Perm (taken ++ givenNames (named taken ks) ks')) :
    List.Forall₂ (fun k k' => lower k'.1 = lower k.1 ∧ Respells k k'.2) (named taken ks)
      (named taken' ks') := by
  -- The keys are named one after the other; `earlier` grows by the name that each of them gets.
  induction ks generalizing earlier taken taken' ks' with
  | nil =>
    cases h
    exact .nil
  | cons k ks ih =>
    rw [named_cons] at h hnodup htaken' ⊢
    by_cases hk : k.kind = .primary
    · rw [if_pos hk] at h hnodup htaken' ⊢
      cases h with | @cons _ k' _ ks' hspelled h =>
      have hk' : k'.kind = .primary := hspelled.kind.trans hk
      rw [named_cons, if_pos hk']
      refine .cons ⟨rfl, hspelled⟩ (ih (earlier ++ [lower primaryName]) h ?_ ?_ ?_)
      · simpa [keyNames] using hnodup
      · intro x hx
        refine (htaken x hx).imp (List.mem_append_left _) fun hx => ?_
        simpa [ownNames_cons, hk] using hx
      · simpa [givenNames, hk] using htaken'
    · rw [if_neg hk] at h hnodup htaken' ⊢
      cases h with | @cons _ k' _ ks' hspelled h =>
      have hk' : k'.kind ≠ .primary := fun hp => hk (hspelled.kind.symm.trans hp)
      rw [named_cons, if_neg hk']
      rw [ownNames_cons, if_neg hk] at htaken
      rw [givenNames] at htaken'
      rcases hn : k.name? with _ | n
      · simp only [hn, Option.getD_none, Option.isSome_none, Bool.false_eq_true, if_false,
          Option.map_none, Option.toList_none, List.nil_append]
          at h hspelled hnodup htaken htaken' ⊢
        have hrest {later : List String} (hperm : later.Perm (lower (freshName taken k) :: taken ++
            givenNames (named (lower (freshName taken k) :: taken) ks) ks')) :=
          ih (earlier ++ [lower (freshName taken k)]) h (by simpa [keyNames] using hnodup) (by
            intro x hx
            rcases List.mem_cons.1 hx with rfl | hx
            · simp
            · exact (htaken x hx).imp_left (List.mem_append_left _)) hperm
        rcases hn' : k'.name? with _ | n'
        · -- the respelled key has no name either: both searches end at the same candidate
          have hgiven : taken'.Perm (taken ++
              givenNames (named (lower (freshName taken k) :: taken) ks) ks') := by
            simpa [hn'] using htaken'
          have hlower : lower (freshName taken' k') = lower (freshName taken k) :=
            lower_freshName_respelled hspelled.parts hnodup htaken hgiven
          refine .cons ⟨hlower, hspelled⟩ (hrest ?_)
          rw [hlower]
          exact hgiven.cons _
        · -- the respelled key has the name that the server gave
          have hlower : lower n' = lower (freshName taken k) := by
            simpa [hn, hn'] using hspelled.name?
          refine .cons ⟨hlower, hspelled⟩ (hrest (htaken'.trans ?_))
          simp [hk, hn', List.perm_middle]
      · -- a key with a name of its own, in any letter case
        obtain ⟨n', hn', hlower⟩ : ∃ n', k'.name? = some n' ∧ lower n' = lower n := by
          simpa [hn] using hspelled.name?
        simp only [hn, hn', Option.getD_some, Option.isSome_some, if_true]
          at h hspelled hnodup htaken htaken' ⊢
        refine .cons ⟨hlower, hspelled⟩ (ih (earlier ++ [lower n]) h ?_ ?_ ?_)
        · simpa [keyNames] using hnodup
        · intro x hx
          rcases htaken x hx with hx | hx
          · exact .inl (List.mem_append_left _ hx)
          · rcases List.mem_cons.1 hx with rfl | hx
            · simp
            · exact .inr hx
        · simpa using htaken'

lemma Respells.sameDefinition {k : String × Key} {k' : Key} (h : Respells k k') :
    k'.sameDefinition k.2 = true := by
  have hlength : k'.parts.length = k.2.parts.length := h.parts.length_eq.symm
  have hparts : ∀ q ∈ k'.parts.zip k.2.parts, q.1.same q.2 = true := fun q hq =>
    List.forall₂_zip h.parts.flip hq
  simp [Key.sameDefinition, h.kind, h.method?, h.comment?, hlength]
  simpa using hparts

end Key

namespace TablePair

variable {t t' : Table} (h : t.Respells catalog t') (hnames : (keyNames t.namedKeys).Nodup)

include h hnames in
lemma forall₂_namedKeys : List.Forall₂
    (fun k k' => lower k'.1 = lower k.1 ∧ Key.Respells k k'.2) t.namedKeys t'.namedKeys :=
  Key.forall₂_named [] h.keys hnames (fun _ hx => .inr hx) (Key.perm_ownNames h.keys)

include h hnames in
lemma keyNames_respelled : keyNames t'.namedKeys = keyNames t.namedKeys := by
  have hkeys := (forall₂_namedKeys h hnames).imp
    (S := fun k k' => lower k'.1 = lower k.1) fun _ _ h => h.1
  rw [keyNames, keyNames, ← List.forall₂_eq_eq_eq, List.forall₂_map_left_iff,
    List.forall₂_map_right_iff]
  exact hkeys.flip

include h hnames in
theorem keyDrifts_respelled : (⟨t', t, catalog⟩ : TablePair).keyDrifts = [] := by
  have hkeyNames : keyNames t'.namedKeys = keyNames t.namedKeys := keyNames_respelled h hnames
  rw [keyDrifts, List.append_eq_nil_iff, List.filterMap_eq_nil_iff, List.map_eq_nil_iff,
    List.filter_eq_nil_iff]
  refine ⟨fun k hk => ?_, fun k' hk' => ?_⟩
  · obtain ⟨k', hk', hname, hspelled⟩ := exists_of_forall₂ (forall₂_namedKeys h hnames) hk
    have hfound : keyNamed? k.1 t'.namedKeys = some (k'.2.withName k.1) :=
      keyNamed?_of_mem (hkeyNames ▸ hnames) hk' hname
    rw [declaredKeyDrift?_eq]
    simp [keyKept, hfound, hspelled.sameDefinition]
  · have hdeclared : lower k'.1 ∈ keyNames t.namedKeys := by
      rw [← hkeyNames]
      exact List.mem_map_of_mem hk'
    obtain ⟨k, hk, hname⟩ := List.mem_map.1 hdeclared
    simp only [Bool.not_eq_true', Bool.not_eq_false, List.any_eq_true]
    exact ⟨k, hk, Text.sameName_iff.2 hname⟩

end TablePair

/-- **Respelling is no change.** A table that was read, whose keys the server tells apart by name,
does not drift from any spelling that a server may give to it: no column, no key and no option
differs. -/
theorem TableDrift.no_drift_of_respells {real : FloatSize} {text : String} {t t' : Table}
    (hread : Statement.read real text = .table t) (hnames : (keyNames t.namedKeys).Nodup)
    {rows : List (String × String × Nat)} (h : t.Respells (.ofReport rows) t') :
    let drift : TableDrift := ⟨⟨some t', some t⟩, .ofReport rows⟩
    drift.columns = [] ∧ drift.keys = [] ∧ drift.options = [] :=
  ⟨TablePair.columnDrifts_respelled h (Statement.wellPlaced_of_read hread),
    TablePair.keyDrifts_respelled h hnames, TablePair.optionDrifts_respelled h⟩

/-- A table with a text column that takes its encoding from the table, and with an unnamed key. -/
def Table.asWritten : Table :=
  { Table.ofName ⟨none, "t"⟩ with
    columns := [.ofType "s" (.string false .text 5 .none)]
    keys := [.ofParts .plain [.ofColumn "s"]]
    options := .ofList [("CHARSET", "utf8mb4")] }

/-- The same table as a server shows it. -/
def Table.asShown : Table :=
  { Table.ofName ⟨none, "t"⟩ with
    columns := [{ Column.ofType "S" (.string false .text 5
      ⟨some "utf8mb4", some "utf8mb4_0900_ai_ci"⟩) with default? := some .null }]
    keys := [{ Key.ofParts .plain [.ofColumn "S"] with name? := some "s", comment? := some "" }]
    options := .ofList [("AUTO_INCREMENT", "7"), ("CHARSET", "UTF8MB4"), ("CHECKSUM", "0"),
      ("COLLATE", "utf8mb4_0900_ai_ci")] }

/-- Encoding, default, key and options are written out, and nothing differs. -/
theorem TableDrift.no_drift_of_respells_shown :
    Statement.read .double "CREATE TABLE t (s VARCHAR(5), KEY (s)) CHARSET=utf8mb4" =
        .table .asWritten ∧
      Table.Respells (.ofReport []) .asWritten .asShown ∧
      (⟨⟨some .asShown, some .asWritten⟩, .ofReport []⟩ : TableDrift).columns = [] := by
  have hread : Statement.read .double "CREATE TABLE t (s VARCHAR(5), KEY (s)) CHARSET=utf8mb4" =
      .table .asWritten := by decide +kernel
  have hcharset : Table.asWritten.options.get? "CHARSET" = some "utf8mb4" := by decide
  have hrespells : Table.Respells (.ofReport []) .asWritten .asShown :=
    { columns := .cons
        { name := by decide
          type := .encoding rfl rfl ⟨by decide, by decide⟩
          nullable := rfl
          autoIncrement := rfl
          onUpdate? := rfl
          default? := .inr ⟨rfl, rfl, rfl⟩
          comment? := rfl } .nil
      keys := .cons
        { name? := .inr ⟨rfl, by decide⟩
          kind := rfl
          parts := .cons (by decide) .nil
          method? := rfl
          comment? := rfl } .nil
      options := fun name => by
        by_cases hcollate : name = "COLLATE"
        · subst hcollate
          exact .collationAdded rfl hcharset (by decide)
        · by_cases hchecksum : name = "CHECKSUM"
          · subst hchecksum
            exact .impliedAdded (d := "0") (by decide) (by decide)
          · by_cases hname : name = "CHARSET"
            · subst hname
              exact .cased (a := "utf8mb4") (b := "UTF8MB4") (by decide) (by decide)
            · by_cases hcounter : name = "AUTO_INCREMENT"
              · exact .counter hcounter _ _
              · simp only [Table.asWritten, Table.asShown, OrderedMap.ofList, List.foldl_cons,
                  List.foldl_nil, OrderedMap.get?_insert, hcollate, hchecksum, hname, hcounter,
                  if_false]
                exact .same _ }
  exact ⟨hread, hrespells, (no_drift_of_respells hread (by decide) hrespells).1⟩

end SchemaDrift
