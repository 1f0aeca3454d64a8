import Mathlib
import SchemaDrift.Proofs.TableAfter

/-!
Whether one run of the alterations of a table is enough. Of what it leaves only encodings can differ
from the declaration. A text column that takes its encoding from the table takes that of the table
as it was, since options are set last, while the next comparison expects that of the declaration.
-/

namespace SchemaDrift

open Text (lower)

/-! ### Encodings in types -/

namespace Encoding

def IsNamed (e : Encoding) : Prop := e.charset.isSome ∧ e.collation.isSome

lemma IsNamed.canonical_stored {e : Encoding} (h : e.IsNamed) (catalog : Catalog)
    (inForce d d' : Encoding) :
    (e.stored catalog inForce).canonical d catalog = e.canonical d' catalog := by
  obtain ⟨_ | charset, _ | collation⟩ := e
  · exact absurd h.1 (by simp)
  · exact absurd h.1 (by simp)
  · exact absurd h.2 (by simp)
  · simp [stored, resolved, canonical, isEmpty, effectiveCharset?, Charset.canonical_canonical]

end Encoding

namespace ColumnType

lemma canonical_of_not_textual {t : ColumnType} (h : t.isTextual = false) (d d' : Encoding)
    (catalog : Catalog) : t.canonical d catalog = t.canonical d' catalog := by
  cases t with
  | string padded content length e => cases content <;> first | rfl | cases h
  | lob size content e => cases content <;> first | rfl | cases h
  | choice kind members e => cases h
  | _ => rfl

@[simp] lemma isTextual_canonical (t : ColumnType) (d : Encoding) (catalog : Catalog) :
    (t.canonical d catalog).isTextual = t.isTextual := by
  cases t with
  | string padded content length e => cases content <;> rfl
  | lob size content e => cases content <;> rfl
  | _ => rfl

lemma canonical_withEncoding {t : ColumnType} (h : t.isTextual = true) (e d d' : Encoding)
    (catalog : Catalog) : (t.withEncoding e).canonical d catalog =
      (t.canonical d' catalog).withEncoding (e.canonical d catalog) := by
  cases t with
  | string padded content length e => cases content <;> first | rfl | cases h
  | lob size content e => cases content <;> first | rfl | cases h
  | choice kind members e => rfl
  | _ => cases h

lemma withEncoding_canonical_eq_iff {t : ColumnType} (h : t.isTextual = true) {e d : Encoding}
    {catalog : Catalog} : (t.canonical d catalog).withEncoding e = t.canonical d catalog ↔
      e = (t.encoding?.getD .none).canonical d catalog := by
  cases t with
  | string padded content length e =>
    cases content <;> simp [canonical, withEncoding, encoding?, isTextual] at h ⊢
  | lob size content e =>
    cases content <;> simp [canonical, withEncoding, encoding?, isTextual] at h ⊢
  | choice kind members e => simp [canonical, withEncoding, encoding?]
  | _ => cases h

lemma encoding?_stored {t : ColumnType} (h : t.isTextual = true) (catalog : Catalog)
    (inForce : Encoding) : (t.stored catalog inForce).encoding?.getD .none =
      (t.encoding?.getD .none).stored catalog inForce := by
  cases t with
  | string | lob | choice => rw [stored, if_pos h]; rfl
  | _ => cases h

lemma encoding?_canonical {t : ColumnType} (h : t.isTextual = true) (d : Encoding)
    (catalog : Catalog) : (t.canonical d catalog).encoding?.getD .none =
      (t.encoding?.getD .none).canonical d catalog := by
  cases t with
  | string padded content length e => cases content <;> first | rfl | cases h
  | lob size content e => cases content <;> first | rfl | cases h
  | choice kind members e => rfl
  | _ => cases h

lemma canonical_stored (t : ColumnType) (catalog : Catalog) (inForce d d' : Encoding) :
    (t.stored catalog inForce).canonical d catalog =
      if t.isTextual then (t.canonical d' catalog).withEncoding
        (((t.stored catalog inForce).encoding?.getD .none).canonical d catalog)
      else t.canonical d' catalog := by
  split
  · rename_i h
    rw [encoding?_stored h, stored, if_pos h, canonical_withEncoding h _ d d']
  · rename_i h
    rw [stored, if_neg h, canonical_of_not_textual (by simpa using h) d d']

end ColumnType

/-! ### Comparing columns -/

lemma sameNumber_self (x : String) : sameNumber x x = true := by
  simp [sameNumber]

namespace TablePair

lemma sameColumn_self (c : Column) : sameColumn c c = true := by
  have hdefault (numeric : Bool) (d? : Option DefaultValue) : sameDefault numeric d? d? = true := by
    unfold sameDefault
    split
    · simp [sameNumber_self]
    · simp
  simp [sameColumn, hdefault]

lemma sameColumn_withType_iff {a b : Column} (h : sameColumn a b = true) {t : ColumnType} :
    sameColumn { a with type := t } b = true ↔ t = b.type := by
  simp only [sameColumn, Bool.and_eq_true, decide_eq_true_eq] at h ⊢
  constructor
  · exact fun ht => ht.1.1.1.1.1
  · rintro rfl
    rw [← h.1.1.1.1.1]
    exact ⟨⟨⟨⟨⟨rfl, h.1.1.1.1.2⟩, h.1.1.1.2⟩, h.1.1.2⟩, h.1.2⟩, h.2⟩

end TablePair

namespace TablePair

variable (p : TablePair)

/-! ### The second comparison -/

def again (p : TablePair) : TablePair := ⟨p.after, p.declared, p.catalog⟩

/-- The encoding of a declared column as the server has stored it after the run. -/
def encodingAfter (p : TablePair) (c : Column) : Encoding :=
  (p.columnAfter c).type.encoding?.getD .none

/-- The encodings that the server has stored mean, by the defaults after the run, what the
declaration means by its own. -/
def KeepsEncodings (p : TablePair) : Prop :=
  ∀ c ∈ p.declared.columns, c.type.isTextual →
    (p.encodingAfter c).canonical p.again.liveEncoding p.catalog =
      (c.type.encoding?.getD .none).canonical p.declaredEncoding p.catalog

lemma declaredEncoding_again : p.again.declaredEncoding = p.declaredEncoding := by
  by_cases h : p.declared.defaultEncoding.isEmpty
  · have hsame : p.again.live.defaultEncoding = p.live.defaultEncoding :=
      defaultEncoding_after rfl h
    simp only [declaredEncoding, liveEncoding, hsame]
    rfl
  · rw [declaredEncoding, declaredEncoding, if_neg h]
    exact if_neg h

lemma lower_name_columnAfter (c : Column) : lower (p.columnAfter c).name = lower c.name := by
  unfold columnAfter
  split
  · rename_i hl _
    exact (Table.mem_columns_of_column? hl).2
  · rfl

lemma columnNames_after : columnNames p.after = columnNames p.declared := by
  simp only [columnNames, after, List.map_map]
  exact List.map_congr_left fun c _ => p.lower_name_columnAfter c

lemma movedColumns_again : p.again.movedColumns = [] := by
  rw [List.eq_nil_iff_forall_not_mem]
  intro n hn
  have hn := Moves.mem_moved.1 hn
  rw [show columnNames p.again.live = columnNames p.declared from p.columnNames_after,
    show columnNames p.again.declared = columnNames p.declared from rfl,
    Moves.longestCommon_self] at hn
  exact hn.2 hn.1

lemma exists_source (c : Column) : ∃ source defaults, (source = c ∨ source ∈ p.live.columns) ∧
    p.columnAfter c = Column.stored p.catalog p.live.encodingInForce source ∧
      sameColumn (canonicalColumn p.catalog defaults source) (p.canonicalDeclared c) = true := by
  -- A live column that is left alone compares as equal; any other is stored as it is declared.
  rcases hl : p.live.column? c.name with _ | l
  · refine ⟨c, p.declaredEncoding, .inl rfl, ?_, sameColumn_self _⟩
    rw [columnAfter, hl]
  · rcases hm : p.modificationOf? c with _ | m
    · refine ⟨l, p.liveEncoding, .inr (Table.mem_columns_of_column? hl).1, ?_, ?_⟩
      · rw [columnAfter, hl, hm]
      · rw [modificationOf?, hl] at hm
        simp only at hm
        split at hm
        · rename_i hsame
          exact (Bool.and_eq_true_iff.1 hsame).1
        · cases hm
    · refine ⟨c, p.declaredEncoding, .inl rfl, ?_, sameColumn_self _⟩
      rw [columnAfter, hl, hm]

lemma sameColumn_again_iff (c : Column) :
    sameColumn (p.again.canonicalLive (p.columnAfter c)) (p.again.canonicalDeclared c) = true ↔
      (c.type.isTextual → (p.encodingAfter c).canonical p.again.liveEncoding p.catalog =
        (c.type.encoding?.getD .none).canonical p.declaredEncoding p.catalog) := by
  obtain ⟨source, d, -, hstored, hsame⟩ := p.exists_source c
  have htype : source.type.canonical d p.catalog =
      c.type.canonical p.declaredEncoding p.catalog := (sameColumn_withType_iff hsame).1 hsame
  have htextual : source.type.isTextual = c.type.isTextual := by
    rw [← ColumnType.isTextual_canonical source.type d p.catalog, htype,
      ColumnType.isTextual_canonical]
  have hdeclared : p.again.canonicalDeclared c = p.canonicalDeclared c := by
    rw [canonicalDeclared, declaredEncoding_again]
    rfl
  have hlive : p.again.canonicalLive (p.columnAfter c) =
      { canonicalColumn p.catalog d source with
        type := (p.columnAfter c).type.canonical p.again.liveEncoding p.catalog } := by
    rw [hstored]
    rfl
  -- The stored column differs from its source in the type alone, and there in the encoding alone.
  rw [hlive, hdeclared, sameColumn_withType_iff hsame, encodingAfter, hstored]
  change (source.type.stored _ _).canonical _ _ = c.type.canonical _ _ ↔ _
  rw [ColumnType.canonical_stored _ _ _ _ d, htextual, htype]
  by_cases h : c.type.isTextual
  · simp only [h, forall_const]
    exact ColumnType.withEncoding_canonical_eq_iff h
  · simp [h]

lemma column?_after (hdeclared : p.declared.WellPlaced) {c : Column}
    (hc : c ∈ p.declared.columns) : p.after.column? c.name = some (p.columnAfter c) := by
  refine Table.column?_of_mem ?_ (List.mem_map_of_mem hc) (p.lower_name_columnAfter c)
  rw [columnNames_after]
  exact hdeclared.nodup

theorem columnDrifts_again_iff (hdeclared : p.declared.WellPlaced) :
    p.again.columnDrifts = [] ↔ p.KeepsEncodings := by
  have hdropped : p.again.live.columns.filter
      (fun c => (p.again.declared.column? c.name).isNone) = [] := by
    refine List.filter_eq_nil_iff.2 fun c hc => ?_
    obtain ⟨d, hd, rfl⟩ := List.mem_map.1 hc
    rw [Option.isNone_iff_eq_none, Table.column?_eq_none_iff, not_not, p.lower_name_columnAfter]
    exact List.mem_map_of_mem hd
  rw [columnDrifts, hdropped, List.map_nil, List.append_nil, List.filterMap_eq_nil_iff,
    movedColumns_again]
  refine forall₂_congr fun c hc => ?_
  have hfound : p.again.live.column? c.name = some (p.columnAfter c) := p.column?_after hdeclared hc
  rw [← sameColumn_again_iff, declaredColumnDrift?_eq, hfound]
  rcases hs : sameColumn (p.again.canonicalLive (p.columnAfter c))
    (p.again.canonicalDeclared c) <;> simp [hs]

/-- **One run is enough** exactly if it keeps encodings. -/
theorem isEmpty_again_iff (hdeclared : p.declared.WellPlaced)
    (hliveKeys : (keyNames p.live.namedKeys).Nodup)
    (hdeclaredKeys : (keyNames p.declared.namedKeys).Nodup) {rows : List (String × String × Nat)}
    (hcatalog : p.catalog = .ofReport rows) :
    p.again.isEmpty = true ↔ p.KeepsEncodings ∧ p.KeepsCollation := by
  have hkeys : p.again.keyDrifts = [] := keyDrifts_after hliveKeys hdeclaredKeys rfl p.catalog
  have hoptions : p.again.optionDrifts = [] ↔ p.KeepsCollation :=
    optionDrifts_after_iff rfl hcatalog
  rw [isEmpty, hkeys, Bool.and_eq_true, Bool.and_eq_true, List.isEmpty_iff, List.isEmpty_iff,
    List.isEmpty_iff, p.columnDrifts_again_iff hdeclared, hoptions]
  simp

/-- **One run is enough** where text columns name their encodings and the declaration leaves the
collation of the table to its character set. -/
theorem isEmpty_again_of_isNamed (hdeclared : p.declared.WellPlaced)
    (hliveKeys : (keyNames p.live.namedKeys).Nodup)
    (hdeclaredKeys : (keyNames p.declared.namedKeys).Nodup) {rows : List (String × String × Nat)}
    (hcatalog : p.catalog = .ofReport rows)
    (hnamed : ∀ c ∈ p.live.columns ++ p.declared.columns,
      c.type.isTextual → (c.type.encoding?.getD .none).IsNamed)
    (hcollation : p.declared.options.get? "COLLATE" = none) : p.again.isEmpty = true := by
  refine (p.isEmpty_again_iff hdeclared hliveKeys hdeclaredKeys hcatalog).2
    ⟨fun c hc htext => ?_, ?_⟩
  · obtain ⟨source, d, horigin, hstored, hsame⟩ := p.exists_source c
    have htype : source.type.canonical d p.catalog =
        c.type.canonical p.declaredEncoding p.catalog := (sameColumn_withType_iff hsame).1 hsame
    have hsource : source.type.isTextual = true := by
      rw [← ColumnType.isTextual_canonical source.type d p.catalog, htype,
        ColumnType.isTextual_canonical, htext]
    have hmem : source ∈ p.live.columns ++ p.declared.columns := by
      rcases horigin with rfl | hlive
      · exact List.mem_append_right _ hc
      · exact List.mem_append_left _ hlive
    rw [← ColumnType.encoding?_canonical htext, ← htype, ColumnType.encoding?_canonical hsource,
      encodingAfter, hstored]
    exact (congrArg (Encoding.canonical · _ _) (ColumnType.encoding?_stored hsource ..)).trans
      ((hnamed source hmem hsource).canonical_stored ..)
  · have hnone : (p.comparedOptions p.declared).get? "COLLATE" = none := by
      rw [get?_comparedOptions_collate, hcollation]
      rfl
    constructor <;> intro collation h <;> rw [hnone] at h <;> cases h

end TablePair

namespace TableDrift

/-- **One run.** The steps between two tables that were read, whose keys the server tells apart by
name, are those of their alterations. Carried out in order, none of these is stuck, and nothing
differs any more exactly if the run keeps encodings: the columns that the server has stored mean
what the declaration means, and a declared collation is not lost to a character set. -/
theorem isEmpty_after_run_iff {real real' : FloatSize} {liveText declaredText : String}
    {live declared : Table} (hlive : Statement.read real liveText = .table live)
    (hdeclared : Statement.read real' declaredText = .table declared)
    (hliveKeys : (keyNames live.namedKeys).Nodup)
    (hdeclaredKeys : (keyNames declared.namedKeys).Nodup) (rows : List (String × String × Nat)) :
    let p : TablePair := ⟨live, declared, .ofReport rows⟩
    (⟨⟨some live, some declared⟩, .ofReport rows⟩ : TableDrift).steps =
        p.alterations.map (PlannedAlteration.step p.name) ∧
      ∃ after, p.run = some after ∧
        ((⟨⟨some after, some declared⟩, .ofReport rows⟩ : TableDrift).isEmpty = true ↔
          p.KeepsEncodings ∧ p.KeepsCollation) := by
  intro p
  have hlivePlaced := Statement.wellPlaced_of_read hlive
  have hdeclaredPlaced := Statement.wellPlaced_of_read hdeclared
  exact ⟨rfl, p.after,
    TablePair.run_eq_after hlivePlaced hdeclaredPlaced hliveKeys hdeclaredKeys,
    p.isEmpty_again_iff hdeclaredPlaced hliveKeys hdeclaredKeys rfl⟩

end TableDrift

/-- A table of one string. -/
def Table.ofString (length : Nat) (options : List (String × String)) : Table :=
  { Table.ofName ⟨none, "t"⟩ with
    columns := [.ofType "s" (.string false .text length .none)]
    options := .ofList options }

/-- A column and an option are altered, and the run is enough. -/
theorem TableDrift.isEmpty_after_run_altered :
    Statement.read .double "CREATE TABLE t (s VARCHAR(5)) COMMENT='old'" =
        .table (.ofString 5 [("COMMENT", "old")]) ∧
      Statement.read .double "CREATE TABLE t (s VARCHAR(9)) COMMENT='new'" =
        .table (.ofString 9 [("COMMENT", "new")]) ∧
      (⟨.ofString 5 [("COMMENT", "old")], .ofString 9 [("COMMENT", "new")], .ofReport []⟩ :
        TablePair).KeepsEncodings := by
  have hlive : Statement.read .double "CREATE TABLE t (s VARCHAR(5)) COMMENT='old'" =
      .table (.ofString 5 [("COMMENT", "old")]) := by decide +kernel
  have hdeclared : Statement.read .double "CREATE TABLE t (s VARCHAR(9)) COMMENT='new'" =
      .table (.ofString 9 [("COMMENT", "new")]) := by decide +kernel
  obtain ⟨-, after, hrun, hiff⟩ := TableDrift.isEmpty_after_run_iff hlive hdeclared
    (by decide) (by decide) []
  have hempty : (⟨.ofString 5 [("COMMENT", "old")], .ofString 9 [("COMMENT", "new")],
      .ofReport []⟩ : TablePair).run.all (fun after =>
        (⟨⟨some after, some (.ofString 9 [("COMMENT", "new")])⟩, .ofReport []⟩ :
          TableDrift).isEmpty) = true := by decide +kernel
  rw [hrun] at hempty
  exact ⟨hlive, hdeclared, (hiff.1 hempty).1⟩

/-- A column takes its collation from a table whose collation is not declared. Modified to have the
default one, it takes that of the table again. -/
theorem TableDrift.not_isEmpty_after_run_inherited :
    Statement.read .double
        "CREATE TABLE t (s VARCHAR(5)) DEFAULT CHARSET=utf8mb4 COLLATE=utf8mb4_bin" =
        .table (.ofString 5 [("CHARSET", "utf8mb4"), ("COLLATE", "utf8mb4_bin")]) ∧
      Statement.read .double "CREATE TABLE t (s VARCHAR(5)) DEFAULT CHARSET=utf8mb4" =
        .table (.ofString 5 [("CHARSET", "utf8mb4")]) ∧
      ∃ after, (⟨.ofString 5 [("CHARSET", "utf8mb4"), ("COLLATE", "utf8mb4_bin")],
          .ofString 5 [("CHARSET", "utf8mb4")], .builtin⟩ : TablePair).run = some after ∧
        (⟨⟨some after, some (.ofString 5 [("CHARSET", "utf8mb4")])⟩, .builtin⟩ :
          TableDrift).isEmpty = false := by
  refine ⟨by decide +kernel, by decide +kernel, ?_⟩
  have hrun : (⟨.ofString 5 [("CHARSET", "utf8mb4"), ("COLLATE", "utf8mb4_bin")],
      .ofString 5 [("CHARSET", "utf8mb4")], .builtin⟩ : TablePair).run.any (fun after =>
        !(⟨⟨some after, some (.ofString 5 [("CHARSET", "utf8mb4")])⟩, .builtin⟩ :
          TableDrift).isEmpty) = true := by decide +kernel
  obtain ⟨after, hafter, hnot⟩ := (Option.any_eq_true _ _).1 hrun
  exact ⟨after, hafter, by simpa using hnot⟩

end SchemaDrift
