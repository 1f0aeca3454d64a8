import Mathlib
import SchemaDrift.Proofs.FoundTable

/-!
The round trip of tables. A table that was read is written as a statement that declares the same
table, as far as its bare names and values are not spelled like other tokens and its texts open no
line comments.
-/

namespace SchemaDrift

theorem Statement.grammatical_of_read {real : FloatSize} {text : String} {t : Table}
    (h : read real text = .table t) : t.Grammatical := by
  obtain ⟨c', hg⟩ := createTable_of_read h
  exact Grammar.grammatical_of_createTable real _ _ _ (Cursor.onText_ofText text) hg

/-- **The statement of a table that was read declares that table**, whatever `REAL` stood and stands
for, if the names that it leaves bare are words, its character sets, collations and bare option
values are single values, and its texts open no line comment. -/
theorem Statement.read_sql_of_read {real real' : FloatSize} {text : String} {t : Table}
    (h : read real text = .table t) (hnames : ∀ n ∈ t.names, BareNameIsWord n)
    (hvalues : ∀ v ∈ t.values, IsValue v) (hplain : ∀ s ∈ t.texts, OpensNoLine s.toList) :
    read real' t.sql = .table t :=
  (grammatical_of_read h).read_sql hnames hvalues hplain real'

lemma isValue_of_word {v : String} (h : lexemes v.toList = [.word v]) : IsValue v :=
  ⟨_, h, .inl rfl⟩

/-- A statement with a key and a check among the attributes, an expression, a character set under
its old name, and a key over parts. -/
def ordersText : String :=
  "CREATE TABLE `order` (id INT PRIMARY KEY, x REAL DEFAULT (1 + (2)) CHECK (x > 0), " ++
  "s CHAR(9) CHARSET utf8 COMMENT 'it''s', KEY `a b` (s(3) DESC, (lower(s)))) ENGINE=InnoDB"

/-- The table that it declares. -/
def Table.orders : Table where
  name := ⟨none, "order"⟩
  temporary := false
  ifNotExists := false
  columns := [
    ⟨"id", .integer .regular none .none, false, none, false, none, none, 0, .first⟩,
    ⟨"x", .floating .single none .none, true, some (.expression "1 + (2)"), false, none, none, 1,
      .after "id"⟩,
    ⟨"s", .string true .text 9 ⟨some "utf8mb3", none⟩, true, none, false, some "it's", none, 2,
      .after "x"⟩]
  keys := [⟨.primary, none, [⟨"id", false, none, false⟩], none, none⟩,
    ⟨.plain, some "a b", [⟨"s", false, some 3, true⟩, ⟨"lower(s)", true, none, false⟩], none, none⟩]
  constraints := ["CHECK (x > 0)"]
  options := .ofList [("ENGINE", "InnoDB")]

theorem Statement.read_sql_of_read_orders : read .single ordersText = .table Table.orders ∧
    (∀ n ∈ Table.orders.names, BareNameIsWord n) ∧ (∀ v ∈ Table.orders.values, IsValue v) ∧
    (∀ s ∈ Table.orders.texts, OpensNoLine s.toList) ∧
    read .double Table.orders.sql = .table Table.orders := by
  have hread : read .single ordersText = .table Table.orders := by decide +kernel
  have hnames : ∀ n ∈ Table.orders.names, Sql.isBareName n = true →
      isHexLiteral n.toList = false ∧ isScientific n.toList = false := by decide +kernel
  have hvalues : ∀ v ∈ Table.orders.values, lexemes v.toList = [.word v] := by decide +kernel
  have hplain : ∀ s ∈ Table.orders.texts, '#' ∉ s.toList ∧ ¬ ['-', '-'] <:+: s.toList := by
    decide +kernel
  have hwords : ∀ v ∈ Table.orders.values, IsValue v := fun v hv => isValue_of_word (hvalues v hv)
  exact ⟨hread, hnames, hwords, hplain, read_sql_of_read hread hnames hwords hplain⟩

end SchemaDrift
