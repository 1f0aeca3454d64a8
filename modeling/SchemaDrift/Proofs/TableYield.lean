import Mathlib
import SchemaDrift.Drift.Table
import SchemaDrift.Statement

/-!
What the grammar of tables yields. Whatever the definitions say, the statement's end completes them:
a table that is read has columns with different names, each placed after the one before it, one
primary key at most, and keys over its columns.
-/

namespace SchemaDrift

namespace Parse

variable {α β : Type}

def Yields (m : Parse α) (P : α → Prop) : Prop := ∀ c a c', m c = .ok (a, c') → P a

lemma exists_of_bind {m : Parse α} {f : α → Parse β} {c c' : Cursor} {b : β}
    (h : (m >>= f) c = .ok (b, c')) : ∃ a c₁, m c = .ok (a, c₁) ∧ f a c₁ = .ok (b, c') := by
  rcases hm : m c with e | ⟨a, c₁⟩
  · simp [bind, StateT.bind, Except.bind, hm] at h
  · exact ⟨a, c₁, rfl, by simpa [bind, StateT.bind, Except.bind, hm] using h⟩

lemma yields_bind {m : Parse α} {f : α → Parse β} {P : β → Prop} (h : ∀ a, Yields (f a) P) :
    Yields (m >>= f) P := by
  intro c b c' hb
  obtain ⟨a, c₁, -, hf⟩ := exists_of_bind hb
  exact h a c₁ b c' hf

lemma yields_pure {a : α} {P : α → Prop} (h : P a) : Yields (pure a) P := by
  intro c b c' hb
  cases hb
  exact h

lemma yields_fault {P : α → Prop} {cause : FaultCause} {back : Nat} :
    Yields (fault cause back) P := by
  intro c b c' hb
  cases hb

end Parse

namespace Table

lemma column?_isSome_iff {t : Table} {name : String} :
    (t.column? name).isSome ↔ Text.lower name ∈ TablePair.columnNames t := by
  simp only [column?, List.find?_isSome, TablePair.columnNames, List.mem_map, Text.sameName_iff]

lemma column?_eq_none_iff {t : Table} {name : String} :
    t.column? name = none ↔ Text.lower name ∉ TablePair.columnNames t := by
  rw [← column?_isSome_iff, Option.not_isSome_iff_eq_none]

lemma mem_columns_of_column? {t : Table} {name : String} {c : Column}
    (h : t.column? name = some c) :
    c ∈ t.columns ∧ Text.lower c.name = Text.lower name :=
  ⟨List.mem_of_find?_eq_some h, Text.sameName_iff.1 (by simpa using List.find?_some h)⟩

end Table

def Place.following (cs : List Column) : Place :=
  match cs.getLast? with
  | none => .first
  | some c => .after c.name

/-- The columns have different names, and each stands after the one before it. -/
structure Table.WellPlaced (t : Table) : Prop where
  nodup : (TablePair.columnNames t).Nodup
  place : ∀ pre c post, t.columns = pre ++ c :: post → c.place = Place.following pre

/-- There is one primary key at most, and every key is over columns of the table. -/
structure Table.WellKeyed (t : Table) : Prop where
  primary : (t.keys.filter (·.kind = .primary)).length ≤ 1
  part : ∀ k ∈ t.keys, ∀ q ∈ k.parts, q.isExpression = false →
    Text.lower q.name ∈ TablePair.columnNames t

namespace Grammar

open TablePair (columnNames)

lemma nodup_of_repeatedColumn? {earlier cs : List Column}
    (h : repeatedColumn? earlier cs = none)
    (he : (earlier.map fun c => Text.lower c.name).Nodup) :
    ((earlier ++ cs).map fun c => Text.lower c.name).Nodup := by
  induction cs generalizing earlier with
  | nil => simpa using he
  | cons c cs ih =>
    rw [repeatedColumn?] at h
    split at h
    · contradiction
    · rename_i hc
      have hn : Text.lower c.name ∉ earlier.map fun c => Text.lower c.name := by
        simpa [Text.sameName_iff] using hc
      have hs : ((earlier ++ [c]).map fun c => Text.lower c.name).Nodup := by
        rw [List.map_append, List.map_singleton, List.nodup_append]
        refine ⟨he, List.nodup_singleton _, ?_⟩
        rintro a ha b hb rfl
        exact hn (List.mem_singleton.1 hb ▸ ha)
      simpa using ih h hs

lemma map_placed (f : Column → String) (hf : ∀ c o p, f { c with ordinal := o, place := p } = f c)
    (place : Place) (ordinal : Nat) (cs : List Column) :
    (placed place ordinal cs).map f = cs.map f := by
  induction cs generalizing place ordinal with
  | nil => rfl
  | cons c cs ih => rw [placed, List.map_cons, List.map_cons, ih, hf]

lemma place_placed {before cs : List Column} {ordinal : Nat} {pre post : List Column} {c : Column}
    (h : placed (Place.following before) ordinal cs = pre ++ c :: post) :
    c.place = Place.following (before ++ pre) := by
  induction cs generalizing before ordinal pre with
  | nil => cases pre <;> cases h
  | cons d cs ih =>
    rw [placed] at h
    cases pre with
    | nil =>
      rw [List.nil_append, List.cons.injEq] at h
      rw [← h.1, List.append_nil]
    | cons e pre =>
      rw [List.cons_append, List.cons.injEq] at h
      obtain ⟨rfl, h⟩ := h
      have hf : Place.after d.name = Place.following
          (before ++ [{ d with ordinal, place := Place.following before }]) := by
        simp [Place.following]
      rw [hf] at h
      simpa using ih h

lemma withMandatory_eq_map (primary? : Option Key) (cs : List Column) :
    ∃ f : Column → Column, withMandatory primary? cs = cs.map f ∧
      ∀ c, (f c).name = c.name ∧ (f c).place = c.place := by
  refine ⟨_, rfl, fun c => ?_⟩
  split <;> exact ⟨rfl, rfl⟩

lemma following_map {f : Column → Column} (hf : ∀ c, (f c).name = c.name) (cs : List Column) :
    Place.following (cs.map f) = Place.following cs := by
  simp only [Place.following, List.getLast?_map]
  rcases cs.getLast? with _ | c
  · rfl
  · simp [hf]

/-- A table is completed if its columns have different names, it has one primary key at most, and
each key is over its columns. -/
lemma completed_eq_ok_iff {t t' : Table} : completed t = .ok t' ↔
    repeatedColumn? [] t.columns = none ∧ ¬ 1 < (t.keys.filter (·.kind = .primary)).length ∧
      strayPart? t = none ∧
      t' = { t with columns := withMandatory t.primaryKey? (placed .first 0 t.columns) } := by
  unfold completed
  constructor
  · intro h
    split at h
    · contradiction
    rename_i hrepeated
    split at h
    · contradiction
    rename_i hprimary
    split at h
    · contradiction
    rename_i hstray
    exact ⟨hrepeated, hprimary, hstray, (Except.ok.inj h).symm⟩
  · rintro ⟨hrepeated, hprimary, hstray, rfl⟩
    simp only [hrepeated, if_neg hprimary, hstray]

lemma columnNames_completed {t t' : Table} (h : completed t = .ok t') :
    columnNames t' = columnNames t := by
  obtain ⟨-, -, -, rfl⟩ := completed_eq_ok_iff.1 h
  obtain ⟨f, hm, hf⟩ := withMandatory_eq_map t.primaryKey? (placed .first 0 t.columns)
  have hname : (fun c => Text.lower c.name) ∘ f = fun c : Column => Text.lower c.name :=
    funext fun c => by simp [(hf c).1]
  rw [columnNames, hm, List.map_map, hname, map_placed _ fun _ _ _ => rfl]
  rfl

lemma wellPlaced_of_completed {t t' : Table} (h : completed t = .ok t') : t'.WellPlaced := by
  obtain ⟨hn, -, -, ht⟩ := completed_eq_ok_iff.1 h
  obtain ⟨f, hm, hf⟩ := withMandatory_eq_map t.primaryKey? (placed .first 0 t.columns)
  constructor
  · rw [columnNames_completed h, columnNames]
    simpa using nodup_of_repeatedColumn? hn List.nodup_nil
  · intro pre c post hc
    rw [ht, hm] at hc
    obtain ⟨pre, rest, hp, rfl, hrest⟩ := List.map_eq_append_iff.1 hc
    obtain ⟨c, post, rfl, rfl, -⟩ := List.map_eq_cons_iff.1 hrest
    rw [(hf c).2, following_map fun c => (hf c).1]
    have hp : placed (Place.following []) 0 t.columns = pre ++ c :: post := hp
    simpa using place_placed hp

lemma wellKeyed_of_completed {t t' : Table} (h : completed t = .ok t') : t'.WellKeyed := by
  obtain ⟨-, hprimary, hstray, ht⟩ := completed_eq_ok_iff.1 h
  have hkeys : t'.keys = t.keys := by rw [ht]
  constructor
  · rw [hkeys]
    exact Nat.le_of_not_lt hprimary
  · intro k hk q hq hcolumn
    rw [hkeys] at hk
    rw [columnNames_completed h, ← Table.column?_isSome_iff]
    have hfound := List.find?_eq_none.1 hstray q (List.mem_flatMap.2 ⟨k, hk, hq⟩)
    simpa [hcolumn, Option.isSome_iff_ne_none] using hfound

lemma yields_createTable (real : FloatSize) :
    Parse.Yields (createTable real) fun t => ∃ draft, completed draft = .ok t := by
  unfold createTable
  iterate 4 refine Parse.yields_bind fun _ => ?_
  extract_lets body
  have hbody (u : Unit) : Parse.Yields (body u) fun t => ∃ draft, completed draft = .ok t := by
    iterate 7 refine Parse.yields_bind fun _ => ?_
    split
    · rename_i ht
      exact Parse.yields_pure ⟨_, ht⟩
    · exact Parse.yields_fault
  split
  · iterate 2 refine Parse.yields_bind fun _ => ?_
    exact hbody ()
  · exact hbody ()

end Grammar

namespace Statement

lemma eq_of_outcome {α : Type} {kind : StatementKind} {grammar : Parse α} {build : α → Statement}
    {c : Cursor} {s : Statement} (h : outcome kind grammar build c = s) :
    (∃ a c', grammar c = .ok (a, c') ∧ build a = s) ∨ ∃ fault, s = .invalid kind fault := by
  unfold outcome at h
  split at h
  · rename_i a c' hg
    exact .inl ⟨a, c', hg, h⟩
  · rename_i fault hg
    exact .inr ⟨fault, h.symm⟩

lemma createTable_of_read {real : FloatSize} {text : String} {t : Table}
    (h : read real text = .table t) :
    ∃ c', Grammar.createTable real (Cursor.ofText text) = .ok (t, c') := by
  unfold read at h
  simp only at h
  split at h
  · rcases eq_of_outcome h with ⟨a, c', hg, ha⟩ | ⟨fault, hf⟩
    · obtain rfl := Statement.table.inj ha
      exact ⟨c', hg⟩
    · contradiction
  all_goals try contradiction
  all_goals rcases eq_of_outcome h with ⟨a, c', hg, ha⟩ | ⟨fault, hf⟩ <;> contradiction

lemma exists_completed_of_read {real : FloatSize} {text : String} {t : Table}
    (h : read real text = .table t) : ∃ draft, Grammar.completed draft = .ok t := by
  obtain ⟨c', hg⟩ := createTable_of_read h
  exact Grammar.yields_createTable real _ _ _ hg

/-- **Tables as they are read.** The columns of a table that a statement declares have different
names, and each stands after the one before it. -/
theorem wellPlaced_of_read {real : FloatSize} {text : String} {t : Table}
    (h : read real text = .table t) : t.WellPlaced := by
  obtain ⟨draft, hdraft⟩ := exists_completed_of_read h
  exact Grammar.wellPlaced_of_completed hdraft

/-- **Keys as they are read.** A table that a statement declares has one primary key at most, and
its keys are over its columns. -/
theorem wellKeyed_of_read {real : FloatSize} {text : String} {t : Table}
    (h : read real text = .table t) : t.WellKeyed := by
  obtain ⟨draft, hdraft⟩ := exists_completed_of_read h
  exact Grammar.wellKeyed_of_completed hdraft

end Statement

end SchemaDrift
