import Mathlib
import SchemaDrift.Proofs.TableRoundTrip
import SchemaDrift.Proofs.TableYield

/-!
Tables as they are read, as later parts of a run rely on them. What the types may be is settled while
they are read, and so is that no key is empty; names, places, keys and mandatory columns are settled
when the statement has ended.
-/

namespace SchemaDrift

/-- The declared bounds of a type: the digits of an exact number, of the fraction of a second, and
that bytes have no encoding. -/
def ColumnType.WithinBounds : ColumnType → Prop
  | .decimal precision scale _ => 1 ≤ precision ∧ precision ≤ 65 ∧ scale ≤ min 30 precision
  | .clock _ fraction => fraction ≤ 6
  | .string _ .bytes _ e | .lob _ .bytes e => e = .none
  | _ => True

lemma ColumnType.Allowed.withinBounds {t : ColumnType} (h : t.Allowed) : t.WithinBounds := by
  cases t with
  | decimal precision scale flags =>
    obtain ⟨hne, hprecision, hscale, hle⟩ := h
    exact ⟨Nat.one_le_iff_ne_zero.2 hne, hprecision, le_min hscale hle⟩
  | clock kind fraction => exact h
  | string padded content length e =>
    cases content with
    | text => trivial
    | bytes => exact h.2 rfl
  | lob size content e =>
    cases content with
    | text => trivial
    | bytes => exact h rfl
  | integer | floating | choice | bit | plain => trivial

/-- What later parts rely on in a table. -/
structure Table.WellFormed (t : Table) : Prop where
  /-- Names differ by more than letter case. -/
  names : (t.columns.map fun c => Text.lower c.name).Nodup
  ordinal : ∀ i (h : i < t.columns.length), t.columns[i].ordinal = i
  first : ∀ h : 0 < t.columns.length, t.columns[0].place = .first
  after : ∀ i (h : i + 1 < t.columns.length),
    t.columns[i + 1].place = .after t.columns[i].name
  primary : (t.keys.filter (·.kind = .primary)).length ≤ 1
  parts_ne : ∀ k ∈ t.keys, k.parts ≠ []
  part : ∀ k ∈ t.keys, ∀ p ∈ k.parts, p.isExpression = false →
    ∃ c ∈ t.columns, Text.sameName p.name c.name = true
  mandatory : ∀ k ∈ t.keys, k.kind = .primary → ∀ p ∈ k.parts, ∀ c ∈ t.columns,
    Text.sameName p.name c.name = true → c.nullable = false
  type : ∀ c ∈ t.columns, c.type.WithinBounds

namespace Grammar

lemma ordinal_placed (place : Place) (ordinal : ℕ) (cs : List Column) :
    (placed place ordinal cs).map (·.ordinal) = List.range' ordinal cs.length := by
  induction cs generalizing place ordinal with
  | nil => rfl
  | cons c cs ih => rw [placed, List.map_cons, ih, List.length_cons, List.range'_succ]

lemma ordinal_withMandatory (primary? : Option Key) (cs : List Column) :
    (withMandatory primary? cs).map (·.ordinal) = cs.map (·.ordinal) := by
  rw [withMandatory, List.map_map]
  refine List.map_congr_left fun c _ => ?_
  simp only [Function.comp_apply]
  split <;> rfl

lemma ordinal_of_completed {t t' : Table} (h : completed t = .ok t') (i : ℕ)
    (hi : i < t'.columns.length) : t'.columns[i].ordinal = i := by
  obtain ⟨-, -, -, rfl⟩ := completed_eq_ok_iff.1 h
  have hordinals : (withMandatory t.primaryKey? (placed .first 0 t.columns)).map (·.ordinal) =
      List.range' 0 t.columns.length := by rw [ordinal_withMandatory, ordinal_placed]
  have hget := List.getElem_of_eq hordinals (i := i) (by simpa using hi)
  rw [List.getElem_map, List.getElem_range'] at hget
  simpa using hget

lemma primaryKey?_eq_some {t : Table} (h : (t.keys.filter (·.kind = .primary)).length ≤ 1) {k : Key}
    (hk : k ∈ t.keys) (hkind : k.kind = .primary) : t.primaryKey? = some k := by
  have hmem : k ∈ t.keys.filter (·.kind = .primary) := List.mem_filter.2 ⟨hk, by simpa using hkind⟩
  rcases hfilter : t.keys.filter (·.kind = .primary) with _ | ⟨k', rest⟩
  · rw [hfilter] at hmem
    cases hmem
  · rw [hfilter, List.length_cons] at h
    obtain rfl := List.length_eq_zero_iff.1 (by omega : rest.length = 0)
    rw [hfilter] at hmem
    rw [Table.primaryKey?, ← List.head?_filter, hfilter, List.mem_singleton.1 hmem, List.head?_cons]

lemma nullable_of_completed {t t' : Table} (h : completed t = .ok t') {k : Key} (hk : k ∈ t'.keys)
    (hkind : k.kind = .primary) {p : KeyPart} (hp : p ∈ k.parts) {c : Column} (hc : c ∈ t'.columns)
    (hname : Text.sameName p.name c.name = true) : c.nullable = false := by
  obtain ⟨-, hprimary, -, rfl⟩ := completed_eq_ok_iff.1 h
  have hfound : t.primaryKey? = some k := primaryKey?_eq_some (Nat.le_of_not_lt hprimary) hk hkind
  obtain ⟨c₀, -, rfl⟩ := List.mem_map.1 hc
  simp only [hfound, Option.any_some] at hname ⊢
  split
  · rfl
  · next hnone =>
    rw [if_neg hnone] at hname
    exact absurd (List.any_eq_true.2 ⟨p, hp, hname⟩) hnone

end Grammar

lemma Table.WellPlaced.first {t : Table} (h : t.WellPlaced) (hlength : 0 < t.columns.length) :
    t.columns[0].place = .first :=
  h.place [] _ _ (List.cons_getElem_drop_succ (h := hlength)).symm

lemma Table.WellPlaced.after {t : Table} (h : t.WellPlaced) (i : ℕ)
    (hi : i + 1 < t.columns.length) : t.columns[i + 1].place = .after t.columns[i].name := by
  have hsplit : t.columns = t.columns.take (i + 1) ++ t.columns[i + 1] :: t.columns.drop (i + 2) := by
    rw [List.cons_getElem_drop_succ, List.take_append_drop]
  rw [h.place _ _ _ hsplit, Place.following, List.take_succ_eq_append_getElem (by omega),
    List.getLast?_concat]

namespace Statement

/-- **Tables are read well-formed**, whatever the text. -/
theorem wellFormed_of_read {real : FloatSize} {text : String} {t : Table}
    (h : read real text = .table t) : t.WellFormed := by
  obtain ⟨draft, hdraft⟩ := exists_completed_of_read h
  have hplaced := wellPlaced_of_read h
  have hkeyed := wellKeyed_of_read h
  have hgrammatical := grammatical_of_read h
  exact {
    names := hplaced.nodup
    ordinal := Grammar.ordinal_of_completed hdraft
    first := hplaced.first
    after := hplaced.after
    primary := hkeyed.primary
    parts_ne := fun k hk => (hgrammatical.keys k hk).parts_ne
    part := fun k hk p hp hcolumn => by
      obtain ⟨c, hc, hname⟩ := List.mem_map.1 (hkeyed.part k hk p hp hcolumn)
      exact ⟨c, hc, Text.sameName_iff.2 hname.symm⟩
    mandatory := fun k hk hkind p hp c hc => Grammar.nullable_of_completed hdraft hk hkind hp hc
    type := fun c hc => (hgrammatical.columns c hc).type.withinBounds }

end Statement

end SchemaDrift
