import Mathlib
import SchemaDrift.Proofs.GuardedRun
import SchemaDrift.Proofs.KeyNaming
import SchemaDrift.Proofs.OptionReplay
import SchemaDrift.Proofs.TableAfter

/-!
Every difference between two forms of a table is altered, once, and in the fixed order. The entries
and the alterations of columns are looked at name by name: a name stands for at most one column on
either side, and these two columns alone decide which entry it has and which alterations it calls
for. Keys and options are altered entry by entry, and the order of the alterations is that of their
lists.
-/

namespace SchemaDrift

open Text (lower)

/-! ### Name by name -/

lemma filter_filterMap_columns {β : Type} {f : Column → Option β} {about : β → Bool} {name : String}
    (hf : ∀ c b, f c = some b → about b = Text.sameName c.name name) {cs : List Column}
    (hcs : (cs.map fun c => lower c.name).Nodup) :
    (cs.filterMap f).filter about =
      ((cs.find? fun c => Text.sameName c.name name).bind f).toList := by
  induction cs with
  | nil => rfl
  | cons c cs ih =>
    rw [List.map_cons, List.nodup_cons] at hcs
    have hcons : ((c :: cs).filterMap f).filter about =
        (f c).toList.filter about ++ (cs.filterMap f).filter about := by
      rcases hfc : f c with _ | b
      · rw [List.filterMap_cons_none hfc]
        rfl
      · rw [List.filterMap_cons_some hfc, ← List.filter_append]
        rfl
    rw [hcons, ih hcs.2]
    rcases hc : Text.sameName c.name name with _ | _
    · have hnone : (f c).toList.filter about = [] := by
        refine List.filter_eq_nil_iff.2 fun b hb => ?_
        rw [hf c b (Option.mem_toList.1 hb), hc]
        exact Bool.false_ne_true
      rw [hnone, List.nil_append, List.find?_cons_of_neg (by simp [hc])]
    · -- No other column has the name.
      have hother : (cs.find? fun c => Text.sameName c.name name) = none := by
        refine List.find?_eq_none.2 fun d hd hname => hcs.1 ?_
        rw [Text.sameName_iff.1 hc, ← Text.sameName_iff.1 hname]
        exact List.mem_map_of_mem hd
      have hall : (f c).toList.filter about = (f c).toList :=
        List.filter_eq_self.2 fun b hb => (hf c b (Option.mem_toList.1 hb)).trans hc
      have hfind : ((c :: cs).find? fun c => Text.sameName c.name name) = some c := by
        rw [List.find?_cons, hc]
      rw [hother, hall, hfind]
      exact List.append_nil _

lemma Table.column?_congr {t : Table} {a b : String} (h : lower a = lower b) :
    t.column? a = t.column? b := by
  have hsame : (fun c : Column => Text.sameName c.name a) = fun c => Text.sameName c.name b := by
    funext c
    rw [Bool.eq_iff_iff, Text.sameName_iff, Text.sameName_iff, h]
  rw [Table.column?, Table.column?, hsame]

/-- Whether an alteration is about the column of a name. -/
def Alteration.isAbout (name : String) : Alteration → Bool
  | .addColumn c | .modifyColumn c _ => Text.sameName c.name name
  | .dropColumn n => Text.sameName n name
  | .dropKey .. | .addKey .. | .setOptions _ => false

lemma Alteration.isAbout_of_definition? {a : Alteration} {c : Column} (h : a.definition? = some c)
    {name : String} : a.isAbout name = Text.sameName c.name name := by
  cases a <;> cases h <;> rfl

namespace TablePair

variable (p : TablePair)

def driftOf? (name : String) : Option ColumnDrift :=
  match p.live.column? name, p.declared.column? name with
  | none, none => none
  | none, some c => some ⟨c.name, .added, p.movedColumns.contains (lower c.name), ⟨none, some c⟩⟩
  | some l, none => some ⟨l.name, .dropped, false, ⟨some l, none⟩⟩
  | some l, some c =>
    if sameColumn (p.canonicalLive l) (p.canonicalDeclared c) &&
        !p.movedColumns.contains (lower c.name) then none
    else some ⟨c.name, .modified, p.movedColumns.contains (lower c.name), ⟨some l, some c⟩⟩

/-- The alterations that an entry of the columns calls for. -/
def calledFor (d : ColumnDrift) : List Alteration :=
  match d.verdict, d.sides.declared with
  | .added, some c => .addColumn c ::
      if p.displacedColumns.contains (lower c.name) then [.modifyColumn c (some c.place)] else []
  | .modified, some c => [.modifyColumn c (if d.moved then some c.place else none)]
  | .dropped, _ => [.dropColumn d.name]
  | _, _ => []

variable {p}

lemma find?_droppedColumns (name : String) :
    (p.droppedColumns.find? fun c => Text.sameName c.name name) =
      if (p.declared.column? name).isNone then p.live.column? name else none := by
  have hname (c : Column) :
      decide ((p.declared.column? c.name).isNone ∧ Text.sameName c.name name) =
        ((p.declared.column? name).isNone && Text.sameName c.name name) := by
    rcases hc : Text.sameName c.name name with _ | _
    · simp
    · rw [Table.column?_congr (Text.sameName_iff.1 hc)]
      rcases p.declared.column? name <;> rfl
  rw [droppedColumns, List.find?_filter]
  simp only [hname]
  rcases (p.declared.column? name).isNone with _ | _
  · simp
  · simp [Table.column?]

lemma filter_keyDrops (name : String) :
    (p.keyDrops.map (·.alteration)).filter (·.isAbout name) = [] := by
  rw [keyDrops_eq, List.filter_map, List.map_eq_nil_iff]
  exact List.filter_eq_nil_iff.2 fun d _ => Bool.false_ne_true

lemma filter_keyAdditions (name : String) :
    (p.keyAdditions.map (·.alteration)).filter (·.isAbout name) = [] := by
  rw [keyAdditions_eq, List.filter_map, List.map_eq_nil_iff]
  exact List.filter_eq_nil_iff.2 fun d _ => Bool.false_ne_true

lemma filter_optionSettings (name : String) :
    (p.optionSettings.map (·.alteration)).filter (·.isAbout name) = [] := by
  rw [List.filter_map, List.map_eq_nil_iff]
  refine List.filter_eq_nil_iff.2 fun a ha => ?_
  obtain ⟨settings, rfl⟩ := p.exists_of_mem_optionSettings ha
  exact Bool.false_ne_true

section

variable (hlive : (columnNames p.live).Nodup) (hdeclared : (columnNames p.declared).Nodup)

include hlive in
lemma nodup_droppedColumns : (p.droppedColumns.map fun c => lower c.name).Nodup :=
  hlive.sublist (List.filter_sublist.map _)

include hlive hdeclared

theorem filter_columnDrifts (name : String) :
    p.columnDrifts.filter (fun d => Text.sameName d.name name) = (p.driftOf? name).toList := by
  have hsplit := p.filterMap_columnDrifts some
  rw [List.filterMap_some] at hsplit
  rw [hsplit, List.filter_append, filter_filterMap_columns ?_ hdeclared,
    filter_filterMap_columns ?_ (nodup_droppedColumns hlive), find?_droppedColumns,
    ← Table.column?]
  · rcases hd : p.declared.column? name with _ | c
    · rcases hl : p.live.column? name with _ | l <;> simp [driftOf?, hd, hl]
    · obtain ⟨-, hname⟩ := Table.mem_columns_of_column? hd
      rw [driftOf?, hd, Option.bind_some, declaredColumnDrift?_eq, Table.column?_congr hname]
      rcases hl : p.live.column? name with _ | l
      · simp
      · simp
  · intro c d hd
    rw [← Option.some.inj hd]
  · intro c d hd
    rw [Option.bind_fun_some, declaredColumnDrift?_eq] at hd
    split at hd
    · rw [← Option.some.inj hd]
    · split at hd
      · cases hd
      · rw [← Option.some.inj hd]

omit hlive in
lemma filter_columnAdditions (name : String) :
    (p.columnAdditions.map (·.alteration)).filter (·.isAbout name) =
      ((p.declared.column? name).bind fun c => (p.additionOf? c).map (·.alteration)).toList := by
  rw [columnAdditions_eq, List.map_filterMap, filter_filterMap_columns ?_ hdeclared]
  · rfl
  · intro c a ha
    obtain ⟨b, hb, rfl⟩ := Option.map_eq_some_iff.1 ha
    rw [additionOf?_eq] at hb
    split at hb
    · rw [← Option.some.inj hb]
      rfl
    · cases hb

omit hlive in
lemma filter_columnModifications (name : String) :
    (p.columnModifications.map (·.alteration)).filter (·.isAbout name) =
      ((p.declared.column? name).bind fun c =>
        (p.modificationOf? c).map (·.alteration)).toList := by
  rw [columnModifications_eq, List.map_filterMap, filter_filterMap_columns ?_ hdeclared]
  · rfl
  · intro c a ha
    obtain ⟨b, hb, rfl⟩ := Option.map_eq_some_iff.1 ha
    exact Alteration.isAbout_of_definition? (p.definition?_of_modificationOf? hb)

omit hdeclared in
lemma filter_columnDrops (name : String) :
    (p.columnDrops.map (·.alteration)).filter (·.isAbout name) =
      ((if (p.declared.column? name).isNone then p.live.column? name else none).map
        fun c => Alteration.dropColumn c.name).toList := by
  rw [columnDrops_eq, List.map_map, ← List.filterMap_eq_map,
    filter_filterMap_columns ?_ (nodup_droppedColumns hlive), find?_droppedColumns]
  · rcases (if (p.declared.column? name).isNone then p.live.column? name else none) <;> rfl
  · intro c a ha
    rw [← Option.some.inj ha]
    rfl

theorem filter_alterations (name : String) :
    (p.alterations.map (·.alteration)).filter (·.isAbout name) =
      (p.driftOf? name).elim [] p.calledFor := by
  simp only [alterations, List.map_append, List.filter_append, filter_keyDrops,
    filter_columnAdditions hdeclared, filter_columnModifications hdeclared,
    filter_columnDrops hlive, filter_keyAdditions, filter_optionSettings, List.nil_append,
    List.append_nil]
  rcases hd : p.declared.column? name with _ | c
  · rcases hl : p.live.column? name with _ | l <;> simp [driftOf?, hd, hl, calledFor]
  · obtain ⟨-, hname⟩ := Table.mem_columns_of_column? hd
    have hcolumn : p.live.column? c.name = p.live.column? name := Table.column?_congr hname
    rw [Option.bind_some, Option.bind_some, additionOf?_eq, modificationOf?, driftOf?, hcolumn, hd]
    rcases p.live.column? name with _ | l
    · by_cases hx : lower c.name ∈ p.displacedColumns
      · simp [calledFor, hx, PlannedAlteration.harmless]
      · simp [calledFor, hx, PlannedAlteration.harmless]
    · rw [if_neg (Option.some_ne_none l)]
      simp only
      split
      · rfl
      · rfl

/-! ### Entries of columns -/

lemma mem_columnDrifts_iff {d : ColumnDrift} : d ∈ p.columnDrifts ↔ p.driftOf? d.name = some d := by
  rw [← Option.mem_toList, ← filter_columnDrifts hlive hdeclared, List.mem_filter]
  simp

lemma exists_columnDrift_iff {name : String} {P : ColumnDrift → Prop} :
    (∃ d ∈ p.columnDrifts, lower d.name = lower name ∧ P d) ↔ ∃ d ∈ p.driftOf? name, P d := by
  have hmem (d : ColumnDrift) :
      d ∈ p.driftOf? name ↔ d ∈ p.columnDrifts ∧ lower d.name = lower name := by
    rw [Option.mem_def, ← Option.mem_toList, ← filter_columnDrifts hlive hdeclared,
      List.mem_filter, Text.sameName_iff]
  simp only [hmem, and_assoc]

lemma nodup_columnDrifts : (p.columnDrifts.map fun d => lower d.name).Nodup := by
  refine List.nodup_iff_count_le_one.2 fun n => ?_
  by_cases hn : n ∈ p.columnDrifts.map fun d => lower d.name
  · obtain ⟨d, -, rfl⟩ := List.mem_map.1 hn
    have hcount : (p.columnDrifts.map fun d => lower d.name).count (lower d.name) =
        (p.columnDrifts.filter fun e => Text.sameName e.name d.name).length := by
      rw [List.count_eq_length_filter, List.filter_map, List.length_map]
      rfl
    rw [hcount, filter_columnDrifts hlive hdeclared]
    exact Option.length_toList_le
  · rw [List.count_eq_zero_of_not_mem hn]
    exact Nat.zero_le 1

end

section

variable {name : String} {d : ColumnDrift}

lemma driftOf?_cases (h : p.driftOf? name = some d) :
    (∃ c, p.live.column? name = none ∧ p.declared.column? name = some c ∧
        d = ⟨c.name, .added, p.movedColumns.contains (lower c.name), ⟨none, some c⟩⟩) ∨
      (∃ l, p.live.column? name = some l ∧ p.declared.column? name = none ∧
        d = ⟨l.name, .dropped, false, ⟨some l, none⟩⟩) ∨
      ∃ l c, p.live.column? name = some l ∧ p.declared.column? name = some c ∧
        d = ⟨c.name, .modified, p.movedColumns.contains (lower c.name), ⟨some l, some c⟩⟩ := by
  unfold driftOf? at h
  split at h
  · cases h
  · rename_i c hl hd
    exact .inl ⟨c, hl, hd, (Option.some.inj h).symm⟩
  · rename_i l hl hd
    exact .inr (.inl ⟨l, hl, hd, (Option.some.inj h).symm⟩)
  · rename_i l c hl hd
    split at h
    · cases h
    · exact .inr (.inr ⟨l, c, hl, hd, (Option.some.inj h).symm⟩)

lemma sides_of_driftOf? (h : p.driftOf? name = some d) :
    d.sides = ⟨p.live.column? name, p.declared.column? name⟩ := by
  rcases driftOf?_cases h with ⟨c, hl, hd, rfl⟩ | ⟨l, hl, hd, rfl⟩ | ⟨l, c, hl, hd, rfl⟩
  all_goals rw [hl, hd]

lemma moved_of_driftOf? (h : p.driftOf? name = some d) :
    d.moved = p.movedColumns.contains (lower d.name) := by
  rcases driftOf?_cases h with ⟨c, hl, hd, rfl⟩ | ⟨l, hl, hd, rfl⟩ | ⟨l, c, hl, hd, rfl⟩
  · rfl
  · -- Only columns of both sides move.
    have hmoved : lower l.name ∉ p.movedColumns := by
      rw [(Table.mem_columns_of_column? hl).2]
      exact fun hm => Table.column?_eq_none_iff.1 hd (p.mem_movedColumns hm).1
    simpa using hmoved
  · rfl

lemma verdict_ne_of_driftOf? (h : p.driftOf? name = some d) : d.verdict ≠ .unchanged := by
  rcases driftOf?_cases h with ⟨c, -, -, rfl⟩ | ⟨l, -, -, rfl⟩ | ⟨l, c, -, -, rfl⟩ <;> simp

lemma calledFor_ne_nil (h : p.driftOf? name = some d) : p.calledFor d ≠ [] := by
  rcases driftOf?_cases h with ⟨c, -, -, rfl⟩ | ⟨l, -, -, rfl⟩ | ⟨l, c, -, -, rfl⟩ <;>
    simp [calledFor]

lemma exists_added_iff : (∃ d ∈ p.driftOf? name, d.verdict = .added) ↔
    lower name ∈ columnNames p.declared ∧ lower name ∉ columnNames p.live := by
  rw [← Table.column?_isSome_iff, ← Table.column?_eq_none_iff, driftOf?]
  rcases p.live.column? name with _ | l <;> rcases p.declared.column? name with _ | c <;> simp

lemma exists_dropped_iff : (∃ d ∈ p.driftOf? name, d.verdict = .dropped) ↔
    lower name ∈ columnNames p.live ∧ lower name ∉ columnNames p.declared := by
  rw [← Table.column?_isSome_iff, ← Table.column?_eq_none_iff, driftOf?]
  rcases p.live.column? name with _ | l <;> rcases p.declared.column? name with _ | c <;> simp

lemma exists_modified_iff : (∃ d ∈ p.driftOf? name, d.verdict = .modified) ↔
    ∃ l c, p.live.column? name = some l ∧ p.declared.column? name = some c ∧
      (sameColumn (p.canonicalLive l) (p.canonicalDeclared c) = false ∨
        lower name ∈ p.movedColumns) := by
  rw [driftOf?]
  rcases p.live.column? name with _ | l
  · rcases p.declared.column? name with _ | c <;> simp
  · rcases hd : p.declared.column? name with _ | c
    · simp
    · have hname : lower c.name = lower name := (Table.mem_columns_of_column? hd).2
      rcases hs : sameColumn (p.canonicalLive l) (p.canonicalDeclared c) with _ | _
      · simp [hs]
      · by_cases hm : lower name ∈ p.movedColumns
        · simp [hs, hname, hm]
        · simp [hs, hname, hm]

end

/-! ### Displaced columns -/

/-- An added column is displaced if the last common column that is declared before it moved. -/
theorem mem_displacedColumns_of_added (hd : p.declared.WellPlaced) {pre post : List Column}
    {c : Column} (hc : p.declared.columns = pre ++ c :: post)
    (hadded : lower c.name ∉ columnNames p.live) :
    lower c.name ∈ p.displacedColumns ↔
      ∃ q ∈ (pre.filter fun q => lower q.name ∈ columnNames p.live).getLast?,
        lower q.name ∈ p.movedColumns := by
  have hstays {c : Column} (h : lower c.name ∉ columnNames p.live) :
      lower c.name ∉ p.movedColumns := fun hm => h (p.mem_movedColumns hm).2
  induction pre using List.reverseRecOn generalizing c post with
  | nil =>
    rw [p.mem_displacedColumns_iff hd hc]
    simp [hstays hadded]
  | append_singleton pre q ih =>
    have hq : p.declared.columns = pre ++ q :: (c :: post) := by rw [hc]; simp
    have hcq : lower c.name ∈ p.displacedColumns ↔ lower q.name ∈ p.displacedColumns := by
      rw [p.mem_displacedColumns_iff hd hc]
      simp [hstays hadded, hadded]
    rw [hcq]
    by_cases hcommon : lower q.name ∈ columnNames p.live
    · rw [p.mem_displacedColumns_iff hd hq]
      simp [hcommon]
    · refine (ih hq hcommon).trans ?_
      simp [hcommon]

/-! ### Keys and options -/

lemma declaredKeyDrift?_eq_some_iff {named : String × Key} {k : KeyDrift} :
    p.declaredKeyDrift? named = some k ↔ k.name = named.1 ∧
      k.sides = ⟨keyNamed? named.1 p.live.namedKeys, some (named.2.withName named.1)⟩ ∧
      k.verdict = k.sides.verdictBy Key.sameDefinition ∧ k.verdict ≠ .unchanged := by
  obtain ⟨name, verdict, sides⟩ := k
  unfold declaredKeyDrift?
  simp only
  split
  · rename_i hv
    refine iff_of_false (by simp) ?_
    rintro ⟨-, rfl, rfl, hne⟩
    exact hne hv
  · rename_i v hne
    rw [Option.some.injEq, KeyDrift.mk.injEq]
    constructor
    · rintro ⟨rfl, rfl, rfl⟩
      exact ⟨rfl, rfl, rfl, hne⟩
    · rintro ⟨rfl, rfl, rfl, -⟩
      exact ⟨rfl, rfl, rfl⟩

lemma mem_keyDrifts_iff {k : KeyDrift} : k ∈ p.keyDrifts ↔
    k.verdict = k.sides.verdictBy Key.sameDefinition ∧ k.verdict ≠ .unchanged ∧
      ((∃ key, (k.name, key) ∈ p.declared.namedKeys ∧
          k.sides = ⟨keyNamed? k.name p.live.namedKeys, some (key.withName k.name)⟩) ∨
        ∃ key, (k.name, key) ∈ p.live.namedKeys ∧
          lower k.name ∉ keyNames p.declared.namedKeys ∧
          k.sides = ⟨some (key.withName k.name), none⟩) := by
  have hnone (name : String) :
      (!p.declared.namedKeys.any fun d => Text.sameName d.1 name) = true ↔
        lower name ∉ keyNames p.declared.namedKeys := by
    simp [keyNames, Text.sameName_iff]
  obtain ⟨name, verdict, sides⟩ := k
  rw [keyDrifts, List.mem_append, List.mem_filterMap, List.mem_map]
  simp only [declaredKeyDrift?_eq_some_iff, List.mem_filter, hnone]
  constructor
  · rintro (⟨⟨n, key⟩, hkey, rfl, hsides, hverdict, hne⟩ | ⟨⟨n, key⟩, ⟨hkey, hnew⟩, hk⟩)
    · exact ⟨hverdict, hne, .inl ⟨key, hkey, hsides⟩⟩
    · cases hk
      exact ⟨rfl, by simp, .inr ⟨key, hkey, hnew, rfl⟩⟩
  · rintro ⟨rfl, hne, ⟨key, hkey, rfl⟩ | ⟨key, hkey, hnew, rfl⟩⟩
    · exact .inl ⟨_, hkey, rfl, rfl, rfl, hne⟩
    · exact .inr ⟨_, ⟨hkey, hnew⟩, rfl⟩

lemma isSome_sides_of_mem_keyDrifts {k : KeyDrift} (h : k ∈ p.keyDrifts) :
    (k.sides.live.isSome ↔ k.verdict = .dropped ∨ k.verdict = .modified) ∧
      (k.sides.declared.isSome ↔ k.verdict = .added ∨ k.verdict = .modified) := by
  obtain ⟨hverdict, hne, -⟩ := mem_keyDrifts_iff.1 h
  rw [hverdict] at hne ⊢
  obtain ⟨name, verdict, ⟨live?, declared?⟩⟩ := k
  rcases live? with _ | l <;> rcases declared? with _ | d
  · exact absurd rfl hne
  · simp [Sides.verdictBy]
  · simp [Sides.verdictBy]
  · rcases hs : l.sameDefinition d with _ | _
    · simp [Sides.verdictBy, hs]
    · simp [Sides.verdictBy, hs] at hne

lemma keyDrops_of_sides : p.keyDrops.map (·.alteration) =
    p.keyDrifts.filterMap fun k => k.sides.live.map fun l => .dropKey k.name l.kind := by
  rw [keyDrops, List.map_filterMap]
  refine List.filterMap_congr fun k hk => ?_
  obtain ⟨hlive, -⟩ := isSome_sides_of_mem_keyDrifts hk
  rcases hl : k.sides.live with _ | l
  · rcases k.verdict <;> rfl
  · rcases hlive.1 (by rw [hl]; rfl) with hv | hv
    · rw [hv]
      rfl
    · rw [hv]
      rfl

lemma keyAdditions_of_sides : p.keyAdditions.map (·.alteration) =
    p.keyDrifts.filterMap fun k => k.sides.declared.map fun key => .addKey k.name key := by
  rw [keyAdditions, List.map_filterMap]
  refine List.filterMap_congr fun k hk => ?_
  obtain ⟨-, hdeclared⟩ := isSome_sides_of_mem_keyDrifts hk
  rcases hd : k.sides.declared with _ | d
  · rcases k.verdict <;> rfl
  · rcases hdeclared.1 (by rw [hd]; rfl) with hv | hv
    · rw [hv]
      rfl
    · rw [hv]
      rfl

lemma exists_declared_of_mem_optionDrifts {o : OptionDrift} (h : o ∈ p.optionDrifts) :
    ∃ v, o.sides.declared = some v := by
  obtain ⟨name, -, ho⟩ := List.mem_filterMap.1 h
  obtain ⟨v, rfl⟩ := optionDrift?_eq_some ho
  exact ⟨v, rfl⟩

lemma optionSettings_eq : p.optionSettings =
    if p.optionDrifts.isEmpty then [] else [.harmless (.setOptions p.settings)] := by
  have hempty : p.settings.isEmpty = p.optionDrifts.isEmpty := by
    rw [settings]
    rcases hdrifts : p.optionDrifts with _ | ⟨o, os⟩
    · rfl
    · obtain ⟨v, hv⟩ := exists_declared_of_mem_optionDrifts (hdrifts ▸ List.mem_cons_self)
      rw [List.filterMap_cons_some (by rw [hv]; rfl)]
      rfl
  rw [← hempty]
  rfl

/-! ### The order of alterations -/

section

variable {a : PlannedAlteration}

lemma action_of_mem_keyDrops (h : a ∈ p.keyDrops) : a.alteration.action = .dropKey := by
  obtain ⟨k, -, hk⟩ := List.mem_filterMap.1 h
  split at hk <;> cases hk <;> rfl

lemma action_of_mem_columnAdditions (h : a ∈ p.columnAdditions) :
    a.alteration.action = .addColumn := by
  obtain ⟨d, -, hd⟩ := List.mem_filterMap.1 h
  split at hd <;> cases hd
  rfl

lemma action_of_mem_columnModifications (h : a ∈ p.columnModifications) :
    a.alteration.action = .modifyColumn := by
  rw [columnModifications_eq] at h
  obtain ⟨c, -, hc⟩ := List.mem_filterMap.1 h
  exact action_of_modificationOf? hc

lemma action_of_mem_columnDrops (h : a ∈ p.columnDrops) :
    a.alteration.action = .dropColumn := by
  obtain ⟨d, -, hd⟩ := List.mem_filterMap.1 h
  split at hd <;> cases hd
  rfl

lemma action_of_mem_keyAdditions (h : a ∈ p.keyAdditions) : a.alteration.action = .addKey := by
  obtain ⟨k, -, hk⟩ := List.mem_filterMap.1 h
  split at hk <;> cases hk <;> rfl

lemma action_of_mem_optionSettings (h : a ∈ p.optionSettings) :
    a.alteration.action = .alterOptions := by
  obtain ⟨settings, rfl⟩ := p.exists_of_mem_optionSettings h
  rfl

end

theorem map_action_alterations : p.alterations.map (·.alteration.action) =
    List.replicate p.keyDrops.length Action.dropKey ++
      List.replicate p.columnAdditions.length Action.addColumn ++
      List.replicate p.columnModifications.length Action.modifyColumn ++
      List.replicate p.columnDrops.length Action.dropColumn ++
      List.replicate p.keyAdditions.length Action.addKey ++
      List.replicate (if p.optionDrifts.isEmpty then 0 else 1) Action.alterOptions := by
  have hoptions : p.optionSettings.map (·.alteration.action) =
      List.replicate (if p.optionDrifts.isEmpty then 0 else 1) Action.alterOptions := by
    rw [optionSettings_eq]
    split <;> rfl
  rw [alterations, List.map_append, List.map_append, List.map_append, List.map_append,
    List.map_append, hoptions,
    List.map_eq_replicate_iff.2 fun _ => action_of_mem_keyDrops,
    List.map_eq_replicate_iff.2 fun _ => action_of_mem_columnAdditions,
    List.map_eq_replicate_iff.2 fun _ => action_of_mem_columnModifications,
    List.map_eq_replicate_iff.2 fun _ => action_of_mem_columnDrops,
    List.map_eq_replicate_iff.2 fun _ => action_of_mem_keyAdditions]

lemma filter_action {as : List PlannedAlteration} {action : Action}
    (h : ∀ a ∈ as, a.alteration.action = action) (wanted : Action) :
    (as.map (·.alteration)).filter (·.action = wanted) =
      if action = wanted then as.map (·.alteration) else [] := by
  split
  · rename_i he
    refine List.filter_eq_self.2 fun a ha => ?_
    obtain ⟨b, hb, rfl⟩ := List.mem_map.1 ha
    simpa [he] using h b hb
  · rename_i hne
    refine List.filter_eq_nil_iff.2 fun a ha => ?_
    obtain ⟨b, hb, rfl⟩ := List.mem_map.1 ha
    simpa [h b hb] using hne

lemma filter_action_alterations (wanted : Action) :
    (p.alterations.map (·.alteration)).filter (·.action = wanted) =
      (if Action.dropKey = wanted then p.keyDrops.map (·.alteration) else []) ++
      (if Action.addColumn = wanted then p.columnAdditions.map (·.alteration) else []) ++
      (if Action.modifyColumn = wanted then p.columnModifications.map (·.alteration) else []) ++
      (if Action.dropColumn = wanted then p.columnDrops.map (·.alteration) else []) ++
      (if Action.addKey = wanted then p.keyAdditions.map (·.alteration) else []) ++
      if Action.alterOptions = wanted then p.optionSettings.map (·.alteration) else [] := by
  simp only [alterations, List.map_append, List.filter_append,
    filter_action (fun _ => action_of_mem_keyDrops),
    filter_action (fun _ => action_of_mem_columnAdditions),
    filter_action (fun _ => action_of_mem_columnModifications),
    filter_action (fun _ => action_of_mem_columnDrops),
    filter_action (fun _ => action_of_mem_keyAdditions),
    filter_action (fun _ => action_of_mem_optionSettings)]

theorem alterations_eq_nil_iff (hlive : (columnNames p.live).Nodup)
    (hdeclared : (columnNames p.declared).Nodup) :
    p.alterations = [] ↔ p.columnDrifts = [] ∧ p.keyDrifts = [] ∧ p.optionDrifts = [] := by
  constructor
  · intro h
    have hphases := h
    simp only [alterations, List.append_eq_nil_iff] at hphases
    obtain ⟨⟨⟨⟨⟨hdropped, -⟩, -⟩, -⟩, hadded⟩, hset⟩ := hphases
    refine ⟨?_, ?_, ?_⟩
    · refine List.eq_nil_iff_forall_not_mem.2 fun d hd => ?_
      have hentry := (mem_columnDrifts_iff hlive hdeclared).1 hd
      have hcalled := filter_alterations hlive hdeclared d.name
      rw [h, hentry] at hcalled
      exact calledFor_ne_nil hentry hcalled.symm
    · refine List.eq_nil_iff_forall_not_mem.2 fun k hk => ?_
      obtain ⟨hverdict, hne, -⟩ := mem_keyDrifts_iff.1 hk
      have hdrops := keyDrops_of_sides.symm.trans (congrArg _ hdropped)
      have hadditions := keyAdditions_of_sides.symm.trans (congrArg _ hadded)
      have hl := List.filterMap_eq_nil_iff.1 hdrops k hk
      have hd := List.filterMap_eq_nil_iff.1 hadditions k hk
      rw [hverdict, Sides.verdictBy, Option.map_eq_none_iff.1 hl,
        Option.map_eq_none_iff.1 hd] at hne
      exact hne rfl
    · rw [optionSettings_eq] at hset
      split at hset
      · rename_i hempty
        exact List.isEmpty_iff.1 hempty
      · cases hset
  · rintro ⟨hcolumns, hkeys, hoptions⟩
    rw [alterations, optionSettings_eq, keyDrops, columnAdditions, columnModifications, columnDrops,
      keyAdditions, hcolumns, hkeys, hoptions]
    rfl

/-! ### Every difference -/

variable (p)

/-- The entries list every column that differs, once, as what it is on the two sides. -/
structure ListsColumns (ds : List ColumnDrift) : Prop where
  once : (ds.map fun d => lower d.name).Nodup
  sides : ∀ d ∈ ds, d.sides = ⟨p.live.column? d.name, p.declared.column? d.name⟩
  moved : ∀ d ∈ ds, d.moved = p.movedColumns.contains (lower d.name)
  verdict : ∀ d ∈ ds, d.verdict ≠ .unchanged
  added_iff : ∀ name, (∃ d ∈ ds, lower d.name = lower name ∧ d.verdict = .added) ↔
    lower name ∈ columnNames p.declared ∧ lower name ∉ columnNames p.live
  dropped_iff : ∀ name, (∃ d ∈ ds, lower d.name = lower name ∧ d.verdict = .dropped) ↔
    lower name ∈ columnNames p.live ∧ lower name ∉ columnNames p.declared
  modified_iff : ∀ name, (∃ d ∈ ds, lower d.name = lower name ∧ d.verdict = .modified) ↔
    ∃ l c, p.live.column? name = some l ∧ p.declared.column? name = some c ∧
      (sameColumn (p.canonicalLive l) (p.canonicalDeclared c) = false ∨
        lower name ∈ p.movedColumns)

/-- The alterations of columns are those that the entries call for, each once. An added column is
put in its place again if the last common column before it moved. -/
structure AltersColumns (ds : List ColumnDrift) (as : List Alteration) : Prop where
  called : ∀ d ∈ ds, as.filter (·.isAbout d.name) = p.calledFor d
  listed : ∀ a ∈ as, ∀ name, a.isAbout name → ∃ d ∈ ds, lower d.name = lower name
  displaced : ∀ pre c post, p.declared.columns = pre ++ c :: post →
    lower c.name ∉ columnNames p.live →
      (lower c.name ∈ p.displacedColumns ↔
        ∃ q ∈ (pre.filter fun q => lower q.name ∈ columnNames p.live).getLast?,
          lower q.name ∈ p.movedColumns)

/-- The entries list every key that differs, and the alterations drop the live side of each and add
the declared one. -/
structure AltersKeys (ks : List KeyDrift) (as : List Alteration) : Prop where
  mem_iff : ∀ k, k ∈ ks ↔
    k.verdict = k.sides.verdictBy Key.sameDefinition ∧ k.verdict ≠ .unchanged ∧
      ((∃ key, (k.name, key) ∈ p.declared.namedKeys ∧
          k.sides = ⟨keyNamed? k.name p.live.namedKeys, some (key.withName k.name)⟩) ∨
        ∃ key, (k.name, key) ∈ p.live.namedKeys ∧
          lower k.name ∉ keyNames p.declared.namedKeys ∧
          k.sides = ⟨some (key.withName k.name), none⟩)
  drops : as.filter (·.action = .dropKey) =
    ks.filterMap fun k => k.sides.live.map fun l => .dropKey k.name l.kind
  additions : as.filter (·.action = .addKey) =
    ks.filterMap fun k => k.sides.declared.map fun key => .addKey k.name key

/-- The options that differ are set together, each to the value that it is to have. -/
structure SetsOptions (os : List OptionDrift) (as : List Alteration) : Prop where
  declared : ∀ o ∈ os, ∃ v, o.sides.declared = some v
  settings : as.filter (·.action = .alterOptions) =
    if os.isEmpty then []
    else [.setOptions (os.filterMap fun o => o.sides.declared.map fun v => (o.name, v))]

/-- Keys are dropped, columns added, modified and dropped, keys added, and at last options set, at
most once. -/
def InPhases (actions : List Action) : Prop :=
  ∃ keyDrops additions modifications columnDrops keyAdditions settings, settings ≤ 1 ∧
    actions = List.replicate keyDrops Action.dropKey ++
      List.replicate additions Action.addColumn ++
      List.replicate modifications Action.modifyColumn ++
      List.replicate columnDrops Action.dropColumn ++
      List.replicate keyAdditions Action.addKey ++
      List.replicate settings Action.alterOptions

variable {p}

section

variable (hlive : (columnNames p.live).Nodup) (hdeclared : (columnNames p.declared).Nodup)

include hlive hdeclared

lemma listsColumns_columnDrifts : p.ListsColumns p.columnDrifts where
  once := nodup_columnDrifts hlive hdeclared
  sides _ hd := sides_of_driftOf? ((mem_columnDrifts_iff hlive hdeclared).1 hd)
  moved _ hd := moved_of_driftOf? ((mem_columnDrifts_iff hlive hdeclared).1 hd)
  verdict _ hd := verdict_ne_of_driftOf? ((mem_columnDrifts_iff hlive hdeclared).1 hd)
  added_iff _ := (exists_columnDrift_iff hlive hdeclared).trans exists_added_iff
  dropped_iff _ := (exists_columnDrift_iff hlive hdeclared).trans exists_dropped_iff
  modified_iff _ := (exists_columnDrift_iff hlive hdeclared).trans exists_modified_iff

lemma called_of_mem_columnDrifts {d : ColumnDrift} (hd : d ∈ p.columnDrifts) :
    (p.alterations.map (·.alteration)).filter (·.isAbout d.name) = p.calledFor d := by
  rw [filter_alterations hlive hdeclared, (mem_columnDrifts_iff hlive hdeclared).1 hd]
  rfl

lemma exists_columnDrift_of_isAbout {a : Alteration}
    (ha : a ∈ p.alterations.map (·.alteration)) {name : String} (habout : a.isAbout name) :
    ∃ d ∈ p.columnDrifts, lower d.name = lower name := by
  have hmem : a ∈ (p.driftOf? name).elim [] p.calledFor := by
    rw [← filter_alterations hlive hdeclared]
    exact List.mem_filter.2 ⟨ha, habout⟩
  rcases hentry : p.driftOf? name with _ | d
  · rw [hentry] at hmem
    cases hmem
  · have hd : d ∈ p.columnDrifts.filter fun d => Text.sameName d.name name := by
      rw [filter_columnDrifts hlive hdeclared, hentry]
      exact List.mem_singleton_self d
    obtain ⟨hd, hname⟩ := List.mem_filter.1 hd
    exact ⟨d, hd, Text.sameName_iff.1 hname⟩

end

lemma altersKeys_keyDrifts : p.AltersKeys p.keyDrifts (p.alterations.map (·.alteration)) where
  mem_iff k := mem_keyDrifts_iff
  drops := by
    rw [filter_action_alterations, ← keyDrops_of_sides]
    simp
  additions := by
    rw [filter_action_alterations, ← keyAdditions_of_sides]
    simp

lemma setsOptions_optionDrifts :
    SetsOptions p.optionDrifts (p.alterations.map (·.alteration)) where
  declared o ho := exists_declared_of_mem_optionDrifts ho
  settings := by
    rw [filter_action_alterations, optionSettings_eq]
    rcases p.optionDrifts.isEmpty <;> rfl

lemma inPhases_alterations : InPhases (p.alterations.map (·.alteration.action)) := by
  refine ⟨_, _, _, _, _, _, ?_, map_action_alterations⟩
  rcases p.optionDrifts.isEmpty <;> simp

end TablePair

/-- **Every difference, once and in order.** Between two tables that were read, the columns that
differ are listed once each, as added, dropped or modified by what they are on the two sides; every
entry of the columns and keys calls for its alterations, and nothing else is altered; the steps are
those of the alterations, in the order of the phases; and the table counts as altered exactly if
there are steps. -/
theorem TableDrift.steps_cover_drift {real real' : FloatSize} {liveText declaredText : String}
    {live declared : Table} (catalog : Catalog)
    (hlive : Statement.read real liveText = .table live)
    (hdeclared : Statement.read real' declaredText = .table declared) :
    let p : TablePair := ⟨live, declared, catalog⟩
    let d : TableDrift := ⟨⟨some live, some declared⟩, catalog⟩
    let alterations := p.alterations.map (·.alteration)
    d.steps = p.alterations.map (PlannedAlteration.step d.name) ∧
      p.ListsColumns d.columns ∧ p.AltersColumns d.columns alterations ∧
      p.AltersKeys d.keys alterations ∧ TablePair.SetsOptions d.options alterations ∧
      TablePair.InPhases (d.steps.map (·.action)) ∧ (d.verdict = .altered ↔ d.steps ≠ []) := by
  intro p d alterations
  have hliveNames : (TablePair.columnNames p.live).Nodup :=
    (Statement.wellPlaced_of_read hlive).nodup
  have hplaced : p.declared.WellPlaced := Statement.wellPlaced_of_read hdeclared
  have hsteps : d.steps = p.alterations.map (PlannedAlteration.step d.name) := rfl
  have hactions : d.steps.map (·.action) = p.alterations.map (·.alteration.action) := by
    rw [hsteps, List.map_map]
    exact List.map_congr_left fun a _ => PlannedAlteration.action_step a d.name
  refine ⟨hsteps, TablePair.listsColumns_columnDrifts hliveNames hplaced.nodup, ⟨?_, ?_, ?_⟩,
    TablePair.altersKeys_keyDrifts, TablePair.setsOptions_optionDrifts, ?_, ?_⟩
  · exact fun c hc => TablePair.called_of_mem_columnDrifts hliveNames hplaced.nodup hc
  · exact fun a ha name habout =>
      TablePair.exists_columnDrift_of_isAbout hliveNames hplaced.nodup ha habout
  · exact fun pre c post hc hadded => TablePair.mem_displacedColumns_of_added hplaced hc hadded
  · rw [hactions]
    exact TablePair.inPhases_alterations
  · have hnil : d.steps = [] ↔ d.columns = [] ∧ d.keys = [] ∧ d.options = [] := by
      rw [hsteps, List.map_eq_nil_iff]
      exact TablePair.alterations_eq_nil_iff hliveNames hplaced.nodup
    have hempty : d.isEmpty = true ↔ d.columns = [] ∧ d.keys = [] ∧ d.options = [] := by
      simp [isEmpty, and_assoc]
    have hverdict : d.verdict = if d.isEmpty then .unchanged else .altered := rfl
    rw [Ne, hnil, ← hempty, hverdict]
    rcases d.isEmpty <;> simp

/-- A column moves to the front, an added one follows it, one is dropped, a key is named anew, and
the comment goes. -/
theorem TableDrift.steps_cover_drift_mixed :
    let live : Table :=
      { Table.ofKeys ["a", "b", "x", "c"]
          [{ Key.ofParts .plain [.ofColumn "b"] with name? := "k1" }] with
        options := .ofList [("COMMENT", "old")] }
    let declared : Table := .ofKeys ["C", "d", "a", "b"]
      [{ Key.ofParts .plain [.ofColumn "b"] with name? := "k2" }]
    let p : TablePair := ⟨live, declared, .builtin⟩
    let d : TableDrift := ⟨⟨some live, some declared⟩, .builtin⟩
    Statement.read .double "CREATE TABLE t (a INT, b INT, x INT, c INT, KEY k1 (b)) COMMENT 'old'" =
        .table live ∧
      Statement.read .double "CREATE TABLE t (C INT, d INT, a INT, b INT, KEY k2 (b))" =
        .table declared ∧
      d.steps.map (·.action) = [.dropKey, .addColumn, .modifyColumn, .modifyColumn, .dropColumn,
        .addKey, .alterOptions] ∧
      p.ListsColumns d.columns ∧
      p.AltersColumns d.columns (p.alterations.map (·.alteration)) ∧ d.verdict = .altered := by
  intro live declared p d
  have hlive : Statement.read .double
      "CREATE TABLE t (a INT, b INT, x INT, c INT, KEY k1 (b)) COMMENT 'old'" =
        .table live := by decide +kernel
  have hdeclared : Statement.read .double
      "CREATE TABLE t (C INT, d INT, a INT, b INT, KEY k2 (b))" = .table declared := by
    decide +kernel
  have hactions : d.steps.map (·.action) = [.dropKey, .addColumn, .modifyColumn, .modifyColumn,
      .dropColumn, .addKey, .alterOptions] := by decide +kernel
  obtain ⟨-, hlists, halters, -, -, -, hverdict⟩ :=
    TableDrift.steps_cover_drift .builtin hlive hdeclared
  refine ⟨hlive, hdeclared, hactions, hlists, halters, hverdict.2 fun hnil => ?_⟩
  have hnone : d.steps.map (·.action) = [] := by
    rw [show d.steps = [] from hnil]
    rfl
  rw [hactions] at hnone
  cases hnone

end SchemaDrift
