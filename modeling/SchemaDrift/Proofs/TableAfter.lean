import Mathlib
import SchemaDrift.Proofs.KeyReplay
import SchemaDrift.Proofs.OptionReplay

/-!
What one run of the alterations of a table leaves on the server. The run is never stuck. Every
declared column is there, stored anew if it was added or modified and as before if it was left
alone; keys and options are those of their own replays.
-/

namespace SchemaDrift

open Text (lower)

/-! ### Where columns come from -/

section Lists

variable {α : Type} {key : α → String} {entry : Column → α}

lemma mem_putAfter {name : String} {x y : α} {xs ys : List α} (h : putAfter key name x xs = some ys)
    (hy : y ∈ ys) : y = x ∨ y ∈ xs := by
  induction xs generalizing ys with
  | nil => cases h
  | cons z zs ih =>
    rw [putAfter] at h
    split at h
    · obtain rfl := Option.some.inj h
      simp only [List.mem_cons] at hy ⊢
      tauto
    · obtain ⟨ys, hys, rfl⟩ := Option.map_eq_some_iff.1 h
      rcases List.mem_cons.1 hy with rfl | hy
      · exact .inr List.mem_cons_self
      · exact (ih hys hy).imp_right (List.mem_cons_of_mem _)

lemma Place.mem_put {place : Place} {x y : α} {xs ys : List α} (h : place.put key x xs = some ys)
    (hy : y ∈ ys) : y = x ∨ y ∈ xs := by
  cases place with
  | first =>
    obtain rfl := Option.some.inj h
    exact List.mem_cons.1 hy
  | after name => exact mem_putAfter h hy

lemma Alteration.mem_onColumns {a : Alteration} {xs ys : List α}
    (h : a.onColumns key entry xs = some ys) {y : α} (hy : y ∈ ys) :
    (∃ c ∈ a.definition?, y = entry c) ∨ y ∈ xs ∧ ∀ c ∈ a.definition?, key y ≠ lower c.name := by
  cases a with
  | addColumn c =>
    rw [onColumns] at h
    split at h
    · cases h
    · -- A column is added only under a new name, so the old ones have others.
      rename_i hnew
      refine (Place.mem_put h hy).imp (fun he => ⟨c, rfl, he⟩) fun hy => ⟨hy, ?_⟩
      rintro _ ⟨⟩ he
      exact hnew (he ▸ List.mem_map_of_mem hy)
  | modifyColumn c place? =>
    cases place? with
    | none =>
      rw [onColumns] at h
      split at h
      · obtain rfl := Option.some.inj h
        obtain ⟨x, hx, rfl⟩ := List.mem_map.1 hy
        split
        · exact .inl ⟨c, rfl, rfl⟩
        · rename_i hne
          refine .inr ⟨hx, ?_⟩
          rintro _ ⟨⟩
          exact hne
      · cases h
    | some place =>
      rw [onColumns] at h
      split at h
      · refine (Place.mem_put h hy).imp (fun he => ⟨c, rfl, he⟩) fun hy => ?_
        obtain ⟨hy, hne⟩ := List.mem_filter.1 hy
        refine ⟨hy, ?_⟩
        rintro _ ⟨⟩
        simpa using hne
      · cases h
  | dropColumn name =>
    rw [onColumns] at h
    split at h
    · obtain rfl := Option.some.inj h
      exact .inr ⟨List.mem_of_mem_filter hy, by simp [definition?]⟩
    · cases h
  | dropKey name kind => exact .inr ⟨Option.some.inj h ▸ hy, by simp [definition?]⟩
  | addKey name k => exact .inr ⟨Option.some.inj h ▸ hy, by simp [definition?]⟩
  | setOptions settings => exact .inr ⟨Option.some.inj h ▸ hy, by simp [definition?]⟩

lemma mem_foldlM_onColumns {as : List Alteration} {xs ys : List α}
    (h : as.foldlM (fun xs a => a.onColumns key entry xs) xs = some ys) {y : α} (hy : y ∈ ys) :
    (∃ a ∈ as, ∃ c ∈ a.definition?, y = entry c) ∨
      y ∈ xs ∧ ∀ a ∈ as, ∀ c ∈ a.definition?, key y ≠ lower c.name := by
  induction as generalizing xs with
  | nil =>
    obtain rfl := Option.some.inj h
    exact .inr ⟨hy, by simp⟩
  | cons a as ih =>
    rw [List.foldlM_cons] at h
    obtain ⟨zs, hzs, h⟩ := Option.bind_eq_some_iff.1 h
    rcases ih h with ⟨b, hb, hdef⟩ | ⟨hy, hlater⟩
    · exact .inl ⟨b, List.mem_cons_of_mem _ hb, hdef⟩
    · rcases Alteration.mem_onColumns hzs hy with hdef | ⟨hy, hnow⟩
      · exact .inl ⟨a, List.mem_cons_self, hdef⟩
      · exact .inr ⟨hy, by simpa using ⟨hnow, hlater⟩⟩

lemma map_foldlM_onColumns (key : α → String) (entry : Column → α)
    (hkey : ∀ c, key (entry c) = lower c.name) (as : List Alteration) (xs : List α) :
    (as.foldlM (fun xs a => Alteration.onColumns key entry a xs) xs).map (List.map key) =
      as.foldlM (fun ns a => a.onNames ns) (xs.map key) := by
  induction as generalizing xs with
  | nil => rfl
  | cons a as ih =>
    rw [List.foldlM_cons, List.foldlM_cons, ← a.map_onColumns hkey]
    rcases a.onColumns key entry xs with _ | ys
    · rfl
    · exact ih ys

lemma eq_map_of_map_eq {β γ : Type} {k : α → γ} {k' : β → γ} {f : β → α} {xs : List α}
    {ys : List β} (hkeys : xs.map k = ys.map k')
    (h : ∀ x ∈ xs, ∀ y ∈ ys, k x = k' y → x = f y) : xs = ys.map f := by
  induction ys generalizing xs with
  | nil => simpa using hkeys
  | cons y ys ih =>
    cases xs with
    | nil => cases hkeys
    | cons x xs =>
      rw [List.map_cons, List.map_cons, List.cons.injEq] at hkeys
      rw [List.map_cons, h x List.mem_cons_self y List.mem_cons_self hkeys.1, ih hkeys.2]
      exact fun x hx y hy => h x (List.mem_cons_of_mem _ hx) y (List.mem_cons_of_mem _ hy)

end Lists

/-! ### The columns that are left -/

lemma Table.column?_of_mem {t : Table} (h : (TablePair.columnNames t).Nodup) {c : Column}
    (hc : c ∈ t.columns) {name : String} (hname : lower c.name = lower name) :
    t.column? name = some c := by
  have hfound : (t.column? name).isSome := by
    rw [Table.column?_isSome_iff, ← hname]
    exact List.mem_map_of_mem hc
  obtain ⟨c', hc'⟩ := Option.isSome_iff_exists.1 hfound
  obtain ⟨hmem, hname'⟩ := Table.mem_columns_of_column? hc'
  rw [hc', List.inj_on_of_nodup_map h hmem hc (hname'.trans hname.symm)]

namespace TablePair

variable (p : TablePair)

/-- A declared column as the server has it after the run: as it was stored before if it is on both
sides and not modified, else as declared. -/
def columnAfter (c : Column) : Column :=
  match p.live.column? c.name, p.modificationOf? c with
  | some l, none => l.stored p.catalog p.live.encodingInForce
  | _, _ => c.stored p.catalog p.live.encodingInForce

def rearrangements : List PlannedAlteration :=
  p.keyDrops ++ p.columnAdditions ++ p.columnModifications ++ p.columnDrops ++ p.keyAdditions

lemma alterations_eq : p.alterations = p.rearrangements ++ p.optionSettings := rfl

lemma exists_definition?_iff {c : Column} :
    (∃ a ∈ p.rearrangements.map (·.alteration), c ∈ a.definition?) ↔
      c ∈ p.declared.columns ∧
        (p.live.column? c.name = none ∨ (p.modificationOf? c).isSome) := by
  rw [rearrangements, columnAdditions_eq, columnModifications_eq, columnDrops_eq]
  simp only [List.map_append, keyDrops_eq, keyAdditions_eq, List.mem_append]
  constructor
  · rintro ⟨a, ((((ha | ha) | ha) | ha) | ha), hc⟩
    · obtain ⟨d, -, rfl⟩ := List.mem_map.1 ha
      cases hc
    · obtain ⟨m, hm, rfl⟩ := List.mem_map.1 ha
      obtain ⟨d, hd, hm⟩ := List.mem_filterMap.1 hm
      rw [additionOf?_eq] at hm
      split at hm
      · rename_i hl
        obtain rfl := Option.some.inj hm
        obtain rfl := Option.some.inj hc
        exact ⟨hd, .inl hl⟩
      · cases hm
    · obtain ⟨m, hm, rfl⟩ := List.mem_map.1 ha
      obtain ⟨d, hd, hm⟩ := List.mem_filterMap.1 hm
      obtain rfl := Option.some.inj ((p.definition?_of_modificationOf? hm).symm.trans hc)
      exact ⟨hd, .inr (by rw [hm]; rfl)⟩
    · rw [List.map_map] at ha
      obtain ⟨d, -, rfl⟩ := List.mem_map.1 ha
      cases hc
    · obtain ⟨k, -, rfl⟩ := List.mem_map.1 ha
      cases hc
  · rintro ⟨hc, hl | hm⟩
    · refine ⟨.addColumn c, .inl (.inl (.inl (.inr ?_))), rfl⟩
      exact List.mem_map.2 ⟨.harmless (.addColumn c),
        List.mem_filterMap.2 ⟨c, hc, by rw [additionOf?_eq, if_pos hl]⟩, rfl⟩
    · obtain ⟨m, hm⟩ := Option.isSome_iff_exists.1 hm
      have hmem : m ∈ p.declared.columns.filterMap p.modificationOf? :=
        List.mem_filterMap.2 ⟨c, hc, hm⟩
      exact ⟨m.alteration, .inl (.inl (.inr (List.mem_map_of_mem hmem))),
        p.definition?_of_modificationOf? hm⟩

section

variable {p} (hlive : p.live.WellPlaced) (hdeclared : p.declared.WellPlaced)

include hlive hdeclared in
lemma foldlM_names_rearrangements :
    (p.rearrangements.map (·.alteration)).foldlM (fun ns a => a.onNames ns) (columnNames p.live) =
      some (columnNames p.declared) := by
  have hnames := foldlM_alterations p hlive hdeclared
  rw [alterations_eq, List.map_append, List.foldlM_append] at hnames
  obtain ⟨ns, hns, hrest⟩ := Option.bind_eq_some_iff.1 hnames
  rw [foldlM_of_idle fun a ha => p.onNames_of_mem_optionSettings ha] at hrest
  rw [hns, hrest]

include hlive hdeclared in
/-- The columns of the run are those of the declaration, as far as they are stored anew. -/
lemma foldlM_columns : (p.rearrangements.map (·.alteration)).foldlM
    (fun cs a => Alteration.onColumns (fun c => lower c.name)
      (Column.stored p.catalog p.live.encodingInForce) a cs)
    (p.live.onServer p.catalog).columns = some (p.declared.columns.map p.columnAfter) := by
  have hrun := map_foldlM_onColumns (fun c : Column => lower c.name)
    (Column.stored p.catalog p.live.encodingInForce) (fun _ => rfl)
    (p.rearrangements.map (·.alteration)) (p.live.onServer p.catalog).columns
  have honServer : ((p.live.onServer p.catalog).columns.map fun c => lower c.name) =
      columnNames p.live := by
    rw [Table.onServer, List.map_map]
    rfl
  rw [honServer, foldlM_names_rearrangements hlive hdeclared] at hrun
  obtain ⟨cs, hcs, hkeys⟩ := Option.map_eq_some_iff.1 hrun
  rw [hcs]
  -- The names are those of the declared columns, so that it is enough to see which column has each.
  refine congrArg some (eq_map_of_map_eq hkeys fun x hx c hc hxc => ?_)
  rcases mem_foldlM_onColumns hcs hx with ⟨a, ha, d, hd, rfl⟩ | ⟨hx, hnot⟩
  · obtain ⟨hdmem, hnew⟩ := p.exists_definition?_iff.1 ⟨a, ha, hd⟩
    obtain rfl : d = c := List.inj_on_of_nodup_map hdeclared.nodup hdmem hc hxc
    unfold columnAfter
    rcases hnew with hl | hm
    · rw [hl]
    · obtain ⟨m, hm⟩ := Option.isSome_iff_exists.1 hm
      rw [hm]
      rcases p.live.column? d.name <;> rfl
  · obtain ⟨l, hl, rfl⟩ := List.mem_map.1 hx
    have hlc : p.live.column? c.name = some l := Table.column?_of_mem hlive.nodup hl hxc
    have hm : p.modificationOf? c = none := by
      by_contra hm
      obtain ⟨a, ha, hac⟩ := p.exists_definition?_iff.2
        ⟨hc, .inr (Option.isSome_iff_ne_none.2 hm)⟩
      exact hnot a ha c hac hxc
    rw [columnAfter, hlc, hm]

lemma leaves_of_mem_columns {a : Alteration}
    (h : a ∈ (p.columnAdditions ++ p.columnModifications ++ p.columnDrops).map (·.alteration)) :
    (∀ ks, a.onKeys ks = some ks) ∧ ∀ os, a.onOptions p.catalog os = os := by
  have hdefinition (c : Column) (hc : a.definition? = some c) :
      (∀ ks, a.onKeys ks = some ks) ∧ ∀ os, a.onOptions p.catalog os = os := by
    cases a with
    | addColumn => exact ⟨fun _ => rfl, fun _ => rfl⟩
    | modifyColumn => exact ⟨fun _ => rfl, fun _ => rfl⟩
    | _ => cases hc
  rw [columnAdditions_eq, columnModifications_eq, columnDrops_eq] at h
  simp only [List.map_append, List.mem_append] at h
  rcases h with (h | h) | h
  · obtain ⟨m, hm, rfl⟩ := List.mem_map.1 h
    obtain ⟨c, -, hm⟩ := List.mem_filterMap.1 hm
    rw [additionOf?_eq] at hm
    split at hm
    · obtain rfl := Option.some.inj hm
      exact hdefinition c rfl
    · cases hm
  · obtain ⟨m, hm, rfl⟩ := List.mem_map.1 h
    obtain ⟨c, -, hm⟩ := List.mem_filterMap.1 hm
    exact hdefinition c (p.definition?_of_modificationOf? hm)
  · rw [List.map_map] at h
    obtain ⟨c, -, rfl⟩ := List.mem_map.1 h
    exact ⟨fun _ => rfl, fun _ => rfl⟩

lemma rearrangements_eq : p.rearrangements = p.keyDrops ++
    (p.columnAdditions ++ p.columnModifications ++ p.columnDrops) ++ p.keyAdditions := by
  simp only [rearrangements, List.append_assoc]

lemma onOptions_of_mem_rearrangements {a : Alteration}
    (h : a ∈ p.rearrangements.map (·.alteration)) (os : TableOptions) :
    a.onOptions p.catalog os = os := by
  rw [rearrangements_eq, List.map_append, List.map_append, keyDrops_eq, keyAdditions_eq,
    List.mem_append, List.mem_append] at h
  rcases h with (h | h) | h
  · obtain ⟨d, -, rfl⟩ := List.mem_map.1 h
    rfl
  · exact (p.leaves_of_mem_columns h).2 os
  · obtain ⟨k, -, rfl⟩ := List.mem_map.1 h
    rfl

def after (p : TablePair) : Table :=
  { p.live.onServer p.catalog with
    columns := p.declared.columns.map p.columnAfter
    keys := p.keysAfter
    options := p.optionsAfter }

include hlive hdeclared in
/-- **The run is never stuck.** It leaves the declared columns as far as they are stored anew, the
keys that are kept or added, and the options that are set. -/
theorem run_eq_after (hliveKeys : (keyNames p.live.namedKeys).Nodup)
    (hdeclaredKeys : (keyNames p.declared.namedKeys).Nodup) : p.run = some p.after := by
  obtain ⟨hdrops, hadditions⟩ := foldlM_keys hliveKeys hdeclaredKeys
  have hkeys : (p.rearrangements.map (·.alteration)).foldlM (fun ks a => a.onKeys ks)
      (p.live.onServer p.catalog).keys = some p.keysAfter := by
    rw [rearrangements_eq, List.map_append, List.map_append, List.foldlM_append,
      List.foldlM_append, hdrops, Option.bind_eq_bind, Option.bind_some,
      foldlM_of_idle fun a ha => (p.leaves_of_mem_columns ha).1, Option.bind_some]
    exact hadditions
  have hrun := Table.foldlM_alter (fun a ha => p.onOptions_of_mem_rearrangements ha)
    (foldlM_columns hlive hdeclared) hkeys
  rw [run, alterations_eq, List.map_append, List.foldlM_append, hrun]
  exact p.foldlM_optionSettings rfl

end

end TablePair

end SchemaDrift
