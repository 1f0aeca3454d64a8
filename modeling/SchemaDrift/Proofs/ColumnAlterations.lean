import Mathlib
import SchemaDrift.Proofs.TableYield

/-!
The alterations of columns, column by column. Every declared column is added, modified or left alone
by itself, whatever becomes of the others; what depends on the others is which columns moved and
which additions come after one that did. Here the order that both sides share is characterised by
what it is used for: the columns outside of it apart, both sides list the common columns alike.
-/

namespace SchemaDrift

open Text (lower)

namespace Moves

variable {α : Type} [DecidableEq α]

omit [DecidableEq α] in
lemma longer_sublist {s t l : List α} (hs : s.Sublist l) (ht : t.Sublist l) :
    (longer s t).Sublist l := by
  unfold longer
  split
  · exact hs
  · exact ht

theorem longestCommon_sublist_left (xs ys : List α) :
    (longestCommon xs ys).Sublist xs := by
  induction xs generalizing ys with
  | nil => simp
  | cons x xs ihx =>
    induction ys with
    | nil => simp
    | cons y ys ihy =>
      rw [longestCommon_cons_cons]
      split
      · exact (ihx ys).cons_cons x
      · exact longer_sublist ((ihx (y :: ys)).cons x) ihy

theorem longestCommon_sublist_right (xs ys : List α) :
    (longestCommon xs ys).Sublist ys := by
  induction xs generalizing ys with
  | nil => simp
  | cons x xs ihx =>
    induction ys with
    | nil => simp
    | cons y ys ihy =>
      rw [longestCommon_cons_cons]
      split
      · rename_i hxy
        rw [hxy]
        exact (ihx ys).cons_cons y
      · exact longer_sublist (ihx (y :: ys)) (ihy.cons y)

lemma longestCommon_self (xs : List α) : longestCommon xs xs = xs := by
  induction xs with
  | nil => simp
  | cons x xs ih => rw [longestCommon_cons_cons, if_pos rfl, ih]

lemma filter_mem_sublist {l m : List α} (h : l.Sublist m) (hm : m.Nodup) :
    m.filter (· ∈ l) = l := by
  induction h with
  | slnil => rfl
  | @cons l m a h ih =>
    rw [List.nodup_cons] at hm
    have ha : a ∉ l := fun hal => hm.1 (h.subset hal)
    rw [List.filter_cons_of_neg (by simpa using ha), ih hm.2]
  | @cons_cons l m a h ih =>
    rw [List.nodup_cons] at hm
    rw [List.filter_cons_of_pos (by simp)]
    congr 1
    refine Eq.trans (List.filter_congr fun b hb => ?_) (ih hm.2)
    have hba : b ≠ a := fun he => hm.1 (he ▸ hb)
    simp [hba]

lemma mem_moved {new old : List α} {x : α} :
    x ∈ moved new old ↔ x ∈ new ∧ x ∉ longestCommon new old := by
  simp [moved]

lemma filter_not_moved {new old : List α} (hn : new.Nodup) (ho : old.Nodup)
    (hmem : ∀ x, x ∈ new ↔ x ∈ old) :
    old.filter (· ∉ moved new old) = new.filter (· ∉ moved new old) := by
  have hstable {l : List α} (hl : l.Nodup) (hsub : (longestCommon new old).Sublist l)
      (hnew : ∀ x ∈ l, x ∈ new) :
      l.filter (· ∉ moved new old) = longestCommon new old := by
    refine Eq.trans (List.filter_congr fun x hx => ?_) (filter_mem_sublist hsub hl)
    simp [mem_moved, hnew x hx]
  rw [hstable ho (longestCommon_sublist_right new old) fun x hx => (hmem x).2 hx,
    hstable hn (longestCommon_sublist_left new old) fun x hx => hx]

end Moves

/-- The column that an alteration defines. -/
def Alteration.definition? : Alteration → Option Column
  | .addColumn c | .modifyColumn c _ => some c
  | .dropKey .. | .dropColumn _ | .addKey .. | .setOptions _ => none

namespace TablePair

variable (p : TablePair)

/-! ### What becomes of one column -/

lemma declaredColumnDrift?_eq (movedNames : List String) (c : Column) :
    p.declaredColumnDrift? movedNames c =
      match p.live.column? c.name with
      | none => some ⟨c.name, .added, movedNames.contains (lower c.name), ⟨none, some c⟩⟩
      | some l =>
        if sameColumn (p.canonicalLive l) (p.canonicalDeclared c) &&
            !movedNames.contains (lower c.name) then none
        else some ⟨c.name, .modified, movedNames.contains (lower c.name), ⟨some l, some c⟩⟩ := by
  unfold declaredColumnDrift?
  rcases p.live.column? c.name with _ | l
  · simp [Sides.verdictBy]
  · rcases hs : sameColumn (p.canonicalLive l) (p.canonicalDeclared c) with _ | _
    · simp [Sides.verdictBy, hs]
    · rcases hm : movedNames.contains (lower c.name) with _ | _ <;> simp [Sides.verdictBy, hs]

/-- The addition of a declared column that the live table lacks. -/
def additionOf? (c : Column) : Option PlannedAlteration :=
  if lower c.name ∈ columnNames p.live then none else some (.harmless (.addColumn c))

/-- The modification of a declared column: a common one that differs or moved, or an added one that
is displaced. -/
def modificationOf? (c : Column) : Option PlannedAlteration :=
  match p.live.column? c.name with
  | none =>
    if p.displacedColumns.contains (lower c.name) then
      some (.harmless (.modifyColumn c (some c.place)))
    else none
  | some l =>
    if sameColumn (p.canonicalLive l) (p.canonicalDeclared c) &&
        !p.movedColumns.contains (lower c.name) then none
    else some (p.modification (p.movedColumns.contains (lower c.name)) l c)

lemma additionOf?_eq (c : Column) : p.additionOf? c =
    if p.live.column? c.name = none then some (.harmless (.addColumn c)) else none := by
  unfold additionOf?
  by_cases h : lower c.name ∈ columnNames p.live
  · rw [if_pos h, if_neg fun hl => Table.column?_eq_none_iff.1 hl h]
  · rw [if_neg h, if_pos (Table.column?_eq_none_iff.2 h)]

lemma definition?_of_modificationOf? {c : Column} {a : PlannedAlteration}
    (h : p.modificationOf? c = some a) : a.alteration.definition? = some c := by
  unfold modificationOf? at h
  split at h
  · split at h
    · obtain rfl := Option.some.inj h
      rfl
    · cases h
  · split at h
    · cases h
    · obtain rfl := Option.some.inj h
      rfl

def droppedColumns : List Column :=
  p.live.columns.filter fun c => (p.declared.column? c.name).isNone

lemma filterMap_columnDrifts {β : Type} (f : ColumnDrift → Option β) :
    p.columnDrifts.filterMap f =
      (p.declared.columns.filterMap fun c =>
        (p.declaredColumnDrift? p.movedColumns c).bind f) ++
      p.droppedColumns.filterMap fun c =>
        f ⟨c.name, .dropped, false, ⟨some c, none⟩⟩ := by
  rw [columnDrifts, ← droppedColumns, List.filterMap_append, List.filterMap_map,
    List.filterMap_filterMap]
  rfl

lemma columnAdditions_eq : p.columnAdditions = p.declared.columns.filterMap p.additionOf? := by
  rw [columnAdditions, filterMap_columnDrifts]
  simp only [List.filterMap_none, List.append_nil]
  refine List.filterMap_congr fun c _ => ?_
  rw [declaredColumnDrift?_eq, additionOf?]
  rcases hl : p.live.column? c.name with _ | l
  · simp [Table.column?_eq_none_iff.1 hl]
  · have hm : lower c.name ∈ columnNames p.live := by simp [← Table.column?_isSome_iff, hl]
    rw [if_pos hm]
    simp only
    split <;> rfl

lemma columnModifications_eq :
    p.columnModifications = p.declared.columns.filterMap p.modificationOf? := by
  rw [columnModifications, filterMap_columnDrifts]
  simp only [List.filterMap_none, List.append_nil]
  refine List.filterMap_congr fun c _ => ?_
  rw [declaredColumnDrift?_eq, modificationOf?]
  rcases p.live.column? c.name with _ | l
  · rfl
  · simp only
    split <;> rfl

lemma columnDrops_eq : p.columnDrops = p.droppedColumns.map fun c =>
      ⟨.dropColumn c.name, some (Guard.ofDropColumn p.name c), none⟩ := by
  rw [columnDrops, filterMap_columnDrifts]
  refine (congrArg (· ++ _) (List.filterMap_eq_nil_iff.2 fun c _ => ?_)).trans ?_
  · rw [declaredColumnDrift?_eq]
    rcases p.live.column? c.name with _ | l
    · rfl
    · simp only
      split <;> rfl
  · rw [List.nil_append, ← List.filterMap_eq_map]
    rfl

lemma exists_of_mem_optionSettings {a : PlannedAlteration} (h : a ∈ p.optionSettings) :
    ∃ settings, a = .harmless (.setOptions settings) := by
  unfold optionSettings at h
  simp only at h
  split at h
  · cases h
  · exact ⟨_, List.mem_singleton.1 h⟩

/-! ### Displaced columns -/

/-- Whether a column comes after a displaced one. -/
def followsDisplaced (displaced : List String) (c : Column) : Bool :=
  match c.place with
  | .after previous => displaced.contains (lower previous)
  | .first => false

/-- One more declared column, which may be displaced. -/
def displacing (displaced : List String) (c : Column) : List String :=
  if p.movedColumns.contains (lower c.name) ||
      !(columnNames p.live).contains (lower c.name) && followsDisplaced displaced c then
    displaced ++ [lower c.name]
  else displaced

lemma displacedColumns_eq : p.displacedColumns = p.declared.columns.foldl p.displacing [] := by
  rw [displacedColumns, columnDrifts, List.foldl_append, List.foldl_map,
    List.foldl_fixed' (by simp), List.foldl_filterMap]
  congr 1
  funext displaced c
  rw [declaredColumnDrift?_eq, displacing]
  rcases hl : p.live.column? c.name with _ | l
  · have hn := Table.column?_eq_none_iff.1 hl
    rcases hp : c.place with _ | previous
    · simp [followsDisplaced, hn, hp]
    · simp [followsDisplaced, hn, hp]
  · have hm : lower c.name ∈ columnNames p.live := by simp [← Table.column?_isSome_iff, hl]
    rcases hc : p.movedColumns.contains (lower c.name) with _ | _
    · rcases hs : sameColumn (p.canonicalLive l) (p.canonicalDeclared c) with _ | _
      · simp [hm, hs]
      · simp [hm, hs]
    · simp

lemma mem_movedColumns {n : String} (h : n ∈ p.movedColumns) :
    n ∈ columnNames p.declared ∧ n ∈ columnNames p.live := by
  have h := (Moves.mem_moved.1 h).1
  simpa using h

lemma mem_foldl_displacing {n : String} {cs : List Column} {displaced : List String}
    (h : n ∉ cs.map fun c => lower c.name) :
    n ∈ cs.foldl p.displacing displaced ↔ n ∈ displaced := by
  induction cs generalizing displaced with
  | nil => rfl
  | cons c cs ih =>
    rw [List.map_cons, List.mem_cons, not_or] at h
    rw [List.foldl_cons, ih h.2, displacing]
    split
    · simp [h.1]
    · rfl

lemma mem_displacing {displaced : List String} {c : Column} (h : lower c.name ∉ displaced) :
    lower c.name ∈ p.displacing displaced c ↔ lower c.name ∈ p.movedColumns ∨
      lower c.name ∉ columnNames p.live ∧ followsDisplaced displaced c = true := by
  unfold displacing
  split
  · rename_i hcond
    simpa using hcond
  · rename_i hcond
    simp_all

/-- **Displaced columns.** A declared column is displaced if it moved, or if it is added after a
displaced one. -/
theorem mem_displacedColumns_iff (hd : p.declared.WellPlaced) {pre post : List Column} {c : Column}
    (hc : p.declared.columns = pre ++ c :: post) :
    lower c.name ∈ p.displacedColumns ↔
      lower c.name ∈ p.movedColumns ∨ lower c.name ∉ columnNames p.live ∧
        ∃ q, pre.getLast? = some q ∧ lower q.name ∈ p.displacedColumns := by
  have hn := hd.nodup
  rw [columnNames, hc, List.map_append, List.map_cons, List.nodup_append, List.nodup_cons] at hn
  obtain ⟨-, ⟨hpost, -⟩, hpre⟩ := hn
  have hcpre : lower c.name ∉ pre.foldl p.displacing [] := by
    rw [p.mem_foldl_displacing]
    · exact List.not_mem_nil
    · exact fun hm => hpre _ hm _ List.mem_cons_self rfl
  have hq {q : Column} (hq : pre.getLast? = some q) :
      lower q.name ∈ p.displacedColumns ↔ lower q.name ∈ pre.foldl p.displacing [] := by
    have hmem : lower q.name ∈ pre.map fun c => lower c.name :=
      List.mem_map_of_mem (List.mem_of_getLast? hq)
    rw [displacedColumns_eq, hc, List.foldl_append, p.mem_foldl_displacing]
    exact fun hm => hpre _ hmem _ (by simpa using hm) rfl
  have hself : lower c.name ∈ p.displacedColumns ↔
      lower c.name ∈ p.displacing (pre.foldl p.displacing []) c := by
    rw [displacedColumns_eq, hc, List.foldl_append, List.foldl_cons, p.mem_foldl_displacing hpost]
  rw [hself, p.mem_displacing hcpre, followsDisplaced, hd.place pre c post hc, Place.following]
  rcases hl : pre.getLast? with _ | q
  · simp
  · simp [hq hl]

end TablePair

end SchemaDrift
