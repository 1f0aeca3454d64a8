import Mathlib
import SchemaDrift.Proofs.ColumnAlterations

/-!
What the alterations of a table do to the order of its columns. An alteration takes the list of
columns to another one, or is stuck: where an added column is there already, where one to be
modified or dropped is not, and where a column is put after one that is not there.

The order is carried by an invariant: the columns that are settled stand as the declaration lists
them. At first these are the common columns that did not move. Every addition that is not displaced
settles one more, then every modification that moves a column, until all declared columns are
settled.
-/

namespace SchemaDrift

open Text (lower)

/-! ### Lists of columns -/

section Lists

variable {α : Type} (key : α → String)

/-- Puts an element right behind that of a name. -/
def putAfter (name : String) (x : α) : List α → Option (List α)
  | [] => none
  | y :: ys => if key y = name then some (y :: x :: ys) else (putAfter name x ys).map (y :: ·)

def Place.put (x : α) : Place → List α → Option (List α)
  | .first, ys => some (x :: ys)
  | .after name, ys => putAfter key (lower name) x ys

/-- What an alteration does to a list of columns, if it is not stuck. The list holds for every
column an element with the column's name in lower case as `key`; an added or modified column comes
with a new element. -/
def Alteration.onColumns (entry : Column → α) : Alteration → List α → Option (List α)
  | .addColumn c, xs =>
    if lower c.name ∈ xs.map key then none else c.place.put key (entry c) xs
  | .modifyColumn c (some place), xs =>
    if lower c.name ∈ xs.map key then
      place.put key (entry c) (xs.filter fun x => key x ≠ lower c.name)
    else none
  | .modifyColumn c none, xs =>
    if lower c.name ∈ xs.map key then
      some (xs.map fun x => if key x = lower c.name then entry c else x)
    else none
  | .dropColumn name, xs =>
    if lower name ∈ xs.map key then some (xs.filter fun x => key x ≠ lower name) else none
  | .dropKey .., xs | .addKey .., xs | .setOptions _, xs => some xs

/-- What an alteration does to the names of the columns, in lower case. -/
def Alteration.onNames : Alteration → List String → Option (List String) :=
  onColumns id fun c => lower c.name

variable {key}

lemma map_putAfter (name : String) (x : α) (xs : List α) :
    (putAfter key name x xs).map (List.map key) = putAfter id name (key x) (xs.map key) := by
  induction xs with
  | nil => rfl
  | cons y ys ih =>
    simp only [putAfter, List.map_cons, id_eq]
    split
    · rfl
    · rw [← ih, Option.map_map, Option.map_map]
      rfl

lemma Place.map_put (place : Place) (x : α) (xs : List α) :
    (place.put key x xs).map (List.map key) = place.put id (key x) (xs.map key) := by
  cases place with
  | first => rfl
  | after name => exact map_putAfter ..

lemma Alteration.map_onColumns {entry : Column → α} (hkey : ∀ c, key (entry c) = lower c.name)
    (a : Alteration) (xs : List α) :
    (a.onColumns key entry xs).map (List.map key) = a.onNames (xs.map key) := by
  have hfilter (name : String) :
      (xs.filter fun x => key x ≠ name).map key = (xs.map key).filter fun n => id n ≠ name := by
    rw [List.filter_map]
    rfl
  unfold onNames
  cases a with
  | addColumn c =>
    simp only [onColumns, List.map_id]
    split
    · rfl
    · rw [Place.map_put, hkey]
  | modifyColumn c place? =>
    cases place? with
    | none =>
      simp only [onColumns, List.map_id]
      split
      · simp only [Option.map_some, List.map_map]
        congr 2
        funext x
        by_cases hx : key x = lower c.name
        · simp [hx, hkey]
        · simp [hx]
      · rfl
    | some place =>
      simp only [onColumns, List.map_id]
      split
      · rw [Place.map_put, hkey, hfilter]
      · rfl
  | dropColumn name =>
    simp only [onColumns, List.map_id]
    split
    · rw [Option.map_some, hfilter]
    · rfl
  | dropKey name kind => rfl
  | addKey name k => rfl
  | setOptions settings => rfl

end Lists

/-! ### Putting a name into its place -/

lemma putAfter_of_mem {name d : String} {ns : List String} (h : name ∈ ns) :
    ∃ u v, ns = u ++ v ∧ putAfter id name d ns = some (u ++ d :: v) ∧ u.getLast? = some name := by
  induction ns with
  | nil => cases h
  | cons n ns ih =>
    by_cases hn : n = name
    · exact ⟨[n], ns, rfl, by simp [putAfter, hn], by simp [hn]⟩
    · obtain ⟨u, v, hns, hput, hlast⟩ := ih ((List.mem_cons.1 h).resolve_left (Ne.symm hn))
      refine ⟨n :: u, v, by rw [hns, List.cons_append], by simp [putAfter, hn, hput], ?_⟩
      rw [List.getLast?_cons, hlast]
      rfl

lemma Place.put_following {pre : List Column} {ns : List String} (d : String)
    (h : ∀ q, pre.getLast? = some q → lower q.name ∈ ns) :
    ∃ u v, ns = u ++ v ∧ (following pre).put id d ns = some (u ++ d :: v) ∧
      u.getLast? = (pre.map fun q => lower q.name).getLast? := by
  rw [following, List.getLast?_map]
  rcases hq : pre.getLast? with _ | q
  · exact ⟨[], ns, rfl, rfl, rfl⟩
  · exact putAfter_of_mem (h q hq)

/-- A name put right behind the settled one that is declared before it is settled as well. -/
lemma filter_put {names pre post u v : List String} {d : String} {settled : String → Bool}
    (hnames : names = pre ++ d :: post) (hnodup : names.Nodup) (hns : (u ++ v).Nodup)
    (hd : d ∉ u ++ v) (hunsettled : settled d = false)
    (hlast : u.getLast? = pre.getLast?) (hprevious : ∀ q, pre.getLast? = some q → settled q = true)
    (horder : (u ++ v).filter settled = names.filter settled) :
    (u ++ d :: v).filter (fun n => settled n || n = d) =
      names.filter (fun n => settled n || n = d) := by
  have hother {l : List String} (hl : d ∉ l) :
      l.filter (fun n => settled n || n = d) = l.filter settled := by
    refine List.filter_congr fun n hn => ?_
    have hnd : n ≠ d := fun he => hl (he ▸ hn)
    simp [hnd]
  subst hnames
  rw [List.nodup_append, List.nodup_cons] at hnodup
  obtain ⟨-, ⟨hdpost, -⟩, hdisj⟩ := hnodup
  have hdpre : d ∉ pre := fun hm => hdisj d hm d List.mem_cons_self rfl
  rw [List.mem_append, not_or] at hd
  simp only [List.filter_append, List.filter_cons, hunsettled, Bool.false_or, decide_true, if_true,
    hother hd.1, hother hd.2, hother hdpre, hother hdpost] at horder ⊢
  -- `q` is the last one before `d`, both as declared and in the list; behind it nothing changes.
  rcases List.eq_nil_or_concat pre with rfl | ⟨pre, q, rfl⟩
  · have hu : u = [] := by simpa using hlast
    subst hu
    simpa using horder
  · obtain ⟨u, rfl⟩ : ∃ u', u = u' ++ [q] := by
      simpa using List.getLast?_eq_some_iff.1 (hlast.trans (by simp))
    have hq : settled q = true := hprevious q (by simp)
    simp only [List.concat_eq_append, List.filter_append, List.filter_cons, hq, if_true,
      List.filter_nil, List.append_assoc, List.singleton_append, Bool.false_eq_true,
      if_false] at horder ⊢
    obtain ⟨hqu, hqv⟩ : q ∉ u ∧ q ∉ v := by
      rw [List.append_assoc, List.singleton_append, List.nodup_middle, List.nodup_cons] at hns
      simpa using hns.1
    have hinj := (List.append_cons_inj_of_notMem (fun hm => hqu (List.mem_of_mem_filter hm))
      (fun hm => hqv (List.mem_of_mem_filter hm))).1 horder
    rw [hinj.1, hinj.2.2]

/-! ### The invariant -/

namespace TablePair

variable (p : TablePair)

/-- A state of the replay: the names that are there, without repetitions, and the settled ones among
them, which stand as the declaration lists them. -/
structure Arranged (p : TablePair) (present : String → Prop) (settled : String → Bool)
    (ns : List String) : Prop where
  nodup : ns.Nodup
  mem_iff : ∀ n, n ∈ ns ↔ present n
  order : ns.filter settled = (columnNames p.declared).filter settled

namespace Arranged

variable {p} {present present' : String → Prop} {settled settled' : String → Bool}
  {ns : List String} {pre post : List Column} {c : Column}

lemma congr (h : p.Arranged present settled ns) (hpresent : ∀ n, present n ↔ present' n)
    (hsettled : ∀ n ∈ columnNames p.declared, settled n = settled' n)
    (hns : ∀ n ∈ ns, settled n = settled' n) : p.Arranged present' settled' ns := by
  refine ⟨h.nodup, fun n => (h.mem_iff n).trans (hpresent n), ?_⟩
  rw [← List.filter_congr hns, ← List.filter_congr hsettled, h.order]

lemma remove (h : p.Arranged present settled ns) {d : String} (hd : settled d = false) :
    p.Arranged (fun n => present n ∧ n ≠ d) settled (ns.filter (· ≠ d)) := by
  refine ⟨h.nodup.filter _, fun n => by simp [h.mem_iff], ?_⟩
  rw [List.filter_filter, ← h.order]
  refine List.filter_congr fun n _ => ?_
  by_cases hn : n = d
  · simp [hn, hd]
  · simp [hn]

lemma put (h : p.Arranged present settled ns) (hdeclared : p.declared.WellPlaced)
    (hc : p.declared.columns = pre ++ c :: post) (habsent : ¬present (lower c.name))
    (hunsettled : settled (lower c.name) = false)
    (hprevious : ∀ q, pre.getLast? = some q → present (lower q.name)) :
    ∃ u v, ns = u ++ v ∧ c.place.put id (lower c.name) ns = some (u ++ lower c.name :: v) ∧
      u.getLast? = (pre.map fun q => lower q.name).getLast? ∧
      p.Arranged (fun n => present n ∨ n = lower c.name) settled (u ++ lower c.name :: v) := by
  have hpre : ∀ q, pre.getLast? = some q → lower q.name ∈ ns :=
    fun q hq => (h.mem_iff _).2 (hprevious q hq)
  obtain ⟨u, v, hns, hput, hlast⟩ := Place.put_following (lower c.name) hpre
  rw [← hdeclared.place pre c post hc] at hput
  refine ⟨u, v, hns, hput, hlast, ?_, fun n => ?_, ?_⟩
  · rw [List.nodup_middle, List.nodup_cons, ← hns, h.mem_iff]
    exact ⟨habsent, h.nodup⟩
  · rw [← h.mem_iff, hns]
    simp only [List.mem_append, List.mem_cons]
    tauto
  · rw [← h.order, hns]
    simp [hunsettled]

lemma put_settled (h : p.Arranged present settled ns) (hdeclared : p.declared.WellPlaced)
    (hc : p.declared.columns = pre ++ c :: post) (habsent : ¬present (lower c.name))
    (hunsettled : settled (lower c.name) = false)
    (hprevious : ∀ q, pre.getLast? = some q →
      present (lower q.name) ∧ settled (lower q.name) = true) :
    ∃ ns', c.place.put id (lower c.name) ns = some ns' ∧
      p.Arranged (fun n => present n ∨ n = lower c.name)
        (fun n => settled n || n = lower c.name) ns' := by
  obtain ⟨u, v, hns, hput, hlast, hput'⟩ :=
    h.put hdeclared hc habsent hunsettled fun q hq => (hprevious q hq).1
  refine ⟨_, hput, hput'.nodup, hput'.mem_iff, ?_⟩
  have hnames : columnNames p.declared = pre.map (fun q => lower q.name) ++
      lower c.name :: post.map fun q => lower q.name := by
    rw [columnNames, hc, List.map_append, List.map_cons]
  refine filter_put hnames hdeclared.nodup (hns ▸ h.nodup) ?_ hunsettled hlast ?_ (hns ▸ h.order)
  · rw [← hns, h.mem_iff]
    exact habsent
  · intro n hn
    rw [List.getLast?_map, Option.map_eq_some_iff] at hn
    obtain ⟨q, hq, rfl⟩ := hn
    exact (hprevious q hq).2

end Arranged

/-! ### The phases -/

section Phases

variable {p} (hlive : p.live.WellPlaced) (hdeclared : p.declared.WellPlaced)

def namesOf (cs : List Column) : List String := cs.map fun c => lower c.name

lemma namesOf_columns (t : Table) : namesOf t.columns = columnNames t := rfl

lemma mem_namesOf_append {pre : List Column} {c : Column} {n : String} :
    n ∈ namesOf (pre ++ [c]) ↔ n ∈ namesOf pre ∨ n = lower c.name := by
  simp [namesOf, eq_comm]

include hdeclared in
lemma name_notMem {pre post : List Column} {c : Column}
    (hc : p.declared.columns = pre ++ c :: post) : lower c.name ∉ namesOf pre := by
  have hn := hdeclared.nodup
  rw [columnNames, hc, List.map_append, List.map_cons, List.nodup_append] at hn
  exact fun hm => hn.2.2 _ hm _ List.mem_cons_self rfl

lemma name_mem {pre post : List Column} {c : Column}
    (hc : p.declared.columns = pre ++ c :: post) : lower c.name ∈ columnNames p.declared := by
  simp [columnNames, hc]

lemma previous_mem {pre post : List Column} {c q : Column}
    (hc : p.declared.columns = pre ++ c :: post) (hq : pre.getLast? = some q) :
    lower q.name ∈ columnNames p.declared ∧ lower q.name ∈ namesOf pre := by
  have hm := List.mem_of_getLast? hq
  refine ⟨?_, List.mem_map_of_mem hm⟩
  rw [columnNames, hc]
  exact List.mem_map_of_mem (List.mem_append_left _ hm)

include hdeclared in
lemma displaced_iff_moved {n : String} (hd : n ∈ columnNames p.declared)
    (hl : n ∈ columnNames p.live) : n ∈ p.displacedColumns ↔ n ∈ p.movedColumns := by
  obtain ⟨c, hc, rfl⟩ := List.mem_map.1 hd
  obtain ⟨pre, post, hsplit⟩ := List.append_of_mem hc
  rw [p.mem_displacedColumns_iff hdeclared hsplit]
  simp [hl]

/-- The names that are settled when the columns `pre` have had their additions. -/
def settledByAdding (p : TablePair) (pre : List Column) (n : String) : Bool :=
  n ∈ columnNames p.declared ∧ n ∉ p.displacedColumns ∧
    (n ∈ columnNames p.live ∨ n ∈ namesOf pre)

/-- The names that are settled when the columns `pre` have had their modifications. -/
def settledByModifying (p : TablePair) (pre : List Column) (n : String) : Bool :=
  n ∈ columnNames p.declared ∧ (n ∉ p.displacedColumns ∨ n ∈ namesOf pre)

include hlive hdeclared in
lemma arranged_live : p.Arranged (fun n => n ∈ columnNames p.live ∨ n ∈ namesOf [])
    (p.settledByAdding []) (columnNames p.live) := by
  refine ⟨hlive.nodup, fun n => by simp [namesOf], ?_⟩
  have hcommon : ((columnNames p.live).filter (columnNames p.declared).contains).filter
        (· ∉ p.movedColumns) =
      ((columnNames p.declared).filter (columnNames p.live).contains).filter
        (· ∉ p.movedColumns) :=
    Moves.filter_not_moved (hdeclared.nodup.filter _) (hlive.nodup.filter _)
      fun n => by simp [and_comm]
  rw [List.filter_filter, List.filter_filter] at hcommon
  refine Eq.trans (List.filter_congr fun n hn => ?_)
    (hcommon.trans (List.filter_congr fun n hn => ?_))
  · by_cases hd : n ∈ columnNames p.declared
    · simp [settledByAdding, hd, hn, displaced_iff_moved hdeclared hd hn]
    · simp [settledByAdding, hd]
  · by_cases hl : n ∈ columnNames p.live
    · simp [settledByAdding, hl, hn, displaced_iff_moved hdeclared hn hl]
    · simp [settledByAdding, hl, namesOf]

include hdeclared in
lemma arranged_addition {pre post : List Column} {c : Column} {ns : List String}
    (hc : p.declared.columns = pre ++ c :: post)
    (h : p.Arranged (fun n => n ∈ columnNames p.live ∨ n ∈ namesOf pre) (p.settledByAdding pre)
      ns) :
    ∃ ns', ((p.additionOf? c).map (·.alteration)).elim (some ns) (·.onNames ns) = some ns' ∧
      p.Arranged (fun n => n ∈ columnNames p.live ∨ n ∈ namesOf (pre ++ [c]))
        (p.settledByAdding (pre ++ [c])) ns' := by
  have hpre := name_notMem hdeclared hc
  have hmem := name_mem hc
  -- A live column gives rise to no addition; a new one is settled unless it is displaced, in which
  -- case its modification settles it later.
  by_cases hl : lower c.name ∈ columnNames p.live
  · have hsame (n : String) : p.settledByAdding pre n = p.settledByAdding (pre ++ [c]) n := by
      simp only [settledByAdding, mem_namesOf_append]
      grind
    refine ⟨ns, by simp [additionOf?, hl], h.congr (fun n => ?_) (fun n _ => hsame n)
      fun n _ => hsame n⟩
    rw [mem_namesOf_append]
    grind
  · have habsent : ¬(lower c.name ∈ columnNames p.live ∨ lower c.name ∈ namesOf pre) := by tauto
    have hunsettled : p.settledByAdding pre (lower c.name) = false := by
      simp [settledByAdding, hl, hpre]
    have hrun : ((p.additionOf? c).map (·.alteration)).elim (some ns) (·.onNames ns) =
        c.place.put id (lower c.name) ns := by
      have hns : lower c.name ∉ ns := by rwa [h.mem_iff]
      simp [additionOf?, hl, PlannedAlteration.harmless, Alteration.onNames, Alteration.onColumns,
        hns]
    have hpresent (n : String) :
        (n ∈ columnNames p.live ∨ n ∈ namesOf pre) ∨ n = lower c.name ↔
          n ∈ columnNames p.live ∨ n ∈ namesOf (pre ++ [c]) := by
      rw [mem_namesOf_append, or_assoc]
    rw [hrun]
    by_cases hx : lower c.name ∈ p.displacedColumns
    · obtain ⟨u, v, -, hput, -, h'⟩ := h.put hdeclared hc habsent hunsettled
        fun q hq => .inr (previous_mem hc hq).2
      have hsame (n : String) : p.settledByAdding pre n = p.settledByAdding (pre ++ [c]) n := by
        simp only [settledByAdding, mem_namesOf_append]
        grind
      exact ⟨_, hput, h'.congr hpresent (fun n _ => hsame n) fun n _ => hsame n⟩
    · obtain ⟨ns', hput, h'⟩ := h.put_settled hdeclared hc habsent hunsettled fun q hq => by
        have hqx : lower q.name ∉ p.displacedColumns := fun hm =>
          hx ((p.mem_displacedColumns_iff hdeclared hc).2 (.inr ⟨hl, q, hq, hm⟩))
        have hqm := previous_mem hc hq
        exact ⟨.inr hqm.2, by simp [settledByAdding, hqx, hqm]⟩
      have hsame (n : String) : (p.settledByAdding pre n || decide (n = lower c.name)) =
          p.settledByAdding (pre ++ [c]) n := by
        simp only [settledByAdding, mem_namesOf_append]
        grind
      exact ⟨ns', hput, h'.congr hpresent (fun n _ => hsame n) fun n _ => hsame n⟩

lemma alteration_of_displaced {c : Column} (hx : lower c.name ∈ p.displacedColumns)
    (hmoved : lower c.name ∈ columnNames p.live → lower c.name ∈ p.movedColumns) :
    (p.modificationOf? c).map (·.alteration) = some (.modifyColumn c (some c.place)) := by
  unfold modificationOf?
  rcases hl : p.live.column? c.name with _ | l
  · simp [hx, PlannedAlteration.harmless]
  · have hm : lower c.name ∈ p.movedColumns :=
      hmoved (Table.column?_isSome_iff.1 (by rw [hl]; rfl))
    simp [hm, modification]

lemma alteration_of_not_displaced {c : Column} (hx : lower c.name ∉ p.displacedColumns)
    (hm : lower c.name ∉ p.movedColumns) :
    (p.modificationOf? c).map (·.alteration) = none ∨
      (p.modificationOf? c).map (·.alteration) = some (.modifyColumn c none) := by
  unfold modificationOf?
  rcases p.live.column? c.name with _ | l
  · simp [hx]
  · rcases hs : sameColumn (p.canonicalLive l) (p.canonicalDeclared c) with _ | _
    · simp [hm, hs, modification]
    · simp [hm, hs]

include hdeclared in
lemma arranged_modification {pre post : List Column} {c : Column} {ns : List String}
    (hc : p.declared.columns = pre ++ c :: post)
    (h : p.Arranged (fun n => n ∈ columnNames p.live ∨ n ∈ columnNames p.declared)
      (p.settledByModifying pre) ns) :
    ∃ ns', ((p.modificationOf? c).map (·.alteration)).elim (some ns) (·.onNames ns) = some ns' ∧
      p.Arranged (fun n => n ∈ columnNames p.live ∨ n ∈ columnNames p.declared)
        (p.settledByModifying (pre ++ [c])) ns' := by
  have hpre := name_notMem hdeclared hc
  have hmem := name_mem hc
  have hns : lower c.name ∈ ns := (h.mem_iff _).2 (.inr hmem)
  -- Only a displaced column is moved. Every column before it is settled by now, so that it is put
  -- behind a settled one.
  by_cases hx : lower c.name ∈ p.displacedColumns
  · have hunsettled : p.settledByModifying pre (lower c.name) = false := by
      simp [settledByModifying, hx, hpre]
    obtain ⟨ns', hput, h'⟩ := (h.remove hunsettled).put_settled hdeclared hc (by simp) hunsettled
      fun q hq => by
        have hqm := previous_mem hc hq
        have hne : lower q.name ≠ lower c.name := fun he => hpre (he ▸ hqm.2)
        exact ⟨⟨.inr hqm.1, hne⟩, by simp [settledByModifying, hqm]⟩
    have hsame (n : String) : (p.settledByModifying pre n || decide (n = lower c.name)) =
        p.settledByModifying (pre ++ [c]) n := by
      simp only [settledByModifying, mem_namesOf_append]
      grind
    refine ⟨ns', ?_, h'.congr (fun n => ?_) (fun n _ => hsame n) fun n _ => hsame n⟩
    · rw [alteration_of_displaced hx fun hl => (displaced_iff_moved hdeclared hmem hl).1 hx]
      simpa [Alteration.onNames, Alteration.onColumns, hns] using hput
    · by_cases hn : n = lower c.name
      · simp [hn, hmem]
      · simp [hn]
  · have hm : lower c.name ∉ p.movedColumns := fun hm =>
      hx ((displaced_iff_moved hdeclared hmem (mem_movedColumns p hm).2).2 hm)
    have hsame (n : String) : p.settledByModifying pre n = p.settledByModifying (pre ++ [c]) n := by
      simp only [settledByModifying, mem_namesOf_append]
      grind
    refine ⟨ns, ?_, h.congr (fun n => Iff.rfl) (fun n _ => hsame n) fun n _ => hsame n⟩
    rcases alteration_of_not_displaced hx hm with hnone | hsome
    · rw [hnone]
      rfl
    · rw [hsome]
      have hmap : ns.map (fun n => if n = lower c.name then lower c.name else n) = ns := by
        refine (List.map_congr_left fun n _ => ?_).trans (List.map_id _)
        split
        · rename_i hn
          exact hn.symm
        · rfl
      simpa [Alteration.onNames, Alteration.onColumns, hns] using hmap

end Phases

lemma exists_foldlM_filterMap {σ β γ : Type} (step : σ → β → Option σ) (f : γ → Option β)
    (inv : List γ → σ → Prop) {l : List γ}
    (hstep : ∀ pre a post s, l = pre ++ a :: post → inv pre s →
      ∃ s', (f a).elim (some s) (step s) = some s' ∧ inv (pre ++ [a]) s')
    {s : σ} (h : inv [] s) : ∃ s', (l.filterMap f).foldlM step s = some s' ∧ inv l s' := by
  -- The invariant speaks of the elements that have had their turn, so these are kept apart.
  suffices hrest : ∀ rest pre s, l = pre ++ rest → inv pre s →
      ∃ s', (rest.filterMap f).foldlM step s = some s' ∧ inv l s' from hrest l [] s rfl h
  intro rest
  induction rest with
  | nil =>
    intro pre s hl hs
    rw [List.append_nil] at hl
    exact ⟨s, rfl, hl ▸ hs⟩
  | cons a rest ih =>
    intro pre s hl hs
    obtain ⟨s₁, hrun, hs₁⟩ := hstep pre a rest s hl hs
    obtain ⟨s', hrun', hs'⟩ := ih (pre ++ [a]) s₁ (by simpa using hl) hs₁
    refine ⟨s', ?_, hs'⟩
    rcases hf : f a with _ | b
    · obtain rfl : s = s₁ := by simpa [hf] using hrun
      rwa [List.filterMap_cons_none hf]
    · rw [List.filterMap_cons_some hf, List.foldlM_cons]
      simp only [hf, Option.elim_some] at hrun
      rw [hrun]
      exact hrun'

lemma foldlM_dropColumn {dropped : List Column} {ns : List String}
    (hnodup : (namesOf dropped).Nodup) (hmem : ∀ n ∈ namesOf dropped, n ∈ ns) :
    (dropped.map fun c => Alteration.dropColumn c.name).foldlM (fun ns a => a.onNames ns) ns =
      some (ns.filter (· ∉ namesOf dropped)) := by
  induction dropped generalizing ns with
  | nil => simp [namesOf]
  | cons c rest ih =>
    rw [namesOf, List.map_cons, List.nodup_cons] at hnodup
    have hc : lower c.name ∈ ns := hmem _ (by simp [namesOf])
    have hrest : ∀ n ∈ namesOf rest, n ∈ ns.filter (· ≠ lower c.name) := by
      intro n hn
      have hne : n ≠ lower c.name := fun he => hnodup.1 (he ▸ hn)
      simpa [hne] using hmem n (List.mem_cons_of_mem _ hn)
    rw [List.map_cons, List.foldlM_cons]
    have hstep : (Alteration.dropColumn c.name).onNames ns =
        some (ns.filter (· ≠ lower c.name)) := by
      simp [Alteration.onNames, Alteration.onColumns, hc]
    rw [hstep]
    refine (ih hnodup.2 hrest).trans ?_
    rw [List.filter_filter]
    congr 1
    refine List.filter_congr fun n _ => ?_
    simp [namesOf, Bool.and_comm, eq_comm]

/-! ### The whole replay -/

lemma mem_dropped_iff {n : String} :
    n ∈ namesOf p.droppedColumns ↔ n ∈ columnNames p.live ∧ n ∉ columnNames p.declared := by
  simp only [namesOf, droppedColumns, List.mem_map, List.mem_filter, Option.isNone_iff_eq_none,
    Table.column?_eq_none_iff]
  constructor
  · rintro ⟨c, ⟨hc, hn⟩, rfl⟩
    exact ⟨List.mem_map_of_mem hc, hn⟩
  · rintro ⟨hl, hn⟩
    obtain ⟨c, hc, rfl⟩ := List.mem_map.1 hl
    exact ⟨c, ⟨hc, hn⟩, rfl⟩

lemma foldlM_of_idle {σ β : Type} {step : σ → β → Option σ} {l : List β}
    (h : ∀ b ∈ l, ∀ s, step s b = some s) (s : σ) : l.foldlM step s = some s := by
  induction l with
  | nil => rfl
  | cons b l ih =>
    rw [List.foldlM_cons, h b List.mem_cons_self]
    exact ih fun c hc => h c (List.mem_cons_of_mem _ hc)

lemma onNames_of_mem_keyDrops {a : Alteration} (h : a ∈ p.keyDrops.map (·.alteration))
    (ns : List String) : a.onNames ns = some ns := by
  simp only [keyDrops, List.mem_map, List.mem_filterMap] at h
  obtain ⟨_, ⟨d, -, hd⟩, rfl⟩ := h
  split at hd <;> cases hd <;> rfl

lemma onNames_of_mem_keyAdditions {a : Alteration} (h : a ∈ p.keyAdditions.map (·.alteration))
    (ns : List String) : a.onNames ns = some ns := by
  simp only [keyAdditions, List.mem_map, List.mem_filterMap] at h
  obtain ⟨_, ⟨d, -, hd⟩, rfl⟩ := h
  split at hd <;> cases hd <;> rfl

lemma onNames_of_mem_optionSettings {a : Alteration}
    (h : a ∈ p.optionSettings.map (·.alteration)) (ns : List String) : a.onNames ns = some ns := by
  obtain ⟨q, hq, rfl⟩ := List.mem_map.1 h
  obtain ⟨settings, rfl⟩ := p.exists_of_mem_optionSettings hq
  rfl

/-- After all additions the modifications begin: every column that is not displaced is settled. -/
lemma arranged_added {p : TablePair} {ns : List String}
    (h : p.Arranged (fun n => n ∈ columnNames p.live ∨ n ∈ namesOf p.declared.columns)
      (p.settledByAdding p.declared.columns) ns) :
    p.Arranged (fun n => n ∈ columnNames p.live ∨ n ∈ columnNames p.declared)
      (p.settledByModifying []) ns := by
  have hsame (n : String) : p.settledByAdding p.declared.columns n = p.settledByModifying [] n := by
    have hnil : n ∉ namesOf [] := List.not_mem_nil
    by_cases hn : n ∈ columnNames p.declared
    · simp [settledByAdding, settledByModifying, namesOf_columns, hn, hnil]
    · simp [settledByAdding, settledByModifying, hn]
  exact h.congr (fun n => Iff.rfl) (fun n _ => hsame n) fun n _ => hsame n

/-- After all modifications the declared columns stand in order, with the dropped ones among them. -/
lemma filter_modified {p : TablePair} {ns : List String}
    (h : p.Arranged (fun n => n ∈ columnNames p.live ∨ n ∈ columnNames p.declared)
      (p.settledByModifying p.declared.columns) ns) :
    ns.filter (· ∉ namesOf p.droppedColumns) = columnNames p.declared := by
  have hall (n : String) (hn : n ∈ columnNames p.declared) :
      p.settledByModifying p.declared.columns n = true := by
    simp only [settledByModifying, namesOf_columns]
    simp [hn]
  rw [← List.filter_eq_self.2 hall, ← h.order]
  refine List.filter_congr fun n hn => ?_
  have hn := (h.mem_iff n).1 hn
  simp only [mem_dropped_iff, settledByModifying, namesOf_columns]
  grind

lemma foldlM_alterations (hlive : p.live.WellPlaced) (hdeclared : p.declared.WellPlaced) :
    (p.alterations.map (·.alteration)).foldlM (fun ns a => a.onNames ns) (columnNames p.live) =
      some (columnNames p.declared) := by
  -- Every phase keeps `Arranged`; keys and options leave the columns alone.
  obtain ⟨added, hadd, hadded⟩ := exists_foldlM_filterMap (fun ns a => Alteration.onNames a ns)
    (fun c => (p.additionOf? c).map (·.alteration))
    (fun pre ns => p.Arranged (fun n => n ∈ columnNames p.live ∨ n ∈ namesOf pre)
      (p.settledByAdding pre) ns)
    (fun pre c post ns hc h => arranged_addition hdeclared hc h) (arranged_live hlive hdeclared)
  obtain ⟨modified, hmodify, hmodified⟩ := exists_foldlM_filterMap
    (fun ns a => Alteration.onNames a ns) (fun c => (p.modificationOf? c).map (·.alteration))
    (fun pre ns => p.Arranged (fun n => n ∈ columnNames p.live ∨ n ∈ columnNames p.declared)
      (p.settledByModifying pre) ns)
    (fun pre c post ns hc h => arranged_modification hdeclared hc h) (arranged_added hadded)
  have hdrop := foldlM_dropColumn
    (List.Nodup.sublist (List.filter_sublist.map _) hlive.nodup : (namesOf p.droppedColumns).Nodup)
    fun n hn => (hmodified.mem_iff n).2 (.inl ((p.mem_dropped_iff).1 hn).1)
  rw [alterations, columnAdditions_eq, columnModifications_eq, columnDrops_eq]
  simp only [List.map_append, List.foldlM_append, List.map_filterMap, List.map_map]
  rw [foldlM_of_idle fun a ha => p.onNames_of_mem_keyDrops ha]
  simp only [Option.bind_eq_bind, Option.bind_some]
  rw [hadd, Option.bind_some, hmodify, Option.bind_some]
  refine (congrArg (Option.bind · _) (congrArg (Option.bind · _) hdrop)).trans ?_
  rw [Option.bind_some, filter_modified hmodified,
    foldlM_of_idle fun a ha => p.onNames_of_mem_keyAdditions ha, Option.bind_some,
    foldlM_of_idle fun a ha => p.onNames_of_mem_optionSettings ha]

end TablePair

open TablePair (columnNames)

def Table.ofNames (names : List String) : Table :=
  { Table.ofName ⟨none, "t"⟩ with
    columns := Grammar.placed .first 0
      (names.map fun n => .ofType n (.integer .regular none .none)) }

end SchemaDrift
