import Mathlib
import SchemaDrift.Proofs.SchemaOutline

/-!
Where the declarations of tables end up. The declarations of one table form a group. If all of them
say the same, the table keeps the sources of all; otherwise the table is among those that collide,
with one notice. A declaration that is not among the sources of a table is counted as a skip.
-/

namespace SchemaDrift

/-! ### Totals over the values of a map -/

namespace OrderedMap

variable {κ β : Type} [Ord κ]

def total (f : β → ℕ) (m : OrderedMap κ β) : ℕ := (m.values.map f).sum

variable [Std.LawfulEqOrd κ]

lemma perm_entries {m : OrderedMap κ β} {k : κ} {v : β} (h : m.get? k = some v) :
    m.entries.Perm ((k, v) :: (m.erase k).entries) := by
  classical
  have hnodup (m : OrderedMap κ β) : m.entries.Nodup :=
    m.increasing.imp fun hlt he => ne_of_compare_lt hlt (congrArg Prod.fst he)
  have herase (e : κ × β) : e ∈ (m.erase k).entries ↔ e.1 ≠ k ∧ e ∈ m.entries := by
    obtain ⟨a, b⟩ := e
    rw [← get?_eq_some_iff, ← get?_eq_some_iff, get?_erase]
    by_cases ha : a = k <;> simp [ha]
  refine (List.perm_ext_iff_of_nodup (hnodup m) ?_).2 fun e => ?_
  · exact List.nodup_cons.2 ⟨fun hmem => ((herase _).1 hmem).1 rfl, hnodup _⟩
  · rw [List.mem_cons, herase]
    constructor
    · intro he
      by_cases hk : e.1 = k
      · have hv : m.get? k = some e.2 := hk ▸ get?_eq_some_iff.2 he
        exact .inl (Prod.ext hk (Option.some.inj (hv.symm.trans h)))
      · exact .inr ⟨hk, he⟩
    · rintro (rfl | ⟨-, he⟩)
      · exact get?_eq_some_iff.1 h
      · exact he

lemma total_erase (f : β → ℕ) {m : OrderedMap κ β} {k : κ} {v : β} (h : m.get? k = some v) :
    m.total f = (m.erase k).total f + f v := by
  have hsum := (((perm_entries h).map (·.2)).map f).sum_eq
  rw [List.map_cons, List.map_cons, List.sum_cons, Nat.add_comm] at hsum
  exact hsum

lemma erase_of_get?_eq_none [Std.TransOrd κ] {m : OrderedMap κ β} {k : κ} (h : m.get? k = none) :
    m.erase k = m := by
  classical
  refine ext_get? fun a => ?_
  rw [get?_erase]
  split
  · next ha => rw [ha, h]
  · rfl

lemma total_insert [Std.TransOrd κ] (f : β → ℕ) (m : OrderedMap κ β) (k : κ) (v : β) :
    (m.insert k v).total f = (m.erase k).total f + f v := by
  classical
  have hsame : (m.insert k v).erase k = m.erase k := by
    refine ext_get? fun a => ?_
    rw [get?_erase, get?_erase, get?_insert]
    split <;> rfl
  have hget : (m.insert k v).get? k = some v := get?_alter_self m k _
  rw [total_erase f hget, hsame]

end OrderedMap

/-! ### The declarations of one table, with their sources -/

def Agree (g : List (String × Table)) : Prop :=
  ∀ p ∈ g, ∀ q ∈ g, p.2.unqualified = q.2.unqualified

instance (g : List (String × Table)) : Decidable (Agree g) :=
  inferInstanceAs (Decidable (∀ p ∈ g, ∀ q ∈ g, _))

lemma agree_append_singleton {g : List (String × Table)} {p : String × Table} :
    Agree (g ++ [p]) ↔ Agree g ∧ ∀ q ∈ g, q.2.unqualified = p.2.unqualified := by
  constructor
  · intro h
    have hmem {q : String × Table} (hq : q ∈ g) : q ∈ g ++ [p] := List.mem_append_left _ hq
    exact ⟨fun q hq r hr => h q (hmem hq) r (hmem hr), fun q hq => h q (hmem hq) p (by simp)⟩
  · rintro ⟨hg, hp⟩ q hq r hr
    rw [List.mem_append, List.mem_singleton] at hq hr
    rcases hq with hq | rfl <;> rcases hr with hr | rfl
    · exact hg q hq r hr
    · exact hp q hq
    · exact (hp r hr).symm
    · rfl

lemma agree_cons_append_singleton {q p : String × Table} {g : List (String × Table)}
    (h : Agree (q :: g)) :
    Agree (q :: (g ++ [p])) ↔ q.2.unqualified = p.2.unqualified := by
  rw [← List.cons_append, agree_append_singleton, and_iff_right h]
  constructor
  · exact fun hall => hall q List.mem_cons_self
  · exact fun hq r hr => (h r hr q List.mem_cons_self).trans hq

/-- How it stands with a table: the declaration that survives, whether its declarations collide, and
the notices of that. -/
@[ext]
structure Standing where
  survivor? : Option DeclaredTable
  collides : Bool
  notices : ℕ

namespace Standing

def declare (x : Standing) (source : String) (t : Table) : Standing :=
  if x.collides then x
  else match x.survivor? with
    | none => { x with survivor? := some ⟨t, [source]⟩ }
    | some u =>
      if u.table.unqualified = t.unqualified then
        { x with survivor? := some { u with sources := u.sources ++ [source] } }
      else ⟨none, true, x.notices + 1⟩

/-- What the declarations of a table come to, whatever their order: all of them are sources of the
table, or it collides. -/
def ofGroup (g : List (String × Table)) : Standing :=
  if Agree g then ⟨g.head?.map fun p => ⟨p.2, g.map (·.1)⟩, false, 0⟩ else ⟨none, true, 1⟩

lemma isSome_survivor?_ofGroup {g : List (String × Table)} :
    (ofGroup g).survivor?.isSome = true ↔ g ≠ [] ∧ Agree g := by
  unfold ofGroup
  split <;> simp_all

lemma sources_of_ofGroup {g : List (String × Table)} {u : DeclaredTable}
    (h : (ofGroup g).survivor? = some u) : u.sources = g.map (·.1) := by
  unfold ofGroup at h
  split at h
  · obtain ⟨p, -, rfl⟩ := Option.map_eq_some_iff.1 h
    rfl
  · cases h

lemma collides_ofGroup {g : List (String × Table)} : (ofGroup g).collides = true ↔ ¬ Agree g := by
  unfold ofGroup
  split <;> simp [*]

lemma notices_ofGroup (g : List (String × Table)) :
    (ofGroup g).notices = if Agree g then 0 else 1 := by
  unfold ofGroup
  split <;> rfl

lemma ofGroup_append_singleton (g : List (String × Table)) (p : String × Table) :
    ofGroup (g ++ [p]) = (ofGroup g).declare p.1 p.2 := by
  by_cases hg : Agree g
  · rcases g with _ | ⟨q, g⟩
    · simp [ofGroup, declare, Agree]
    · have hiff := agree_cons_append_singleton (p := p) hg
      by_cases hp : q.2.unqualified = p.2.unqualified
      · simp [ofGroup, declare, hg, hp, hiff.2 hp]
      · simp [ofGroup, declare, hg, hp, mt hiff.1 hp]
  · have hgp : ¬ Agree (g ++ [p]) := fun h => hg (agree_append_singleton.1 h).1
    simp [ofGroup, declare, hg, hgp]

end Standing

/-! ### One more declaration -/

def Notice.collidingKey? (n : Notice) : Option String :=
  match n.fault with
  | .collision thing _ _ => some (Text.lower (String.ofList (thing.toList.drop "table ".length)))
  | _ => none

namespace Schema

/-- How it stands with a table in the schema. -/
def standing (s : Schema) (key : String) : Standing where
  survivor? := s.tables.get? key
  collides := s.collided.contains key
  notices := s.findings.notices.countP (·.collidingKey? = some key)

variable (s : Schema)

@[simp] lemma tables_skip (n : ℕ) (reason : SkipReason) : (s.skip n reason).tables = s.tables := rfl

@[simp] lemma tables_report (f : Findings) : (s.report f).tables = s.tables := rfl

@[simp] lemma collided_report (f : Findings) : (s.report f).collided = s.collided := rfl

@[simp] lemma notices_skip (n : ℕ) (reason : SkipReason) :
    (s.skip n reason).findings.notices = s.findings.notices := List.append_nil _

@[simp] lemma skips_skip (n : ℕ) (reason : SkipReason) :
    (s.skip n reason).findings.skips = s.findings.skips ++ List.replicate n reason := rfl

@[simp] lemma notices_report_ofFault (fault : Fault) (source? : Option String) :
    (s.report (.ofFault fault source?)).findings.notices =
      s.findings.notices ++ [⟨fault, source?⟩] := rfl

@[simp] lemma skips_report_ofFault (fault : Fault) (source? : Option String) :
    (s.report (.ofFault fault source?)).findings.skips = s.findings.skips := List.append_nil _

lemma standing_skip (n : ℕ) (reason : SkipReason) (key : String) :
    (s.skip n reason).standing key = s.standing key := by
  rw [standing, standing, notices_skip]
  rfl

lemma collidingKey?_collision (name first second : String) (source? : Option String) :
    (⟨.collision ("table " ++ name) first second, source?⟩ : Notice).collidingKey? =
      some (Text.lower name) := by
  have hname : (("table " ++ name).toList).drop "table ".length = name.toList := by
    rw [String.toList_append]
    exact List.drop_left
  change some (Text.lower (String.ofList _)) = _
  rw [hname, String.ofList_toList]

lemma standing_declareOwnTable (source : String) (t : Table) (key : String) :
    (s.declareOwnTable source t).standing key =
      if t.key = key then (s.standing key).declare source t else s.standing key := by
  have hkey : Text.lower t.name.name = t.key := rfl
  -- In each branch the entry of the key itself changes, and all other entries stay.
  unfold declareOwnTable
  simp only [hkey]
  split
  · next hcollides =>
    rw [standing_skip]
    split
    · next he =>
      subst he
      simp [Standing.declare, standing, hcollides]
    · rfl
  · next hcollides =>
    split
    · next hnone =>
      split
      · next he =>
        subst he
        simp [Standing.declare, standing, hcollides, hnone, OrderedMap.get?_insert]
      · next hne => simp [standing, OrderedMap.get?_insert, Ne.symm hne]
    · next u hsome =>
      split
      · next hsame =>
        have hsame : u.table.unqualified = t.unqualified := of_decide_eq_true hsame
        split
        · next he =>
          subst he
          simp [Standing.declare, standing, hcollides, hsome, hsame, OrderedMap.get?_insert]
        · next hne => simp [standing, OrderedMap.get?_insert, Ne.symm hne]
      · next hdiffer =>
        have hdiffer : u.table.unqualified ≠ t.unqualified := fun h => hdiffer (decide_eq_true h)
        rw [standing_skip]
        split
        · next he =>
          subst he
          simp [Standing.declare, standing, hcollides, hsome, hdiffer, OrderedMap.get?_erase,
            OrderedSet.contains_insert, collidingKey?_collision, hkey]
        · next hne =>
          simp [standing, OrderedMap.get?_erase, Ne.symm hne, hne,
            OrderedSet.contains_insert, collidingKey?_collision, hkey]

/-- The declarations of tables that a schema accounts for: as sources of a table, or as skips. -/
def placed : ℕ :=
  s.tables.total (·.sources.length) + s.findings.skips.count .collidingTable +
    s.findings.skips.count .temporaryTable + s.findings.skips.count .foreignTable

lemma placed_skip (n : ℕ) (reason : SkipReason) : (s.skip n reason).placed =
    s.placed + if reason ∈ [.collidingTable, .temporaryTable, .foreignTable] then n else 0 := by
  cases reason <;> simp [placed, List.count_replicate] <;> omega

lemma placed_declareOwnTable (source : String) (t : Table) :
    (s.declareOwnTable source t).placed = s.placed + 1 := by
  unfold declareOwnTable
  simp only
  split
  · simp [placed_skip]
  · split
    · next hnone =>
      simp only [placed, OrderedMap.total_insert, OrderedMap.erase_of_get?_eq_none hnone,
        List.length_singleton]
      omega
    · next u hsome =>
      have htotal := OrderedMap.total_erase (fun u : DeclaredTable => u.sources.length) hsome
      split
      · simp only [placed, OrderedMap.total_insert, htotal, List.length_append,
          List.length_singleton]
        omega
      · simp only [placed_skip, List.mem_cons, true_or, if_true]
        simp only [placed, htotal, tables_report, skips_report_ofFault]
        omega

/-! ### One more statement -/

variable {d : LiveDatabase}

/-- The table that a statement declares, for whatever database. -/
def table? (d : LiveDatabase) (text : String) : Option Table :=
  match Statement.read d.real text with
  | .table t => some t
  | _ => none

lemma standing_declareTable (source : String) (t : Table) (key : String) :
    (s.declareTable d.name source t).standing key =
      if isOwnTable d t && t.key = key then (s.standing key).declare source t
      else s.standing key := by
  unfold declareTable isOwnTable
  rcases t.name.database?.any fun database => !Text.sameName database d.name with _ | _
  · rcases t.temporary with _ | _
    · simp [standing_declareOwnTable]
    · simp [standing_skip]
  · simp [standing_skip]

lemma placed_declareTable (source : String) (t : Table) :
    (s.declareTable d.name source t).placed = s.placed + 1 := by
  unfold declareTable
  split
  · simp [placed_skip]
  · split
    · simp [placed_skip]
    · exact placed_declareOwnTable s source t

lemma declare_of_table? {text : String} {t : Table} (h : table? d text = some t) (source : String) :
    s.declare d source text = s.declareTable d.name source t := by
  unfold table? at h
  split at h
  · next hread => rw [declare, hread, Option.some.inj h]
  · cases h

lemma untouched_declare {text : String} (h : table? d text = none) (source : String) :
    (∀ key, (s.declare d source text).standing key = s.standing key) ∧
      (s.declare d source text).placed = s.placed := by
  have hgrants (gs : List Grant) : (∀ key, (gs.foldl (declareGrant d.name source) s).standing key =
      s.standing key) ∧ (gs.foldl (declareGrant d.name source) s).placed = s.placed := by
    refine List.foldlRecOn (motive := fun s' : Schema => (∀ key, s'.standing key = s.standing key) ∧
      s'.placed = s.placed) gs _ ⟨fun _ => rfl, rfl⟩ fun s' hs' g _ => ?_
    rw [declareGrant_eq]
    split
    · exact hs'
    · simpa [standing_skip, placed_skip] using hs'
  unfold table? at h
  unfold declare
  cases hread : Statement.read d.real text with
  | table t => simp [hread] at h
  | grants verb gs => exact hgrants gs
  | accounts cs | insert | unknown => exact ⟨fun _ => rfl, rfl⟩
  | invalid kind fault =>
    refine ⟨fun key => ?_, ?_⟩
    · rw [standing_skip]
      simp [standing, Notice.collidingKey?]
    · simp [placed]

/-! ### All statements -/

/-- The tables that statements declare, each with the name of its source. -/
def tableDeclarations (d : LiveDatabase) (ps : List (String × String)) : List (String × Table) :=
  ps.filterMap fun p => (table? d p.2).map (p.1, ·)

lemma tableDeclarations_append_singleton (ps : List (String × String)) (p : String × String) :
    tableDeclarations d (ps ++ [p]) =
      tableDeclarations d ps ++ ((table? d p.2).map (p.1, ·)).toList := by
  rw [tableDeclarations, List.filterMap_append]
  rcases h : table? d p.2 with _ | t <;> simp [tableDeclarations, h]

/-- The declarations that are for the database and not temporary, of the table with the key. -/
def group (d : LiveDatabase) (key : String) (ds : List (String × Table)) : List (String × Table) :=
  ds.filter fun p => isOwnTable d p.2 && p.2.key = key

lemma group_append_singleton (key : String) (ds : List (String × Table)) (p : String × Table) :
    group d key (ds ++ [p]) =
      if isOwnTable d p.2 && p.2.key = key then group d key ds ++ [p] else group d key ds := by
  rw [group, List.filter_append, List.filter_cons, List.filter_nil]
  split
  · rfl
  · exact List.append_nil _

lemma run_declare (d : LiveDatabase) (ps : List (String × String)) :
    (∀ key, (ps.foldl (fun s p => s.declare d p.1 p.2) empty).standing key =
      .ofGroup (group d key (tableDeclarations d ps))) ∧
    (ps.foldl (fun s p => s.declare d p.1 p.2) empty).placed = (tableDeclarations d ps).length := by
  induction ps using List.reverseRecOn with
  | nil => exact ⟨fun key => rfl, rfl⟩
  | append_singleton ps p ih =>
    obtain ⟨hstanding, hplaced⟩ := ih
    rw [tableDeclarations_append_singleton, List.foldl_append, List.foldl_cons, List.foldl_nil]
    generalize ps.foldl (fun s p => s.declare d p.1 p.2) empty = s at hstanding hplaced ⊢
    rcases ht : table? d p.2 with _ | t
    · obtain ⟨hsame, hsame'⟩ := untouched_declare s ht p.1
      simp only [hsame, hsame', Option.map_none, Option.toList_none, List.append_nil]
      exact ⟨hstanding, hplaced⟩
    · rw [declare_of_table? s ht]
      refine ⟨fun key => ?_, ?_⟩
      · rw [standing_declareTable, hstanding, Option.map_some, Option.toList_some,
          group_append_singleton]
        split
        · exact (Standing.ofGroup_append_singleton _ (p.1, t)).symm
        · rfl
      · rw [placed_declareTable, hplaced, List.length_append]
        rfl

/-- **Declarations of tables are conserved.** A table survives exactly if there is a declaration of
it and all of them say the same, and then each of them is one of its sources; the tables that do not
are those that collide, each with one notice. Every declaration is a source of a table or a skip. -/
theorem tables_conserved (d : LiveDatabase) (sources : List Source) :
    let s := ofSources d sources
    let ds := tableDeclarations d (attributed sources)
    (∀ key,
      ((s.tables.get? key).isSome = true ↔ group d key ds ≠ [] ∧ Agree (group d key ds)) ∧
      (∀ u, s.tables.get? key = some u → u.sources = (group d key ds).map (·.1)) ∧
      (s.collided.contains key = true ↔ ¬ Agree (group d key ds)) ∧
      s.findings.notices.countP (·.collidingKey? = some key) =
        if Agree (group d key ds) then 0 else 1) ∧
    ds.length = (s.tables.values.map (·.sources.length)).sum +
      s.findings.skips.count .collidingTable + s.findings.skips.count .temporaryTable +
      s.findings.skips.count .foreignTable := by
  intro s ds
  obtain ⟨hstanding, hplaced⟩ := run_declare d (attributed sources)
  rw [← ofSources_eq] at hstanding hplaced
  refine ⟨fun key => ?_, hplaced.symm⟩
  have hkey := hstanding key
  have hsurvivor : s.tables.get? key = _ := congrArg Standing.survivor? hkey
  have hcollides : s.collided.contains key = _ := congrArg Standing.collides hkey
  refine ⟨?_, fun u hu => ?_, ?_, congrArg Standing.notices hkey |>.trans ?_⟩
  · rw [hsurvivor, Standing.isSome_survivor?_ofGroup]
  · exact Standing.sources_of_ofGroup (hsurvivor.symm.trans hu)
  · rw [hcollides, Standing.collides_ofGroup]
  · rw [Standing.notices_ofGroup]

end Schema

end SchemaDrift
