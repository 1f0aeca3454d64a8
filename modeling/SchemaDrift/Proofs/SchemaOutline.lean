import Mathlib
import SchemaDrift.Proofs.StepOrigins

/-!
What a schema amounts to when the order of its declarations is forgotten. The declarations of one
table take part one after the other, but whether they collide, and how many are skipped, depends only
on which ones there are. Grants are a collection, and clauses on accounts commute as long as no two of
them settle the same thing.
-/

namespace SchemaDrift

def Table.unqualified (t : Table) : Table := { t with name := t.name.unqualified }

/-- The name that declarations of one table share. -/
def Table.key (t : Table) : String := Text.lower t.name.name

/-! ### The declarations of one table -/

/-- What the declarations of one table come to. -/
inductive Slot where
  | free
  /-- So many declarations that say the same. -/
  | taken (t : Table) (count : Nat)
  | collided
  deriving DecidableEq

namespace Slot

def declare (t : Table) : Slot → Slot
  | free => taken t.unqualified 1
  | taken u n => if u = t.unqualified then taken u (n + 1) else collided
  | collided => collided

/-- The table that is declared, if it is but one. -/
def table? : Slot → Option Table
  | taken t _ => some t
  | _ => none

/-- The declarations that one more of them makes to be skipped. -/
def skipped (t : Table) : Slot → Nat
  | free => 0
  | taken u n => if u = t.unqualified then 0 else n + 1
  | collided => 1

lemma declare_comm (x : Slot) (t u : Table) :
    (x.declare t).declare u = (x.declare u).declare t ∧
      x.skipped t + (x.declare t).skipped u = x.skipped u + (x.declare u).skipped t := by
  cases x with
  | free =>
    by_cases htu : t.unqualified = u.unqualified
    · simp [declare, skipped, htu]
    · simp [declare, skipped, htu, Ne.symm htu]
  | taken v n =>
    by_cases ht : v = t.unqualified
    · by_cases hu : v = u.unqualified
      · simp [declare, skipped, ← ht, ← hu]
      · simp [declare, skipped, ← ht, hu]
    · by_cases hu : v = u.unqualified
      · simp [declare, skipped, ht, ← hu]
      · simp [declare, skipped, ht, hu]
  | collided => simp [declare, skipped]

end Slot

/-- What the declarations of all tables come to, with the number of skips. -/
structure Slots where
  slot : String → Slot
  skips : Nat

namespace Slots

def declare (x : Slots) (t : Table) : Slots :=
  ⟨Function.update x.slot t.key ((x.slot t.key).declare t), x.skips + (x.slot t.key).skipped t⟩

def skip (x : Slots) (n : Nat) : Slots := { x with skips := x.skips + n }

lemma declare_comm (x : Slots) (t u : Table) :
    (x.declare t).declare u = (x.declare u).declare t := by
  unfold declare
  by_cases hkey : t.key = u.key
  · obtain ⟨hslot, hskips⟩ := (x.slot u.key).declare_comm t u
    simp only [hkey, Function.update_self, Function.update_idem, hslot, Nat.add_assoc, hskips]
  · simp only [Function.update_of_ne hkey, Function.update_of_ne (Ne.symm hkey),
      Function.update_comm hkey, Nat.add_right_comm]

lemma declare_skip (x : Slots) (t : Table) (n : Nat) :
    (x.skip n).declare t = (x.declare t).skip n := by
  simp only [declare, skip, Nat.add_right_comm]

lemma skip_comm (x : Slots) (m n : Nat) : (x.skip m).skip n = (x.skip n).skip m := by
  simp only [skip, Nat.add_right_comm]

end Slots

/-! ### What one statement adds -/

namespace Schema

variable (d : LiveDatabase)

/-- Whether the declaration of a table is meant for the database and is to last. -/
def isOwnTable (t : Table) : Bool :=
  !(t.name.database?.any fun database => !Text.sameName database d.name) && !t.temporary

/-- The table that a statement declares for the database. -/
def ownTable? (text : String) : Option Table :=
  match Statement.read d.real text with
  | .table t => if isOwnTable d t then some t else none
  | _ => none

/-- Whether a grant is one of the database. -/
def isOwnGrant (g : Grant) : Bool := (g.inDatabase d.name).database? = some d.name

/-- The grants and revocations of a statement in the database. -/
def ownGrants (text : String) : List Grant :=
  match Statement.read d.real text with
  | .grants _ gs => (gs.filter (isOwnGrant d)).map (Grant.inDatabase d.name)
  | _ => []

/-- The clauses of a statement, with its text if there is but one. -/
def clauses (text : String) : List (AccountClause × Option String) :=
  match Statement.read d.real text with
  | .accounts cs => cs.map fun c => (c, if cs.length = 1 then some text else none)
  | _ => []

/-- The number of declarations of a statement that take no part, whatever the others are. -/
def strays (text : String) : Nat :=
  match Statement.read d.real text with
  | .table t => if isOwnTable d t then 0 else 1
  | .grants _ gs => gs.countP fun g => !isOwnGrant d g
  | .invalid .. => 1
  | _ => 0

variable {d} (s : Schema)

/-- What the tables of a schema come to. -/
def slots : Slots where
  slot key :=
    if s.collided.contains key then .collided
    else match s.tables.get? key with
      | none => .free
      | some declared => .taken declared.table.unqualified declared.sources.length
  skips := s.findings.skips.length

lemma slots_skip (n : Nat) (reason : SkipReason) : (s.skip n reason).slots = s.slots.skip n :=
  congrArg (Slots.mk s.slots.slot)
    (List.length_append.trans (congrArg (s.findings.skips.length + ·) List.length_replicate))

lemma slots_report_ofFault (fault : Fault) (source? : Option String) :
    (s.report (.ofFault fault source?)).slots = s.slots :=
  congrArg (Slots.mk s.slots.slot) (congrArg List.length (List.append_nil _))

lemma slots_insert {key : String} (h : s.collided.contains key = false) (declared : DeclaredTable) :
    ({ s with tables := s.tables.insert key declared } : Schema).slots =
      ⟨Function.update s.slots.slot key
        (.taken declared.table.unqualified declared.sources.length), s.slots.skips⟩ := by
  refine congrArg (Slots.mk · s.slots.skips) (funext fun k => ?_)
  simp only [slots, OrderedMap.get?_insert]
  by_cases hk : k = key
  · subst hk
    simp [h]
  · simp [hk]

lemma slots_collide (key : String) :
    ({ s with tables := s.tables.erase key, collided := s.collided.insert key } : Schema).slots =
      ⟨Function.update s.slots.slot key .collided, s.slots.skips⟩ := by
  refine congrArg (Slots.mk · s.slots.skips) (funext fun k => ?_)
  simp only [slots, OrderedSet.contains_insert, OrderedMap.get?_erase]
  by_cases hk : k = key
  · subst hk
    simp
  · simp [hk]

lemma slots_declareOwnTable (source : String) (t : Table) :
    (s.declareOwnTable source t).slots = s.slots.declare t := by
  have hkey : Text.lower t.name.name = t.key := rfl
  unfold declareOwnTable
  simp only [hkey]
  split
  · next hcollided =>
    have hslot : s.slots.slot t.key = .collided := if_pos hcollided
    rw [slots_skip, Slots.declare, hslot]
    simp only [Slot.declare, Slot.skipped, Slots.skip, ← hslot, Function.update_eq_self]
  · next hcollided =>
    rw [Bool.not_eq_true] at hcollided
    split
    · next hnone =>
      have hslot : s.slots.slot t.key = .free := by
        simp [slots, hcollided, hnone]
      rw [s.slots_insert hcollided, Slots.declare, hslot]
      rfl
    · next declared hsome =>
      have hslot : s.slots.slot t.key =
          .taken declared.table.unqualified declared.sources.length := by
        simp [slots, hcollided, hsome]
      split
      · next hsame =>
        have hsame : declared.table.unqualified = t.unqualified := of_decide_eq_true hsame
        rw [s.slots_insert hcollided, Slots.declare, hslot]
        simp [Slot.declare, Slot.skipped, hsame]
      · next hsame =>
        have hsame : declared.table.unqualified ≠ t.unqualified := fun h => hsame (decide_eq_true h)
        rw [slots_skip, slots_collide, slots_report_ofFault, Slots.declare, hslot]
        simp [Slot.declare, Slot.skipped, hsame, Slots.skip]

lemma slots_declareTable (source : String) (t : Table) : (s.declareTable d.name source t).slots =
    if isOwnTable d t then s.slots.declare t else s.slots.skip 1 := by
  unfold declareTable isOwnTable
  rcases t.name.database?.any fun database => !Text.sameName database d.name with _ | _
  · rcases t.temporary with _ | _
    · simp [slots_declareOwnTable]
    · simp [slots_skip]
  · simp [slots_skip]

@[simp] lemma grants_declareTable (source : String) (t : Table) :
    (s.declareTable d.name source t).grants = s.grants := by
  unfold declareTable declareOwnTable
  simp only
  split
  · rfl
  · split
    · rfl
    · split
      · rfl
      · split
        · rfl
        · split <;> rfl

/-! ### Grants -/

lemma declareGrant_eq (source : String) (g : Grant) : s.declareGrant d.name source g =
    if isOwnGrant d g then { s with grants := s.grants ++ [⟨g.inDatabase d.name, source⟩] }
    else s.skip 1 .foreignGrant := by
  simp only [declareGrant, isOwnGrant, decide_eq_true_eq]

lemma slots_foldl_declareGrant (source : String) (gs : List Grant) :
    (gs.foldl (declareGrant d.name source) s).slots =
      s.slots.skip (gs.countP fun g => !isOwnGrant d g) := by
  induction gs generalizing s with
  | nil => rfl
  | cons g gs ih =>
    rw [List.foldl_cons, ih, List.countP_cons, declareGrant_eq]
    rcases isOwnGrant d g with _ | _
    · rw [if_neg Bool.false_ne_true, slots_skip]
      simp [Slots.skip, Nat.add_assoc, Nat.add_comm 1]
    · rfl

lemma grants_foldl_declareGrant (source : String) (gs : List Grant) :
    (gs.foldl (declareGrant d.name source) s).grants.map (·.grant) =
      s.grants.map (·.grant) ++ (gs.filter (isOwnGrant d)).map (Grant.inDatabase d.name) := by
  induction gs generalizing s with
  | nil => simp
  | cons g gs ih =>
    rw [List.foldl_cons, ih, List.filter_cons, declareGrant_eq]
    rcases isOwnGrant d g with _ | _
    · rfl
    · simp

/-! ### One statement -/

def declareSlots (d : LiveDatabase) (x : Slots) (text : String) : Slots :=
  ((ownTable? d text).elim x x.declare).skip (strays d text)

def declareClauses (d : LiveDatabase) (l : AccountLedger) (text : String) : AccountLedger :=
  (clauses d text).foldl (fun l c => l.declare c.1 c.2) l

lemma slots_declare (source text : String) :
    (s.declare d source text).slots = declareSlots d s.slots text := by
  unfold declare declareSlots ownTable? strays
  cases Statement.read d.real text with
  | table t =>
    refine (slots_declareTable s source t).trans ?_
    rcases h : isOwnTable d t with _ | _ <;> simp [h, Slots.skip]
  | grants verb gs => exact slots_foldl_declareGrant s source gs
  | invalid kind fault =>
    refine (slots_skip _ _ _).trans ?_
    rw [slots_report_ofFault]
    rfl
  | _ => rfl

lemma grants_declare (source text : String) : (s.declare d source text).grants.map (·.grant) =
    s.grants.map (·.grant) ++ ownGrants d text := by
  unfold declare ownGrants
  cases Statement.read d.real text with
  | table t => simp
  | grants verb gs => exact grants_foldl_declareGrant s source gs
  | _ => exact (List.append_nil _).symm

lemma accounts_declare (source text : String) :
    (s.declare d source text).accounts = declareClauses d s.accounts text := by
  unfold declare declareClauses clauses
  cases Statement.read d.real text with
  | table t => exact accounts_declareTable _ _ _ _
  | grants verb gs => exact accounts_foldl_declareGrant _ _ _ _
  | accounts cs =>
    change _ = (cs.map fun c => (c, if cs.length = 1 then some text else none)).foldl
      (fun l c => l.declare c.1 c.2) s.accounts
    rw [List.foldl_map]
    rfl
  | _ => rfl

/-- Where the declarations of a table collide, none is left. -/
def Settled : Prop := ∀ key, s.collided.contains key = true → s.tables.get? key = none

variable {s}

lemma Settled.declareOwnTable (h : s.Settled) (source : String) (t : Table) :
    (s.declareOwnTable source t).Settled := by
  have hinsert {key : String} (hkey : ¬ s.collided.contains key = true) (declared : DeclaredTable) :
      ({ s with tables := s.tables.insert key declared } : Schema).Settled := by
    intro k hk
    have hne : k ≠ key := fun he => hkey (he ▸ hk)
    exact (OrderedMap.get?_alter_of_ne _ hne).trans (h k hk)
  unfold Schema.declareOwnTable
  simp only
  split
  · exact h
  · next hcollided =>
    split
    · exact hinsert hcollided _
    · split
      · exact hinsert hcollided _
      · intro k hk
        refine (OrderedMap.get?_erase _ _ _).trans ?_
        split
        · rfl
        · next hne =>
          refine h k ?_
          have hmem := OrderedSet.mem_insert.1 (OrderedSet.contains_iff.1 hk)
          exact OrderedSet.contains_iff.2 (hmem.resolve_left hne)

lemma Settled.declare (h : s.Settled) (source text : String) : (s.declare d source text).Settled := by
  unfold Schema.declare
  cases Statement.read d.real text with
  | table t =>
    simp only [declareTable]
    split
    · exact h
    · split
      · exact h
      · exact h.declareOwnTable source t
  | grants verb gs =>
    simp only
    induction gs generalizing s with
    | nil => exact h
    | cons g gs ih =>
      refine ih ?_
      rw [declareGrant_eq]
      split
      · exact h
      · exact h
  | _ => exact h

/-! ### All statements -/

/-- The statements of some sources, each with the name of its source. -/
def attributed (sources : List Source) : List (String × String) :=
  sources.flatMap fun source => source.statements.map fun text => (source.name, text)

lemma map_snd_attributed (sources : List Source) :
    (attributed sources).map (·.2) = sources.flatMap (·.statements) := by
  simp [attributed, List.map_flatMap, Function.comp_def]

lemma ofSources_eq (sources : List Source) : ofSources d sources =
    (attributed sources).foldl (fun s p => s.declare d p.1 p.2) empty := by
  simp only [ofSources, attributed, List.foldl_flatMap, List.foldl_map]

lemma part_ofSources {β : Type} (part : Schema → β) (step : β → String → β)
    (h : ∀ s source text, part (s.declare d source text) = step (part s) text)
    (sources : List Source) :
    part (ofSources d sources) = (sources.flatMap (·.statements)).foldl step (part empty) := by
  rw [ofSources_eq, ← map_snd_attributed, List.foldl_map]
  exact (List.foldl_hom part fun s p => (h s p.1 p.2).symm).symm

lemma settled_ofSources (d : LiveDatabase) (sources : List Source) :
    (ofSources d sources).Settled := by
  rw [ofSources_eq]
  refine List.foldlRecOn (motive := Settled) _ _ (fun key hkey => ?_) fun s hs p _ =>
    hs.declare p.1 p.2
  cases hkey

/-! ### Forgetting the order -/

/-- Two schemas that differ in the order of their declarations alone. -/
structure Alike (s s' : Schema) : Prop where
  tables : ∀ key, (s.tables.get? key).map (·.table.unqualified) =
    (s'.tables.get? key).map (·.table.unqualified)
  collided : s.collided = s'.collided
  grants : (s.grants.map (·.grant)).Perm (s'.grants.map (·.grant))
  accounts : s.accounts = s'.accounts
  skips : s.findings.skips.length = s'.findings.skips.length

variable {s' : Schema}

lemma contains_collided_iff (s : Schema) (key : String) :
    s.collided.contains key = true ↔ s.slots.slot key = .collided := by
  simp only [slots]
  rcases s.collided.contains key with _ | _
  · rcases s.tables.get? key with _ | declared <;> simp
  · simp

lemma Settled.get?_tables (h : s.Settled) (key : String) :
    (s.tables.get? key).map (·.table.unqualified) = (s.slots.slot key).table? := by
  simp only [slots]
  rcases hcollided : s.collided.contains key with _ | _
  · rcases s.tables.get? key with _ | declared <;> rfl
  · rw [h key hcollided]
    rfl

lemma declareSlots_comm (x : Slots) (text text' : String) :
    declareSlots d (declareSlots d x text) text' = declareSlots d (declareSlots d x text') text := by
  unfold declareSlots
  rcases ownTable? d text with _ | t <;> rcases ownTable? d text' with _ | t' <;>
    simp only [Option.elim_none, Option.elim_some, Slots.declare_skip]
  · exact x.skip_comm _ _
  · exact Slots.skip_comm _ _ _
  · exact Slots.skip_comm _ _ _
  · rw [x.declare_comm t t', Slots.skip_comm]

end Schema

/-! ### Clauses on accounts -/

namespace AccountLedger

/-- Two clauses do not create the same account, nor do both require something of it. -/
def Compatible (c c' : AccountClause) : Prop := c.account = c'.account →
  ¬ (c.verb = .create ∧ c'.verb = .create) ∧
    ¬ ((c.verb = .alter ∧ c.transport?.isSome) ∧ c'.verb = .alter ∧ c'.transport?.isSome)

instance (c c' : AccountClause) : Decidable (Compatible c c') :=
  inferInstanceAs (Decidable (_ → _))

lemma Compatible.symm {c c' : AccountClause} (h : Compatible c c') : Compatible c' c :=
  fun haccount => (h haccount.symm).imp (mt And.symm) (mt And.symm)

lemma declare_comm {c c' : AccountClause} (h : Compatible c c') (l : AccountLedger)
    (text? text'? : Option String) :
    (l.declare c text?).declare c' text'? = (l.declare c' text'?).declare c text? := by
  refine congrArg (AccountLedger.mk · l.live) (OrderedMap.alter_comm _ fun hsame old? => ?_)
  obtain ⟨hcreate, hrequire⟩ := h hsame
  rcases hverb : c.verb with _ | _ <;> rcases hverb' : c'.verb with _ | _
  · exact absurd ⟨hverb, hverb'⟩ hcreate
  · rfl
  · rfl
  · rcases ht : c.transport? with _ | t <;> rcases ht' : c'.transport? with _ | t'
    case some.some => exact absurd ⟨⟨hverb, by simp [ht]⟩, hverb', by simp [ht']⟩ hrequire
    all_goals rfl

end AccountLedger

namespace Schema

/-- Two statements do not create the same account, nor do both require something of it. -/
def Independent (d : LiveDatabase) (text text' : String) : Prop :=
  ∀ c ∈ clauses d text, ∀ c' ∈ clauses d text', AccountLedger.Compatible c.1 c'.1

instance (text text' : String) : Decidable (Independent d text text') :=
  inferInstanceAs (Decidable (∀ c ∈ clauses d text, _))

instance : Std.Symm (Independent d) where
  symm _ _ h := fun c hc c' hc' => (h c' hc' c hc).symm

/-- Of all statements no two create the same account, nor do two require something of it. -/
def SettlesOnce (d : LiveDatabase) (texts : List String) : Prop := texts.Pairwise (Independent d)

instance (texts : List String) : Decidable (SettlesOnce d texts) :=
  inferInstanceAs (Decidable (texts.Pairwise _))

lemma declareClauses_comm {text text' : String} (h : Independent d text text') (l : AccountLedger) :
    declareClauses d (declareClauses d l text) text' =
      declareClauses d (declareClauses d l text') text := by
  have hone (c : AccountClause × Option String) (cs : List (AccountClause × Option String))
      (hc : ∀ c' ∈ cs, AccountLedger.Compatible c.1 c'.1) (l : AccountLedger) :
      cs.foldl (fun l c => l.declare c.1 c.2) (l.declare c.1 c.2) =
        (cs.foldl (fun l c => l.declare c.1 c.2) l).declare c.1 c.2 := by
    induction cs generalizing l with
    | nil => rfl
    | cons c' cs ih =>
      rw [List.foldl_cons, List.foldl_cons,
        AccountLedger.declare_comm (hc c' List.mem_cons_self) l c.2 c'.2,
        ih fun c'' hc'' => hc c'' (List.mem_cons_of_mem _ hc'')]
  unfold Independent at h
  unfold declareClauses
  generalize clauses d text = cs at h
  induction cs generalizing l with
  | nil => rfl
  | cons c cs ih =>
    rw [List.foldl_cons, List.foldl_cons, ← hone c _ (h c List.mem_cons_self),
      ih _ fun c' hc' => h c' (List.mem_cons_of_mem _ hc')]

lemma SettlesOnce.declareClauses_comm {texts : List String} (h : SettlesOnce d texts)
    {text text' : String} (htext : text ∈ texts) (htext' : text' ∈ texts) (l : AccountLedger) :
    declareClauses d (declareClauses d l text) text' =
      declareClauses d (declareClauses d l text') text := by
  by_cases hsame : text = text'
  · rw [hsame]
  · exact Schema.declareClauses_comm (List.Pairwise.forall h htext htext' hsame) l

theorem alike_of_perm {sources sources' : List Source}
    (hperm : (sources.flatMap (·.statements)).Perm (sources'.flatMap (·.statements)))
    (honce : SettlesOnce d (sources.flatMap (·.statements))) :
    Alike (ofSources d sources) (ofSources d sources') := by
  have hslots : (ofSources d sources).slots = (ofSources d sources').slots := by
    rw [part_ofSources slots _ slots_declare, part_ofSources slots _ slots_declare]
    exact hperm.foldl_eq' (fun text _ text' _ x => declareSlots_comm x text text') _
  have hcollided : (ofSources d sources).collided = (ofSources d sources').collided :=
    OrderedSet.ext_mem fun key => by
      rw [← OrderedSet.contains_iff, ← OrderedSet.contains_iff, contains_collided_iff,
        contains_collided_iff, hslots]
  refine ⟨fun key => ?_, hcollided, ?_, ?_, congrArg Slots.skips hslots⟩
  · rw [(settled_ofSources d sources).get?_tables, (settled_ofSources d sources').get?_tables, hslots]
  · have hgrants (sources : List Source) : (ofSources d sources).grants.map (·.grant) =
        (sources.flatMap (·.statements)).flatMap (ownGrants d) :=
      (part_ofSources (fun s => s.grants.map (·.grant)) (fun gs text => gs ++ ownGrants d text)
        grants_declare sources).trans List.flatMap_eq_foldl.symm
    rw [hgrants, hgrants]
    exact hperm.flatMap_right _
  · rw [part_ofSources accounts _ accounts_declare, part_ofSources accounts _ accounts_declare]
    exact hperm.foldl_eq'
      (fun text htext text' htext' l => honce.declareClauses_comm htext htext' l) _

end Schema

end SchemaDrift
