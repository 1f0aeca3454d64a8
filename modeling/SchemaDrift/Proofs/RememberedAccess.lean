import Mathlib
import SchemaDrift.Proofs.AccessReached

/-!
What drifts of privileges are answered from. A ledger can be asked for its drifts between reports, and
remembers what counted then for every account and object. Only a grant on the whole database makes it
count anew, though any report on a holding changes what counts there. So an answer need not be that of
a ledger with the same reports which was never asked; it is, exactly if what counted still counts
wherever there is something to do.
-/

namespace SchemaDrift

namespace AccessReport

/-! ### What one report adds -/

/-- What a report adds to what is gathered for its holding. -/
def gather (r : AccessReport) (e : Gathered) : Gathered :=
  match r.part with
  | .granted => { e with declared := e.declared.merge r.grant.privileges }
  | .revoked => { e with revoked := e.revoked.merge r.grant.privileges }
  | .held => { e with live := e.live.merge r.grant.privileges }

def rebases (r : AccessReport) (a : Account) : Bool :=
  r.grant.account = a && r.grant.isDatabaseWide && r.part ≠ .revoked

/-- What a report that makes a new version adds to the baseline. -/
def rebase (r : AccessReport) (b : Baseline) : Baseline :=
  match r.part with
  | .granted => { b with declared := b.declared.merge r.grant.privileges, version := b.version + 1 }
  | .revoked => b
  | .held => { b with live := b.live.merge r.grant.privileges, version := b.version + 1 }

end AccessReport

namespace AccessLedger

lemma add_eq (l : AccessLedger) (r : AccessReport) : l.add r =
    ⟨l.database,
      if r.rebases r.grant.account then
        l.baselines.alter r.grant.account fun old? => r.rebase (old?.getD .none)
      else l.baselines,
      l.gathered.alter r.holding fun old? => r.gather (old?.getD .none)⟩ := by
  rcases r with g | g
  · rcases hverb : g.verb with _ | _ <;> rcases hwide : g.isDatabaseWide with _ | _ <;>
      simp [add, declare, hverb, hwide, AccessReport.rebases, AccessReport.part,
        AccessReport.grant, AccessReport.gather, AccessReport.rebase, AccessReport.holding,
        AccessLedger.gather, AccessLedger.rebase]
  · rcases hwide : g.isDatabaseWide with _ | _ <;>
      simp [add, observe, hwide, AccessReport.rebases, AccessReport.part,
        AccessReport.grant, AccessReport.gather, AccessReport.rebase, AccessReport.holding,
        AccessLedger.gather, AccessLedger.rebase]

variable (l : AccessLedger) (r : AccessReport)

lemma get?_add (h : Holding) : (l.add r).gathered.get? h =
    if h = r.holding then some (r.gather (l.gatheredAt h)) else l.gathered.get? h := by
  rw [add_eq, OrderedMap.get?_alter]
  split
  · rename_i heq
    rw [heq]
    rfl
  · rfl

lemma remembered?_add (h : Holding) :
    ((l.add r).gatheredAt h).remembered? = (l.gatheredAt h).remembered? := by
  have hgather (e : Gathered) : (r.gather e).remembered? = e.remembered? := by
    unfold AccessReport.gather
    split <;> rfl
  rw [gatheredAt, get?_add]
  split
  · exact hgather _
  · rfl

lemma version_add (a : Account) : ((l.add r).baseline a).version =
    if r.rebases a then (l.baseline a).version + 1 else (l.baseline a).version := by
  have hrebase (b : Baseline) (hr : r.rebases a = true) :
      (r.rebase b).version = b.version + 1 := by
    simp only [AccessReport.rebases, Bool.and_eq_true, decide_eq_true_eq] at hr
    unfold AccessReport.rebase
    split
    · rfl
    · rename_i hpart
      exact absurd hpart hr.2
    · rfl
  have haccount (hr : r.rebases a = true) : r.grant.account = a := by
    simp only [AccessReport.rebases, Bool.and_eq_true, decide_eq_true_eq] at hr
    exact hr.1.1
  rw [add_eq, baseline, baseline]
  by_cases hr : r.rebases a = true
  · obtain rfl := haccount hr
    rw [if_pos hr, if_pos hr, OrderedMap.get?_alter_self]
    exact hrebase _ hr
  · rw [if_neg hr]
    split
    · rename_i hother
      have hne : a ≠ r.grant.account := by
        rintro rfl
        exact hr hother
      rw [OrderedMap.get?_alter_of_ne _ hne]
    · rfl

/-! ### Ledgers that remember nothing -/

lemma ext_get? {l m : AccessLedger} (hdatabase : l.database = m.database)
    (hbaselines : l.baselines = m.baselines)
    (hgathered : ∀ h, l.gathered.get? h = m.gathered.get? h) : l = m := by
  have hmaps := OrderedMap.ext_get? hgathered
  cases l
  cases m
  simp_all

def forgetting : AccessLedger :=
  { l with gathered := l.gathered.filterMap fun _ g => some { g with remembered? := .none } }

lemma get?_forgetting (h : Holding) : l.forgetting.gathered.get? h =
    (l.gathered.get? h).map fun g => { g with remembered? := .none } := by
  rw [forgetting, OrderedMap.get?_filterMap]
  rcases l.gathered.get? h <;> rfl

lemma gatheredAt_forgetting (h : Holding) :
    l.forgetting.gatheredAt h = { l.gatheredAt h with remembered? := .none } := by
  rw [gatheredAt, gatheredAt, get?_forgetting]
  rcases l.gathered.get? h <;> rfl

lemma forgetting_add : (l.add r).forgetting = l.forgetting.add r := by
  have hgather (e : Gathered) : { r.gather e with remembered? := .none } =
      r.gather { e with remembered? := .none } := by
    unfold AccessReport.gather
    split <;> rfl
  refine ext_get? (by rw [add_eq, add_eq]; rfl) (by rw [add_eq, add_eq]; rfl) fun h => ?_
  rw [get?_forgetting, get?_add, get?_add, get?_forgetting, gatheredAt_forgetting, ← hgather]
  split <;> rfl

lemma forgetting_take : l.take.2.forgetting = l.forgetting := by
  refine ext_get? rfl rfl fun h => ?_
  rw [get?_forgetting, get?_forgetting, take, remember, OrderedMap.get?_filterMap]
  rcases l.gathered.get? h <;> rfl

end AccessLedger

/-! ### Histories -/

/-- What a ledger has gone through: reports were added, and drifts were taken from it. -/
inductive AccessHistory where
  | start
  | added (past : AccessHistory) (r : AccessReport)
  | taken (past : AccessHistory)

namespace AccessHistory

open AccessLedger (ofReports reported)
open AccessReport (counted total)

def reports : AccessHistory → List AccessReport
  | start => []
  | added past r => past.reports ++ [r]
  | taken past => past.reports

def ledger (database : String) : AccessHistory → AccessLedger
  | start => .empty database
  | added past r => (past.ledger database).add r
  | taken past => (past.ledger database).take.2

/-- The reports from which it was counted what is remembered of a holding, if that is still used. -/
def recalled? (h : Holding) : AccessHistory → Option (List AccessReport)
  | start => none
  | added past r => if r.rebases h.account then none else past.recalled? h
  | taken past =>
    if past.reports.any (·.holding = h) then some ((past.recalled? h).getD past.reports) else none

/-- The reports from which the next answer counts the privileges of a holding. -/
def deciding (t : AccessHistory) (h : Holding) : List AccessReport :=
  (t.recalled? h).getD t.reports

variable {t : AccessHistory} {h : Holding}

lemma recalled?_of_not_reported (hnone : ∀ r ∈ t.reports, r.holding ≠ h) :
    t.recalled? h = none := by
  induction t with
  | start => rfl
  | added past r ih =>
    have hpast := ih fun s hs => hnone s (List.mem_append_left [r] hs)
    rw [recalled?, hpast, ite_self]
  | taken past _ =>
    have hany : ¬ past.reports.any (·.holding = h) = true := by
      rw [List.any_eq_true]
      rintro ⟨r, hr, heq⟩
      exact hnone r hr (of_decide_eq_true heq)
    rw [recalled?, if_neg hany]

variable (database : String) (t : AccessHistory) (h : Holding)

lemma forgetting_ledger : (t.ledger database).forgetting = ofReports database t.reports := by
  induction t with
  | start => rfl
  | added past r ih =>
    rw [ledger, AccessLedger.forgetting_add, ih, reports, ofReports, ofReports,
      List.foldl_append, List.foldl_cons, List.foldl_nil]
  | taken past ih => rw [ledger, AccessLedger.forgetting_take, ih, reports]

lemma gatheredAt_ledger :
    { (t.ledger database).gatheredAt h with remembered? := .none } = reported t.reports h := by
  rw [← AccessLedger.gatheredAt_forgetting, forgetting_ledger, AccessLedger.gatheredAt_ofReports]

lemma reduced_ledger : ((t.ledger database).gatheredAt h).reduced h.object
    ((t.ledger database).baseline h.account) = counted t.reports h := by
  have hbaseline : (t.ledger database).baseline h.account =
      (ofReports database t.reports).baseline h.account := by
    rw [← forgetting_ledger]
    rfl
  obtain ⟨hdeclared, hlive⟩ := AccessLedger.baseline_ofReports database t.reports h.account
  rw [counted, ← gatheredAt_ledger database, ← hdeclared, ← hlive, ← hbaseline]
  rfl

lemma isSome_get?_ledger : ((t.ledger database).gathered.get? h).isSome =
    t.reports.any (·.holding = h) := by
  induction t with
  | start => rfl
  | added past r ih =>
    rw [ledger, reports, List.any_append, ← ih, AccessLedger.get?_add]
    by_cases heq : h = r.holding
    · simp [heq]
    · simp [heq, Ne.symm heq]
  | taken past ih =>
    rw [ledger, reports, ← ih, AccessLedger.take, AccessLedger.remember, OrderedMap.get?_filterMap]
    rcases (past.ledger database).gathered.get? h <;> rfl

/-- What is remembered of a holding is used just if there are reports to recall, and it is what counted
by them. -/
def Recalls (l : AccessLedger) (h : Holding) : Option (List AccessReport) → Prop
  | none => ∀ p ∈ (l.gatheredAt h).remembered?, p.1 < (l.baseline h.account).version
  | some rs => (l.gatheredAt h).remembered? = some ((l.baseline h.account).version, counted rs h)

section

variable {l : AccessLedger} {h : Holding} {past? : Option (List AccessReport)}

lemma Recalls.version_le (hl : Recalls l h past?) :
    ∀ p ∈ (l.gatheredAt h).remembered?, p.1 ≤ (l.baseline h.account).version := by
  intro p hp
  rcases past? with _ | rs
  · exact (hl p hp).le
  · have hremembered : (l.gatheredAt h).remembered? = _ := hl
    rw [hremembered] at hp
    obtain rfl := Option.some.inj hp
    exact le_rfl

/-- Only a new version of the baseline makes a ledger disregard what it remembers. -/
lemma Recalls.add (hl : Recalls l h past?) (r : AccessReport) :
    Recalls (l.add r) h (if r.rebases h.account then none else past?) := by
  have hremembered := l.remembered?_add r h
  have hversion := l.version_add r h.account
  -- A new version outdates what is remembered; otherwise the version is as it was.
  by_cases hr : r.rebases h.account = true
  · rw [if_pos hr] at hversion ⊢
    intro p hp
    rw [hremembered] at hp
    have hle := hl.version_le p hp
    omega
  · rw [if_neg hr] at hversion ⊢
    rcases past? with _ | rs
    · intro p hp
      rw [hremembered] at hp
      have hlt := hl p hp
      omega
    · have hpast : (l.gatheredAt h).remembered? = _ := hl
      exact hremembered.trans (by rw [hpast, hversion])

lemma recalls_take {rs : List AccessReport} (heffective : (l.gatheredAt h).effective h.object
    (l.baseline h.account) = counted rs h) :
    Recalls l.take.2 h (if (l.gathered.get? h).isSome then some rs else none) := by
  have hget : l.take.2.gathered.get? h =
      (l.gathered.get? h).map fun g => g.remember h.object (l.baseline h.account) := by
    rw [AccessLedger.take, AccessLedger.remember, OrderedMap.get?_filterMap]
    rcases l.gathered.get? h <;> rfl
  rcases hg : l.gathered.get? h with _ | g
  · intro p hp
    rw [AccessLedger.gatheredAt, hget, hg] at hp
    cases hp
  · rw [AccessLedger.gatheredAt, hg] at heffective
    change (l.take.2.gatheredAt h).remembered? = _
    rw [AccessLedger.gatheredAt, hget, hg]
    exact congrArg (fun e => some (_, e)) heffective

end

lemma effective_of_recalls (hrecalls : Recalls (t.ledger database) h (t.recalled? h)) :
    ((t.ledger database).gatheredAt h).effective h.object
      ((t.ledger database).baseline h.account) = counted (t.deciding h) h := by
  rw [deciding, Gathered.effective]
  rcases hrecalled : t.recalled? h with _ | rs
  · rw [hrecalled] at hrecalls
    rcases hremembered : ((t.ledger database).gatheredAt h).remembered? with _ | ⟨version, e⟩
    · exact reduced_ledger database t h
    · have hold := hrecalls _ hremembered
      exact (if_neg (Nat.ne_of_lt hold)).trans (reduced_ledger database t h)
  · rw [hrecalled] at hrecalls
    change _ = _ at hrecalls
    rw [hrecalls]
    exact if_pos rfl

lemma recalls_ledger : Recalls (t.ledger database) h (t.recalled? h) := by
  induction t with
  | start =>
    intro p hp
    cases hp
  | added past r ih => exact ih.add r
  | taken past ih =>
    rw [recalled?, ← isSome_get?_ledger database]
    exact recalls_take (effective_of_recalls database past h ih)

end AccessHistory

/-! ### Drifts -/

namespace AccessDrift

def holding (d : AccessDrift) : Holding := ⟨d.account, d.object⟩

/-- The drift of a holding on which certain privileges count. -/
def ofCounting? (database : String) (h : Holding) (g : Gathered) (e : Effective) :
    Option AccessDrift :=
  let steps := ((Closing.ofGap g e).statements database h).map Grant.step
  if steps.isEmpty then none else some ⟨h.account, h.object, ⟨some e.live, some e.declared⟩, steps⟩

variable {database : String} {h : Holding} {g : Gathered} {e e' : Effective} {d : AccessDrift}

variable (database h) in
lemma ofCounting?_eq_none_iff : ofCounting? database h g e = none ↔ Closing.ofGap g e = .none := by
  rw [← Closing.statements_eq_nil_iff database h]
  simp [ofCounting?]

lemma of_ofCounting?_eq_some (hd : ofCounting? database h g e = some d) :
    d.holding = h ∧ d.sides = ⟨some e.live, some e.declared⟩ := by
  simp only [ofCounting?] at hd
  split at hd
  · cases hd
  · obtain rfl := Option.some.inj hd
    exact ⟨rfl, rfl⟩

lemma ofCounting?_eq_iff : ofCounting? database h g e = ofCounting? database h g e' ↔
    e = e' ∨ (Closing.ofGap g e = .none ∧ Closing.ofGap g e' = .none) := by
  rw [← ofCounting?_eq_none_iff database h, ← ofCounting?_eq_none_iff database h]
  constructor
  · intro heq
    rcases hd : ofCounting? database h g e with _ | d
    · exact .inr ⟨rfl, heq.symm.trans hd⟩
    · have hsides := (of_ofCounting?_eq_some hd).2
      rw [(of_ofCounting?_eq_some (heq.symm.trans hd)).2, Sides.mk.injEq] at hsides
      obtain ⟨hlive, hdeclared⟩ := hsides
      cases e
      cases e'
      simp_all
  · rintro (rfl | ⟨hnone, hnone'⟩)
    · rfl
    · rw [hnone, hnone']

end AccessDrift

lemma filterMap_eq_filterMap_iff {α β κ : Type} {key : α → κ} {origin : β → κ} {f f' : α → Option β}
    {l : List α} (hf : ∀ a b, f a = some b → origin b = key a)
    (hf' : ∀ a b, f' a = some b → origin b = key a) (hl : (l.map key).Nodup) :
    l.filterMap f = l.filterMap f' ↔ ∀ a ∈ l, f a = f' a := by
  induction l with
  | nil => simp
  | cons a l ih =>
    rw [List.map_cons, List.nodup_cons] at hl
    have hother {f : α → Option β} (hf : ∀ a b, f a = some b → origin b = key a) {b : β}
        (hb : origin b = key a) : b ∉ l.filterMap f := by
      intro hmem
      obtain ⟨c, hc, hfc⟩ := List.mem_filterMap.1 hmem
      exact hl.1 (List.mem_map.2 ⟨c, hc, (hf c b hfc).symm.trans hb⟩)
    rw [List.forall_mem_cons, ← ih hl.2]
    rcases ha : f a with _ | b <;> rcases ha' : f' a with _ | b'
    · simp [List.filterMap_cons_none ha, List.filterMap_cons_none ha']
    · rw [List.filterMap_cons_none ha, List.filterMap_cons_some ha']
      refine iff_of_false (fun h => ?_) (by simp)
      exact hother hf (hf' a b' ha') (h ▸ List.mem_cons_self)
    · rw [List.filterMap_cons_some ha, List.filterMap_cons_none ha']
      refine iff_of_false (fun h => ?_) (by simp)
      exact hother hf' (hf a b ha) (h ▸ List.mem_cons_self)
    · rw [List.filterMap_cons_some ha, List.filterMap_cons_some ha', List.cons.injEq,
        Option.some.injEq]

/-- A ledger answers as if it remembered nothing, exactly if whatever counts for an entry would be
counted again or there is nothing to do either way. -/
lemma AccessLedger.drifts_eq_forgetting_iff (l : AccessLedger) :
    l.drifts = l.forgetting.drifts ↔ ∀ h g, l.gathered.get? h = some g →
      g.effective h.object (l.baseline h.account) = g.reduced h.object (l.baseline h.account) ∨
        (Closing.ofGap g (g.effective h.object (l.baseline h.account)) = .none ∧
          Closing.ofGap g (g.reduced h.object (l.baseline h.account)) = .none) := by
  have hforgetting : l.forgetting.drifts = l.gathered.entries.filterMap fun e =>
      AccessDrift.ofCounting? l.database e.1 e.2
        (e.2.reduced e.1.object (l.baseline e.1.account)) := by
    rw [drifts, forgetting, OrderedMap.filterMap, List.filterMap_filterMap]
    rfl
  -- Both answers walk over the same entries, and every drift names the entry that it comes from.
  have hnodup : (l.gathered.entries.map (·.1)).Nodup :=
    List.pairwise_map.2 (l.gathered.increasing.imp ne_of_compare_lt)
  have horigin (counts : Holding × Gathered → Effective) (e : Holding × Gathered) (d : AccessDrift)
      (hd : AccessDrift.ofCounting? l.database e.1 e.2 (counts e) = some d) : d.holding = e.1 :=
    (AccessDrift.of_ofCounting?_eq_some hd).1
  have hentries := filterMap_eq_filterMap_iff
    (horigin fun e => e.2.effective e.1.object (l.baseline e.1.account))
    (horigin fun e => e.2.reduced e.1.object (l.baseline e.1.account)) hnodup
  rw [hforgetting]
  refine hentries.trans ?_
  simp only [AccessDrift.ofCounting?_eq_iff, Prod.forall, OrderedMap.get?_eq_some_iff]

namespace AccessHistory

open AccessLedger (ofReports reported)
open AccessReport (counted)

variable (database : String) (t : AccessHistory)

/-- **When an answer is fresh.** Between reports a ledger may have been asked for its drifts. Its next
answer is that of a ledger which got the same reports and was never asked, exactly if for every holding
the reports that decide what counts there make the same count as all reports, or both counts leave
nothing to do. -/
theorem take_eq_iff :
    (t.ledger database).take.1 = (ofReports database t.reports).take.1 ↔
      ∀ h, counted (t.deciding h) h = counted t.reports h ∨
        (Closing.ofGap (reported t.reports h) (counted (t.deciding h) h) = .none ∧
          Closing.ofGap (reported t.reports h) (counted t.reports h) = .none) := by
  have hentry {h : Holding} {g : Gathered} (hg : (t.ledger database).gathered.get? h = some g) :
      (t.ledger database).gatheredAt h = g := by
    rw [AccessLedger.gatheredAt, hg]
    rfl
  have hclosing {h : Holding} {g : Gathered} (hg : (t.ledger database).gathered.get? h = some g)
      (e : Effective) : Closing.ofGap (reported t.reports h) e = Closing.ofGap g e := by
    rw [← gatheredAt_ledger database, hentry hg]
    rfl
  change (t.ledger database).drifts = (ofReports database t.reports).drifts ↔ _
  rw [← forgetting_ledger, AccessLedger.drifts_eq_forgetting_iff]
  constructor
  · intro hall h
    rcases hg : (t.ledger database).gathered.get? h with _ | g
    · -- Without an entry nothing was reported, and nothing is recalled.
      have hnone := isSome_get?_ledger database t h
      rw [hg] at hnone
      have hdeciding : t.deciding h = t.reports := by
        rw [deciding, recalled?_of_not_reported (by simpa using hnone)]
        rfl
      exact .inl (by rw [hdeciding])
    · have heffective := effective_of_recalls database t h (recalls_ledger database t h)
      have hreduced := reduced_ledger database t h
      rw [hentry hg] at heffective hreduced
      rw [hclosing hg, hclosing hg, ← heffective, ← hreduced]
      exact hall h g hg
  · intro hall h g hg
    have heffective := effective_of_recalls database t h (recalls_ledger database t h)
    have hreduced := reduced_ledger database t h
    rw [hentry hg] at heffective hreduced
    rw [heffective, hreduced, ← hclosing hg, ← hclosing hg]
    exact hall h

/-- A second privilege on a table is declared after the drifts were taken. -/
def grownTable : AccessHistory :=
  let app : Account := ⟨"app", "%"⟩
  let grant (name : String) : AccessReport :=
    .declared ⟨.grant, app, none, some "shop", "t", OrderedMap.empty.insert name .whole⟩
  .added (.taken (.added .start (grant "SELECT"))) (grant "INSERT")

/-- The next answer is still the first one. -/
theorem take_grownTable_ne :
    (grownTable.ledger "shop").take.1 = (ofReports "shop" (grownTable.reports.take 1)).take.1 ∧
      (grownTable.ledger "shop").take.1 ≠ (ofReports "shop" grownTable.reports).take.1 := by
  decide +kernel

end AccessHistory

end SchemaDrift
