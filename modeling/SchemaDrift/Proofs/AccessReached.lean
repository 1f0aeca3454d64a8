import Mathlib
import SchemaDrift.Drift.Access
import SchemaDrift.Proofs.Reach

/-!
What one run does to privileges. The statements that close the gaps of a ledger are carried out on
what every account holds on every object. On the whole database this reaches what is declared. On
one object it reaches the declared access only up to two leftovers, both made by reducing each side
by its own baseline before the sides are compared: what the server holds twice outlives the run, and
what is declared twice is never granted.
-/

namespace SchemaDrift

open Grant (everything)

instance : Std.LawfulEqOrd Holding where
  eq_of_compare {a b} h := by
    rw [show compare a b = compareLex (compareOn Holding.account) (compareOn Holding.object) a b
      from rfl, compareLex_eq_eq] at h
    have h1 : a.account = b.account := Std.LawfulEqCmp.eq_of_compare h.1
    have h2 : a.object = b.object := Std.LawfulEqCmp.eq_of_compare h.2
    cases a; cases b; simp_all

/-! ### What one closing takes and gives -/

namespace Closing

open Privileges (reach reach_grant)

lemma reach_revoking (c : Closing) (name : String) (s : Scope) :
    (c.revoking name s).revoke.reach = c.revoke.reach ⊔ Reach.only name s.reach :=
  reach_grant _ _ _

lemma reach_granting (c : Closing) (name : String) (s : Scope) :
    (c.granting name s).grant.reach = c.grant.reach ⊔ Reach.only name s.reach :=
  reach_grant _ _ _

lemma reach_grantingMissing (c : Closing) (name : String) (wanted held : Scope) :
    (c.grantingMissing name wanted held).grant.reach =
      c.grant.reach ⊔ Reach.only name (wanted.reach \ held.reach) := by
  rw [← Scope.reachOf_subtract, grantingMissing]
  rcases wanted.subtract held with _ | missing
  · simp
  · exact reach_granting _ _ _

@[simp] lemma revoke_grantingMissing (c : Closing) (name : String) (wanted held : Scope) :
    (c.grantingMissing name wanted held).revoke = c.revoke := by
  unfold grantingMissing
  split <;> rfl

@[simp] lemma revoke_granting (c : Closing) (name : String) (s : Scope) :
    (c.granting name s).revoke = c.revoke := rfl

@[simp] lemma grant_revoking (c : Closing) (name : String) (s : Scope) :
    (c.revoking name s).grant = c.grant := rfl

lemma reach_revoke_closeDeclared (live : Privileges) (c : Closing) (name : String) (s : Scope) :
    (closeDeclared live c (name, s)).revoke.reach =
      c.revoke.reach ⊔ Reach.only name (live.reach name \ s.reach) := by
  simp only [closeDeclared, reach]
  rcases live.get? name with _ | held
  · simp
  · simp only [Scope.reachOf_some, ← Scope.reachOf_subtract]
    rcases held.subtract s with _ | _ | ⟨cols, h⟩
    · simp
    · exact reach_revoking _ _ _
    · simpa using reach_revoking c name (.columns cols h)

lemma reach_grant_closeDeclared (live : Privileges) (c : Closing) (name : String) (s : Scope) :
    (closeDeclared live c (name, s)).grant.reach = c.grant.reach ⊔ Reach.only name
      (s.reach.granted (live.reach name)) := by
  simp only [closeDeclared, reach]
  rcases live.get? name with _ | held
  · simpa using reach_granting c name s
  · simp only [Scope.reachOf_some, Reach.granted, ← Scope.reachOf_subtract held]
    rcases held.subtract s with _ | _ | ⟨cols, h⟩
    · simpa using reach_grantingMissing c name s held
    · simpa using reach_granting (c.revoking name .whole) name s
    · simpa using reach_grantingMissing (c.revoking name (.columns cols h)) name s held

lemma reach_revoke_closeLive (declared : Privileges) (c : Closing) (name : String) (s : Scope) :
    (closeLive declared c (name, s)).revoke.reach = c.revoke.reach ⊔
      Reach.only name (if declared.contains name then ⊥ else s.reach) := by
  unfold closeLive
  by_cases h : declared.contains name
  · simp [h]
  · simpa [h] using reach_revoking c name s

@[simp] lemma grant_closeLive (declared : Privileges) (c : Closing) (p : String × Scope) :
    (closeLive declared c p).grant = c.grant := by
  unfold closeLive
  split <;> rfl

lemma reach_revoke_closeRevoked (live : Privileges) (c : Closing) (name : String) (s : Scope) :
    (closeRevoked live c (name, s)).revoke.reach =
      c.revoke.reach ⊔ Reach.only name (live.reach name ⊓ s.reach) := by
  simp only [closeRevoked, reach]
  rcases live.get? name with _ | held
  · simp
  · simp only [Option.bind_some, Scope.reachOf_some, ← Scope.reachOf_intersect]
    rcases held.intersect s with _ | both
    · simp
    · exact reach_revoking _ _ _

@[simp] lemma grant_closeRevoked (live : Privileges) (c : Closing) (p : String × Scope) :
    (closeRevoked live c p).grant = c.grant := by
  unfold closeRevoked
  split <;> rfl

lemma grant_foldl {step : Closing → String × Scope → Closing}
    (h : ∀ c p, (step c p).grant = c.grant) (es : List (String × Scope)) (c : Closing) :
    (es.foldl step c).grant = c.grant := by
  induction es generalizing c with
  | nil => rfl
  | cons e rest ih => rw [List.foldl_cons, ih, h]

/-- A closing revokes what the server holds of the declared revocations, and what counts on the live
side beyond the declared one. -/
lemma reach_revoke_ofGap (g : Gathered) (e : Effective) :
    (ofGap g e).revoke.reach =
      g.live.reach ⊓ g.revoked.reach ⊔ e.live.reach \ e.declared.reach := by
  funext k
  rw [ofGap, Privileges.reach_foldl_entries (fun c : Closing => c.revoke.reach) _ _ e.live
      (reach_revoke_closeLive e.declared),
    Privileges.reach_foldl_entries (fun c : Closing => c.revoke.reach) _ _ e.declared
      (reach_revoke_closeDeclared e.live),
    Privileges.reach_foldl_entries (fun c : Closing => c.revoke.reach) _ _ g.revoked
      (reach_revoke_closeRevoked g.live)]
  simp only [none, Privileges.reach_empty, Pi.bot_apply, bot_sup_eq, Pi.sup_apply, Pi.inf_apply,
    Pi.sdiff_apply, sup_assoc]
  congr 1
  · rw [reach, reach]
    rcases g.revoked.get? k <;> simp
  · rw [reach, reach, OrderedMap.contains]
    rcases e.declared.get? k with _ | wanted
    · rcases e.live.get? k <;> simp
    · rcases e.live.get? k <;> simp

lemma reach_grant_ofGap (g : Gathered) (e : Effective) (k : String) :
    (ofGap g e).grant.reach k =
      (e.declared.reach k).granted (e.live.reach k) := by
  rw [ofGap, grant_foldl (grant_closeLive e.declared),
    Privileges.reach_foldl_entries (fun c : Closing => c.grant.reach) _ _ e.declared
      (reach_grant_closeDeclared e.live),
    grant_foldl (grant_closeRevoked g.live)]
  simp only [none, Privileges.reach_empty, Pi.bot_apply, bot_sup_eq]
  rw [reach, reach]
  rcases e.declared.get? k <;> simp

/-- What is held after the revocation and the grant. -/
def apply (c : Closing) (held : Privileges) : Privileges := (held.subtract c.revoke).merge c.grant

lemma reach_apply_ofGap {g : Gathered} {e : Effective} (hlive : e.live.reach ≤ g.live.reach)
    (hdeclared : e.declared.reach \ g.revoked.reach = e.declared.reach) :
    ((ofGap g e).apply g.live).reach =
      e.declared.reach ⊔ (g.live.reach \ e.live.reach) \ g.revoked.reach := by
  funext k
  rw [apply, Privileges.reach_merge, Privileges.reach_subtract, reach_revoke_ofGap, Pi.sup_apply,
    reach_grant_ofGap]
  exact Reach.closed (hlive k) (congrFun hdeclared k)

end Closing

/-! ### Statements carried out -/

abbrev Access := Holding → Privileges

namespace Access

/-- A grant adds its privileges to those that the account holds on the object, and a revocation
takes them away. -/
def run (a : Access) (g : Grant) : Access :=
  let h : Holding := ⟨g.account, g.object⟩
  Function.update a h <|
    match g.verb with
    | .revoke => (a h).subtract g.privileges
    | .grant => (a h).merge g.privileges

/-- What an account may do with an object: what it holds on the whole database and what it holds on
the object. -/
def available (a : Access) (account : Account) (object : String) : Privileges :=
  (a ⟨account, everything⟩).merge (a ⟨account, object⟩)

end Access

namespace Privileges

@[simp] lemma subtract_empty (ps : Privileges) : ps.subtract OrderedMap.empty = ps :=
  reach_injective (by rw [reach_subtract, reach_empty, sdiff_bot])

@[simp] lemma merge_empty (ps : Privileges) : ps.merge OrderedMap.empty = ps := rfl

lemma eq_empty_of_isEmpty {ps : Privileges} (h : ps.isEmpty = true) : ps = OrderedMap.empty := by
  obtain ⟨es, _⟩ := ps
  have hes : es = [] := by simpa [OrderedMap.isEmpty] using h
  subst hes
  rfl

end Privileges

@[simp] lemma Closing.apply_none (ps : Privileges) : Closing.none.apply ps = ps := by
  simp [Closing.apply, Closing.none]

lemma Closing.foldl_run_statements (c : Closing) (database : String) (h : Holding) (a : Access) :
    (c.statements database h).foldl Access.run a = Function.update a h (c.apply (a h)) := by
  have hr : c.revoke.isEmpty = true → c.revoke = OrderedMap.empty := Privileges.eq_empty_of_isEmpty
  have hg : c.grant.isEmpty = true → c.grant = OrderedMap.empty := Privileges.eq_empty_of_isEmpty
  unfold Closing.statements Closing.apply
  rcases hre : c.revoke.isEmpty with _ | _ <;> rcases hge : c.grant.isEmpty with _ | _
  · simp [Access.run]
  · simp [Access.run, hg hge]
  · simp [Access.run, hr hre]
  · simp [hr hre, hg hge]

lemma Closing.statements_eq_nil_iff {c : Closing} (database : String) (h : Holding) :
    c.statements database h = [] ↔ c = .none := by
  constructor
  · intro hnil
    obtain ⟨hrevoke, hgrant⟩ := List.append_eq_nil_iff.1 hnil
    have hrevoke : c.revoke.isEmpty = true := by
      by_contra hsome
      rw [if_neg hsome] at hrevoke
      cases hrevoke
    have hgrant : c.grant.isEmpty = true := by
      by_contra hsome
      rw [if_neg hsome] at hgrant
      cases hgrant
    obtain ⟨revoke, grant⟩ := c
    obtain rfl : revoke = OrderedMap.empty := Privileges.eq_empty_of_isEmpty hrevoke
    obtain rfl : grant = OrderedMap.empty := Privileges.eq_empty_of_isEmpty hgrant
    rfl
  · rintro rfl
    rfl

namespace AccessLedger

def closing (l : AccessLedger) (h : Holding) (g : Gathered) : Closing :=
  .ofGap g (g.effective h.object (l.baseline h.account))

/-- The statements that close all gaps, in the order in which they run. -/
def statements (l : AccessLedger) : List Grant :=
  l.gathered.entries.flatMap fun (h, g) => (l.closing h g).statements l.database h

lemma steps_drifts (l : AccessLedger) :
    l.drifts.flatMap AccessDrift.steps = l.statements.map Grant.step := by
  unfold drifts statements
  induction l.gathered.entries with
  | nil => rfl
  | cons e rest ih =>
    obtain ⟨h, g⟩ := e
    rw [List.filterMap_cons, List.flatMap_cons, List.map_append, ← ih]
    simp only [drift?, closing]
    split
    · rename_i hs
      split at hs
      · rename_i he
        rw [List.isEmpty_iff.1 he, List.nil_append]
      · contradiction
    · rename_i d hs
      split at hs
      · contradiction
      · obtain rfl := Option.some.inj hs
        rw [List.flatMap_cons]

/-- What is gathered for a holding; nothing, if it has no entry. -/
def gatheredAt (l : AccessLedger) (h : Holding) : Gathered := (l.gathered.get? h).getD .none

lemma closing_none (l : AccessLedger) (h : Holding) : l.closing h .none = .none := by
  simp only [closing, Gathered.effective, Gathered.none, Gathered.reduced]
  split <;> rfl

lemma foldl_run_statements (l : AccessLedger) (a : Access) (h : Holding) :
    l.statements.foldl Access.run a h = (l.closing h (l.gatheredAt h)).apply (a h) := by
  suffices hes : ∀ (m : OrderedMap Holding Gathered) (a : Access),
      (m.entries.flatMap fun (h, g) => (l.closing h g).statements l.database h).foldl
        Access.run a h = (l.closing h ((m.get? h).getD .none)).apply (a h) from
    hes l.gathered a
  rintro ⟨es, hes⟩ a
  induction es generalizing a with
  | nil => simp [OrderedMap.get?, closing_none]
  | cons e rest ih =>
    obtain ⟨k, g⟩ := e
    have ih := ih hes.of_cons
    simp only [List.flatMap_cons, List.foldl_append, Closing.foldl_run_statements,
      OrderedMap.get?_cons] at ih ⊢
    rw [ih]
    by_cases hk : h = k
    · subst hk
      simp [OrderedMap.get?_tail_head hes, closing_none]
    · simp [hk]

end AccessLedger

/-! ### Reports -/

/-- A statement about privileges: a declaration, or a grant that the server reports. -/
inductive AccessReport where
  | declared (g : Grant)
  | live (g : Grant)

inductive AccessPart where
  | granted
  | revoked
  | held
  deriving DecidableEq

namespace AccessReport

def grant : AccessReport → Grant
  | declared g | live g => g

def part : AccessReport → AccessPart
  | declared g => match g.verb with
    | .grant => .granted
    | .revoke => .revoked
  | live _ => .held

def holding (r : AccessReport) : Holding := ⟨r.grant.account, r.grant.object⟩

/-- All privileges of one part that the reports name for a holding. -/
def total (rs : List AccessReport) (part : AccessPart) (h : Holding) : Privileges :=
  (rs.filter fun r => r.part = part ∧ r.holding = h).foldl
    (fun ps r => ps.merge r.grant.privileges) OrderedMap.empty

lemma total_append_singleton (rs : List AccessReport) (r : AccessReport) (part : AccessPart)
    (h : Holding) :
    total (rs ++ [r]) part h =
      if r.part = part ∧ r.holding = h then (total rs part h).merge r.grant.privileges
      else total rs part h := by
  unfold total
  by_cases hr : r.part = part ∧ r.holding = h
  · simp [hr]
  · simp [hr]

end AccessReport

namespace AccessLedger

open AccessReport (total)

/-- Adds a report to the side that it is about. -/
def add (l : AccessLedger) : AccessReport → AccessLedger
  | .declared g => l.declare g
  | .live g => l.observe g

def ofReports (database : String) (rs : List AccessReport) : AccessLedger :=
  rs.foldl add (empty database)

lemma gatheredAt_gather (l : AccessLedger) (g : Grant) (f : Gathered → Gathered) (h : Holding) :
    (l.gather g f).gatheredAt h =
      if (⟨g.account, g.object⟩ : Holding) = h then f (l.gatheredAt h) else l.gatheredAt h := by
  unfold gatheredAt gather
  rw [OrderedMap.get?_alter]
  by_cases hh : h = ⟨g.account, g.object⟩
  · simp [hh]
  · simp [hh, Ne.symm hh]

lemma baseline_rebase (l : AccessLedger) (a b : Account) (f : Baseline → Baseline) :
    (l.rebase a f).baseline b =
      if b = a then { f (l.baseline a) with version := (f (l.baseline a)).version + 1 }
      else l.baseline b := by
  unfold baseline rebase
  rw [OrderedMap.get?_alter]
  split <;> rfl

@[simp] lemma baseline_gather (l : AccessLedger) (g : Grant) (f : Gathered → Gathered)
    (a : Account) : (l.gather g f).baseline a = l.baseline a := rfl

/-- What the reports gather for a holding. -/
def reported (rs : List AccessReport) (h : Holding) : Gathered :=
  ⟨total rs .granted h, total rs .revoked h, total rs .held h, .none⟩

lemma gatheredAt_add (l : AccessLedger) (rs : List AccessReport) (r : AccessReport)
    (hl : ∀ h, l.gatheredAt h = reported rs h) (h : Holding) :
    (l.add r).gatheredAt h = reported (rs ++ [r]) h := by
  simp only [reported, AccessReport.total_append_singleton]
  rcases r with g | g
  · rcases hv : g.verb with _ | _
    · have hd : (l.add (.declared g)).gatheredAt h =
          (l.gather g fun e => { e with declared := e.declared.merge g.privileges }).gatheredAt
            h := by
        simp only [add, declare, hv]
        split <;> rfl
      rw [hd, gatheredAt_gather, hl]
      simp only [AccessReport.part, AccessReport.holding, AccessReport.grant, hv]
      split <;> simp_all [reported]
    · simp only [add, declare, hv, gatheredAt_gather, hl]
      simp only [AccessReport.part, AccessReport.holding, AccessReport.grant, hv]
      split <;> simp_all [reported]
  · have ho : (l.add (.live g)).gatheredAt h =
        (l.gather g fun e => { e with live := e.live.merge g.privileges }).gatheredAt h := by
      simp only [add, observe]
      split <;> rfl
    rw [ho, gatheredAt_gather, hl]
    simp only [AccessReport.part, AccessReport.holding, AccessReport.grant]
    split <;> simp_all [reported]

lemma baseline_add (l : AccessLedger) (rs : List AccessReport) (r : AccessReport)
    (hl : ∀ a, (l.baseline a).declared = total rs .granted ⟨a, everything⟩ ∧
      (l.baseline a).live = total rs .held ⟨a, everything⟩) (a : Account) :
    ((l.add r).baseline a).declared = total (rs ++ [r]) .granted ⟨a, everything⟩ ∧
      ((l.add r).baseline a).live = total (rs ++ [r]) .held ⟨a, everything⟩ := by
  simp only [AccessReport.total_append_singleton, ← (hl a).1, ← (hl a).2]
  rcases r with g | g
  · rcases hv : g.verb with _ | _
    · by_cases hw : g.object = everything
      · simp only [add, declare, hv, Grant.isDatabaseWide, hw, decide_true, if_true,
          baseline_rebase, baseline_gather, AccessReport.part, AccessReport.holding,
          AccessReport.grant]
        by_cases ha : a = g.account
        · simp [ha]
        · simp [ha, Ne.symm ha]
      · simp [add, declare, hv, Grant.isDatabaseWide, hw, AccessReport.part, AccessReport.holding,
          AccessReport.grant]
    · simp [add, declare, hv, AccessReport.part]
  · by_cases hw : g.object = everything
    · simp only [add, observe, Grant.isDatabaseWide, hw, decide_true, if_true, baseline_rebase,
        baseline_gather, AccessReport.part, AccessReport.holding, AccessReport.grant]
      by_cases ha : a = g.account
      · simp [ha]
      · simp [ha, Ne.symm ha]
    · simp [add, observe, Grant.isDatabaseWide, hw, AccessReport.part, AccessReport.holding,
        AccessReport.grant]

lemma gatheredAt_ofReports (database : String) (rs : List AccessReport) (h : Holding) :
    (ofReports database rs).gatheredAt h = reported rs h := by
  induction rs using List.reverseRecOn generalizing h with
  | nil => rfl
  | append_singleton rs r ih =>
    rw [ofReports, List.foldl_append]
    exact gatheredAt_add _ rs r ih h

/-- The baseline of an account is what the reports grant on the whole database; revocations do not
lower it. -/
lemma baseline_ofReports (database : String) (rs : List AccessReport) (a : Account) :
    ((ofReports database rs).baseline a).declared = total rs .granted ⟨a, everything⟩ ∧
      ((ofReports database rs).baseline a).live = total rs .held ⟨a, everything⟩ := by
  induction rs using List.reverseRecOn generalizing a with
  | nil => exact ⟨rfl, rfl⟩
  | append_singleton rs r ih =>
    rw [ofReports, List.foldl_append]
    exact baseline_add _ rs r ih a

end AccessLedger

/-! ### What a run reaches -/

namespace AccessReport

open AccessLedger (reported)

def declaredOn (rs : List AccessReport) (h : Holding) : Privileges :=
  (total rs .granted h).subtract (total rs .revoked h)

/-- What is declared that an account may do with an object. -/
def declaredAccess (rs : List AccessReport) (account : Account) (object : String) : Privileges :=
  (declaredOn rs ⟨account, everything⟩).merge (declaredOn rs ⟨account, object⟩)

/-- What counts for a holding, each side reduced by its own baseline. -/
def counted (rs : List AccessReport) (h : Holding) : Effective :=
  (reported rs h).reduced h.object
    ⟨total rs .granted ⟨h.account, everything⟩, total rs .held ⟨h.account, everything⟩, 0⟩

/-- What the server holds without its counting, as it holds it on the whole database as well, and
what no declared revocation takes away. It outlives the run. -/
def outliving (rs : List AccessReport) (h : Holding) : Privileges :=
  ((total rs .held h).subtract (counted rs h).live).subtract (total rs .revoked h)

/-- What is declared without its counting, as it is granted on the whole database as well, though a
revocation on the whole database takes it away there. It is never granted. -/
def forgone (rs : List AccessReport) (h : Holding) : Privileges :=
  ((declaredOn rs h).subtract (counted rs h).declared).subtract
    (declaredOn rs ⟨h.account, everything⟩)

def before (rs : List AccessReport) : Access := total rs .held

/-- What the server holds after the run. -/
def after (database : String) (rs : List AccessReport) : Access :=
  (AccessLedger.ofReports database rs).statements.foldl Access.run (before rs)

lemma counted_live_le (rs : List AccessReport) (h : Holding) :
    (counted rs h).live.reach ≤ (total rs .held h).reach := by
  unfold counted Gathered.reduced
  split
  · exact le_rfl
  · rw [Privileges.reach_subtract]
    exact sdiff_le

lemma counted_declared_le (rs : List AccessReport) (h : Holding) :
    (counted rs h).declared.reach ≤ (declaredOn rs h).reach := by
  unfold counted Gathered.reduced
  split
  · exact le_rfl
  · rw [Privileges.reach_subtract]
    exact sdiff_le

lemma counted_declared_sdiff (rs : List AccessReport) (h : Holding) :
    (counted rs h).declared.reach \ (total rs .revoked h).reach =
      (counted rs h).declared.reach := by
  unfold counted Gathered.reduced
  simp only [reported]
  split
  · rw [Privileges.reach_subtract, sdiff_idem]
  · rw [Privileges.reach_subtract, Privileges.reach_subtract, sdiff_right_comm, sdiff_idem]

lemma closing_ofReports (database : String) (rs : List AccessReport) (h : Holding) :
    (AccessLedger.ofReports database rs).closing h (reported rs h) =
      .ofGap (reported rs h) (counted rs h) := by
  have hb := AccessLedger.baseline_ofReports database rs h.account
  simp only [AccessLedger.closing, Gathered.effective, counted, Gathered.reduced]
  simp only [reported, hb]

lemma reach_after (database : String) (rs : List AccessReport) (h : Holding) :
    (after database rs h).reach = (counted rs h).declared.reach ⊔ (outliving rs h).reach := by
  rw [after, AccessLedger.foldl_run_statements, AccessLedger.gatheredAt_ofReports,
    closing_ofReports]
  rw [show before rs h = (reported rs h).live from rfl,
    Closing.reach_apply_ofGap (counted_live_le rs h) (counted_declared_sdiff rs h)]
  rw [outliving, Privileges.reach_subtract, Privileges.reach_subtract]
  rfl

/-- **The whole database.** What an account holds on the whole database after the run is what is
declared for it. -/
theorem after_everything (database : String) (rs : List AccessReport) (account : Account) :
    after database rs ⟨account, everything⟩ = declaredOn rs ⟨account, everything⟩ := by
  refine Privileges.reach_injective ?_
  have hc : counted rs ⟨account, everything⟩ =
      ⟨declaredOn rs ⟨account, everything⟩, total rs .held ⟨account, everything⟩⟩ := by
    simp [counted, Gathered.reduced, reported, declaredOn]
  rw [reach_after, outliving, hc, Privileges.reach_subtract, Privileges.reach_subtract, sdiff_self,
    bot_sdiff, sup_bot_eq]

/-- **What one run reaches.** The steps of the drifts are those of the statements that are carried
out. Afterwards an account's access to an object is the declared one exactly if what outlives the
run is declared and makes up for what is forgone. -/
theorem available_after_iff (database : String) (rs : List AccessReport) (account : Account)
    (object : String) :
    (AccessLedger.ofReports database rs).drifts.flatMap AccessDrift.steps =
        (AccessLedger.ofReports database rs).statements.map Grant.step ∧
      ((after database rs).available account object = declaredAccess rs account object ↔
        (outliving rs ⟨account, object⟩).Within (declaredAccess rs account object) ∧
          (forgone rs ⟨account, object⟩).Within (outliving rs ⟨account, object⟩)) := by
  refine ⟨AccessLedger.steps_drifts _, ?_⟩
  have hle := counted_declared_le rs ⟨account, object⟩
  rw [Privileges.within_iff, Privileges.within_iff, ← Privileges.reach_injective.eq_iff,
    Access.available, declaredAccess, Privileges.reach_merge, Privileges.reach_merge,
    after_everything, reach_after, forgone, Privileges.reach_subtract, Privileges.reach_subtract]
  generalize (declaredOn rs ⟨account, everything⟩).reach = wide at hle ⊢
  generalize (declaredOn rs ⟨account, object⟩).reach = narrow at hle ⊢
  generalize (counted rs ⟨account, object⟩).declared.reach = reduced at hle ⊢
  generalize (outliving rs ⟨account, object⟩).reach = leftover at hle ⊢
  constructor
  · intro h
    refine ⟨?_, ?_⟩
    · rw [← h]
      exact le_sup_right.trans le_sup_right
    · rw [sdiff_le_iff, sdiff_le_iff]
      calc narrow ≤ wide ⊔ narrow := le_sup_right
        _ = wide ⊔ (reduced ⊔ leftover) := h.symm
        _ = reduced ⊔ (wide ⊔ leftover) := sup_left_comm ..
  · rintro ⟨hover, hunder⟩
    rw [sdiff_le_iff, sdiff_le_iff] at hunder
    refine le_antisymm ?_ ?_
    · exact sup_le le_sup_left (sup_le (hle.trans le_sup_right) hover)
    · refine sup_le le_sup_left (hunder.trans ?_)
      rw [sup_left_comm]

/-- A privilege is granted and revoked on the whole database and granted on one table; the server
holds none of it. -/
def revokedAbove : List AccessReport :=
  let app : Account := ⟨"app", "%"⟩
  let select : Privileges := OrderedMap.empty.insert "SELECT" .whole
  [.declared ⟨.grant, app, none, some "shop", everything, select⟩,
    .declared ⟨.revoke, app, none, some "shop", everything, select⟩,
    .declared ⟨.grant, app, none, some "shop", "t", select⟩]

/-- The account is left without the access that is declared for it: nothing at all is run. -/
theorem declaredAccess_revokedAbove_ne :
    (AccessLedger.ofReports "shop" revokedAbove).statements = [] ∧
      (declaredAccess revokedAbove ⟨"app", "%"⟩ "t").get? "SELECT" = some .whole ∧
      (after "shop" revokedAbove).available ⟨"app", "%"⟩ "t" ≠
        declaredAccess revokedAbove ⟨"app", "%"⟩ "t" := by
  decide

/-- A privilege that the server holds on the whole database and on a table, and that nothing
declares, is revoked on the database only. -/
example :
    let select : Privileges := OrderedMap.empty.insert "SELECT" .whole
    let rs : List AccessReport := ["*", "t"].map fun object =>
      .live ⟨.grant, ⟨"app", "%"⟩, none, some "shop", object, select⟩
    ((after "shop" rs).available ⟨"app", "%"⟩ "t").get? "SELECT" = some .whole := by
  decide

end AccessReport

end SchemaDrift
