import Mathlib
import SchemaDrift.Proofs.AccessReached

/-!
The gap of one entry closed. Where nothing is declared to be revoked, the revocation and the grant
turn what counts on the live side into what counts on the declared one. Columns cannot be taken out of
a privilege on the whole object; such a privilege is revoked altogether, and its columns are granted
afresh. Elsewhere nothing is revoked that is declared.
-/

namespace SchemaDrift

lemma Reach.sdiff_inf_self_of_ne_top {held : Reach} (h : held ≠ ⊤) (wanted : Reach) :
    held \ wanted ⊓ wanted = ⊥ := by
  induction held using WithTop.recTopCoe with
  | top => exact absurd rfl h
  | coe held =>
    induction wanted using WithTop.recTopCoe with
    | top => simp
    | coe wanted =>
      rw [coe_sdiff_coe, ← WithTop.coe_inf, Finset.inf_eq_inter, Finset.sdiff_inter_self]
      rfl

namespace Closing

variable {g : Gathered} (e : Effective)

/-! ### What is revoked and granted -/

lemma ofGap_congr_live (hrevoked : g.revoked = OrderedMap.empty) (held : Privileges) :
    ofGap { g with live := held } e = ofGap g e := by
  unfold ofGap
  simp only [hrevoked]
  rfl

lemma reach_revoke_of_not_revoked (hrevoked : g.revoked = OrderedMap.empty) :
    (ofGap g e).revoke.reach = e.live.reach \ e.declared.reach := by
  rw [reach_revoke_ofGap, hrevoked, Privileges.reach_empty, inf_bot_eq, bot_sup_eq]

lemma apply_ofGap (hrevoked : g.revoked = OrderedMap.empty) :
    (ofGap g e).apply e.live = e.declared := by
  refine Privileges.reach_injective ?_
  have hnone : e.declared.reach \ { g with live := e.live }.revoked.reach = e.declared.reach := by
    rw [hrevoked, Privileges.reach_empty, sdiff_bot]
  rw [← ofGap_congr_live e hrevoked e.live, reach_apply_ofGap (g := { g with live := e.live })
    le_rfl hnone, sdiff_self, bot_sdiff, sup_bot_eq]

lemma ofGap_eq_none_iff (hrevoked : g.revoked = OrderedMap.empty) :
    ofGap g e = .none ↔ e.live = e.declared := by
  constructor
  · intro hnone
    have happly := apply_ofGap e hrevoked
    rwa [hnone, apply_none] at happly
  · intro hsame
    have hrevoke : (ofGap g e).revoke = OrderedMap.empty := by
      refine Privileges.reach_injective ?_
      rw [reach_revoke_of_not_revoked e hrevoked, hsame, sdiff_self]
      rfl
    have hgrant : (ofGap g e).grant = OrderedMap.empty := by
      refine Privileges.reach_injective (funext fun name => ?_)
      rw [reach_grant_ofGap, hsame, Reach.granted, sdiff_self, if_neg bot_ne_top]
      rfl
    cases hgap : ofGap g e
    rw [hgap] at hrevoke hgrant
    exact congrArg₂ Closing.mk hrevoke hgrant

lemma intersect_eq_none_of_revoke (hrevoked : g.revoked = OrderedMap.empty) {name : String}
    {taken wanted : Scope} {cols : OrderedSet String} {hne : cols.toList ≠ []}
    (htaken : (ofGap g e).revoke.get? name = some taken)
    (hwanted : e.declared.get? name = some wanted)
    (hheld : e.live.get? name = some (.columns cols hne)) : taken.intersect wanted = .none := by
  have hreach := congrFun (reach_revoke_of_not_revoked e hrevoked) name
  rw [Pi.sdiff_apply, Privileges.reach, Privileges.reach, Privileges.reach, htaken, hwanted, hheld]
    at hreach
  refine Scope.reachOf_injective ?_
  rw [Scope.reachOf_intersect, ← Scope.reachOf_some, hreach]
  exact Reach.sdiff_inf_self_of_ne_top (Scope.reach_columns_ne_top cols hne) _

/-! ### The statements -/

variable (c : Closing) (database : String) (h : Holding)

lemma verbs_statements_sublist :
    ((c.statements database h).map Grant.verb).Sublist [.revoke, .grant] := by
  unfold statements
  rcases c.revoke.isEmpty with _ | _ <;> rcases c.grant.isEmpty with _ | _ <;> simp

lemma privileges_of_revocation {c : Closing} {database : String} {h : Holding} {s : Grant}
    (hs : s ∈ c.statements database h) (hverb : s.verb = .revoke) : s.privileges = c.revoke := by
  rcases List.mem_append.1 hs with hs | hs
  · split at hs
    · cases hs
    · rw [List.mem_singleton.1 hs]
  · split at hs
    · cases hs
    · rw [List.mem_singleton.1 hs] at hverb
      cases hverb

/-- **Closing one gap.** Let nothing be declared to be revoked on an object. The steps of its drift
are those of the statements that are carried out. These turn the privileges that count as live into
those that count as declared and touch no other holding; the revocation comes first; nothing is
revoked that is declared and held on columns; and there is no statement exactly if both sides are
equal. -/
theorem statements_close_gap (hrevoked : g.revoked = OrderedMap.empty) :
    let statements := (ofGap g e).statements database h
    (∀ l : AccessLedger, l.database = database →
        g.effective h.object (l.baseline h.account) = e →
        ((l.drift? h g).elim [] AccessDrift.steps) = statements.map Grant.step) ∧
      (∀ a : Access, statements.foldl Access.run (Function.update a h e.live) =
        Function.update a h e.declared) ∧
      (statements.map Grant.verb).Sublist [.revoke, .grant] ∧
      (∀ s ∈ statements, s.verb = .revoke → ∀ name taken wanted,
        s.privileges.get? name = some taken → e.declared.get? name = some wanted →
        ∀ cols hne, e.live.get? name = some (.columns cols hne) →
          taken.intersect wanted = .none) ∧
      (statements = [] ↔ e.live = e.declared) := by
  intro statements
  refine ⟨fun l hdatabase heffective => ?_, fun a => ?_, verbs_statements_sublist .., ?_, ?_⟩
  · simp only [AccessLedger.drift?, hdatabase, heffective]
    split
    · rename_i hempty
      exact (List.isEmpty_iff.1 hempty).symm
    · rfl
  · rw [foldl_run_statements, Function.update_idem, Function.update_self, apply_ofGap e hrevoked]
  · intro s hs hverb name taken wanted htaken hwanted cols hne hheld
    rw [privileges_of_revocation hs hverb] at htaken
    exact intersect_eq_none_of_revoke e hrevoked htaken hwanted hheld
  · rw [statements_eq_nil_iff, ofGap_eq_none_iff e hrevoked]

/-- A privilege on the whole object is narrowed to a column, and a list of columns is exchanged in
part. -/
theorem statements_close_gap_narrowed :
    let app : Holding := ⟨⟨"app", "%"⟩, "t"⟩
    let live : Privileges :=
      (OrderedMap.empty.insert "INSERT" .whole).insert "SELECT" (.ofNames ["a", "b"])
    let declared : Privileges :=
      (OrderedMap.empty.insert "INSERT" (.ofNames ["a"])).insert "SELECT" (.ofNames ["b", "c"])
    let nothing : Access := fun _ => OrderedMap.empty
    let statements := (ofGap .none ⟨declared, live⟩).statements "shop" app
    Gathered.none.revoked = OrderedMap.empty ∧
      statements.map Grant.sql = ["REVOKE INSERT, SELECT (a) ON shop.t FROM 'app'@'%'",
        "GRANT INSERT (a), SELECT (c) ON shop.t TO 'app'@'%'"] ∧
      statements.foldl Access.run (Function.update nothing app live) =
        Function.update nothing app declared := by
  intro app live declared nothing statements
  exact ⟨rfl, by decide +kernel,
    (statements_close_gap ⟨declared, live⟩ "shop" app rfl).2.1 nothing⟩

end Closing

end SchemaDrift
