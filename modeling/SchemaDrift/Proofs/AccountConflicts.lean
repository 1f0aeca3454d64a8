import Mathlib
import SchemaDrift.Proofs.AccountSettlement

/-!
How many drifts an account has. What is declared of an account makes one at most, and so does
dropping a live account. Dropped are all live accounts of a managed name that are not declared to be
created themselves, even those that are declared to be changed: such an account is altered and
dropped in one run.
-/

namespace SchemaDrift

open AccountReport (creation? requirement? Manages)

/-- One run alters the account and drops it: the account is there, its name is managed although it is
not declared to be created itself, and its declared changes require what it does not have. -/
def AccountReport.AltersAndDrops (rs : List AccountReport) (a : Account) : Prop :=
  ∃ live t, (AccountLedger.ofReports rs).live.get? a = some live ∧ creation? rs a = none ∧
    Manages rs a.user ∧ requirement? rs a = some t ∧ t ≠ live.transport

namespace AccountLedger

open AccountReport (AltersAndDrops)

variable {l : AccountLedger} {a : Account}

/-! ### The drifts of one account -/

lemma account_of_declaredDrift? {d : DeclaredAccount} {drift : AccountDrift}
    (h : l.declaredDrift? a d = some drift) : drift.account = a := by
  unfold declaredDrift? at h
  split at h
  · rw [← Option.some.inj h]
  · obtain ⟨t, -, h⟩ := Option.bind_eq_some_iff.1 h
    split at h
    · cases h
    · rw [← Option.some.inj h]
  · cases h

lemma account_of_droppedDrift? {c : AccountClause} {drift : AccountDrift}
    (h : l.droppedDrift? a c = some drift) : drift.account = a := by
  unfold droppedDrift? at h
  split at h
  · rw [← Option.some.inj h]
  · cases h

lemma filter_drifts (l : AccountLedger) (a : Account) : l.drifts.filter (·.account = a) =
    (l.declaredDrift? a (l.declaredAt a)).toList ++
      ((l.live.get? a).bind (l.droppedDrift? a)).toList := by
  have hdeclared : ∀ e ∈ l.declared.entries, ∀ drift ∈ (l.declaredDrift? e.1 e.2).toList,
      drift.account = e.1 := fun e _ drift hdrift =>
    account_of_declaredDrift? (Option.mem_toList.1 hdrift)
  have hdropped : ∀ e ∈ l.live.entries, ∀ drift ∈ (l.droppedDrift? e.1 e.2).toList,
      drift.account = e.1 := fun e _ drift hdrift =>
    account_of_droppedDrift? (Option.mem_toList.1 hdrift)
  rw [drifts_eq, List.filter_append,
    OrderedMap.filter_flatMap_entries (f := fun b d => (l.declaredDrift? b d).toList) a hdeclared,
    OrderedMap.filter_flatMap_entries (f := fun b c => (l.droppedDrift? b c).toList) a hdropped,
    declaredAt]
  congr 1
  · rcases l.declared.get? a with _ | d
    · rcases hlive : l.live.get? a with _ | live <;>
        simp [declaredDrift?, hlive, DeclaredAccount.none, DeclaredAccount.transport?]
    · rfl
  · rcases l.live.get? a <;> rfl

/-! ### Altered and dropped -/

lemma droppedDrift?_isSome_iff {c : AccountClause} : (l.droppedDrift? a c).isSome ↔
    l.managedNames.contains a.user = true ∧ l.isCreated a = false := by
  rw [droppedDrift?, ← Bool.not_eq_true', ← Bool.and_eq_true]
  split <;> simp_all

lemma declaredDrift?_of_live {live : AccountClause} {d : DeclaredAccount}
    (hlive : l.live.get? a = some live) (hcreation : d.creation? = none) :
    l.declaredDrift? a d = d.altered?.bind fun t =>
      if t = live.transport then none
      else some ⟨a, .modified, ⟨some live.transport, some t⟩, [.require a t]⟩ := by
  have hdesired : d.transport? = d.altered? := by
    rw [DeclaredAccount.transport?, hcreation]
    rcases d.altered? <;> rfl
  rw [declaredDrift?, hlive, hdesired]

lemma altersAndDrops_iff (rs : List AccountReport) (a : Account) : AltersAndDrops rs a ↔
    ((ofReports rs).declaredDrift? a ((ofReports rs).declaredAt a)).isSome ∧
      (((ofReports rs).live.get? a).bind ((ofReports rs).droppedDrift? a)).isSome := by
  have hcreation := creation_ofReports rs a
  rcases hlive : (ofReports rs).live.get? a with _ | live
  · simp [AltersAndDrops, hlive]
  · rw [Option.bind_some, droppedDrift?_isSome_iff, contains_managedNames_iff, isCreated_ofReports]
    rcases hc : creation? rs a with _ | c
    · rw [hc, Option.map_eq_none_iff] at hcreation
      rw [declaredDrift?_of_live hlive hcreation, altered_ofReports, AltersAndDrops, hlive, hc]
      rcases requirement? rs a with _ | t
      · simp
      · by_cases ht : t = live.transport <;> simp [ht]
    · simp [AltersAndDrops, hc]

lemma verdict_of_live {live : AccountClause} {d : DeclaredAccount} {drift : AccountDrift}
    (hlive : l.live.get? a = some live) (h : l.declaredDrift? a d = some drift) :
    drift.verdict = .modified := by
  rw [declaredDrift?, hlive] at h
  obtain ⟨t, -, h⟩ := Option.bind_eq_some_iff.1 h
  split at h
  · cases h
  · rw [← Option.some.inj h]

lemma verdict_of_droppedDrift? {c : AccountClause} {drift : AccountDrift}
    (h : l.droppedDrift? a c = some drift) : drift.verdict = .dropped := by
  unfold droppedDrift? at h
  split at h
  · rw [← Option.some.inj h]
  · cases h

/-- **An account has at most one drift unless it is altered and dropped.** Then it has these two:
first the change of its requirement, then its drop. -/
theorem length_drifts_le_one_iff (rs : List AccountReport) (a : Account) :
    let ds := (ofReports rs).drifts.filter (·.account = a)
    (ds.length ≤ 1 ↔ ¬ AltersAndDrops rs a) ∧
      (AltersAndDrops rs a ↔ ds.map AccountDrift.verdict = [.modified, .dropped]) := by
  intro ds
  have hds : ds = _ := filter_drifts (ofReports rs) a
  rw [hds, altersAndDrops_iff]
  rcases hdeclared : (ofReports rs).declaredDrift? a ((ofReports rs).declaredAt a) with _ | drift
  · rcases ((ofReports rs).live.get? a).bind ((ofReports rs).droppedDrift? a) <;> simp
  · rcases hdrop : ((ofReports rs).live.get? a).bind ((ofReports rs).droppedDrift? a) with _ | drop
    · simp
    · obtain ⟨live, hlive, hdropped⟩ := Option.bind_eq_some_iff.1 hdrop
      simp [verdict_of_live hlive hdeclared, verdict_of_droppedDrift? hdropped]

/-- Another host of a created user is altered as declared, and dropped right after. -/
theorem not_length_drifts_le_one :
    let app : Account := ⟨"app", "%"⟩
    let other : Account := ⟨"app", "localhost"⟩
    let rs : List AccountReport :=
      [.declared (.bare .create app) none, .declared ⟨.alter, other, false, some .ssl⟩ none,
        .live (.bare .create app), .live (.bare .create other)]
    (ofReports rs).drifts =
        [⟨other, .modified, ⟨some .anything, some .ssl⟩, [.require other .ssl]⟩,
          ⟨other, .dropped, ⟨some .anything, none⟩, [.drop other]⟩] ∧
      ¬ ∀ a, ((ofReports rs).drifts.filter (·.account = a)).length ≤ 1 := by
  intro app other rs
  have hdrifts : (ofReports rs).drifts =
      [⟨other, .modified, ⟨some .anything, some .ssl⟩, [.require other .ssl]⟩,
        ⟨other, .dropped, ⟨some .anything, none⟩, [.drop other]⟩] := by
    decide +kernel
  refine ⟨hdrifts, fun hone => ?_⟩
  have htwo := hone other
  rw [hdrifts] at htwo
  exact absurd htwo (by decide)

end AccountLedger

end SchemaDrift
