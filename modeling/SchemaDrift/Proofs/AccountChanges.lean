import Mathlib
import SchemaDrift.Drift.Account
import SchemaDrift.Proofs.OrderedLookup

/-!
Changes to accounts carried out. Every change is about one account, so what a list of changes does to
the live accounts is known from what it does to each of them.
-/

namespace SchemaDrift

/-- The accounts that a server has. -/
abbrev LiveAccounts := OrderedMap Account AccountClause

namespace AccountChange

/-- The account that is changed. -/
def account : AccountChange → Account
  | create c _ => c.account
  | require a _ | drop a => a

/-- What a change makes of its account, which is there or not. An account can be created only if it is
not there, and changed or dropped only if it is. -/
def effect? : Option AccountClause → AccountChange → Option (Option AccountClause)
  | none, create c _ => some (some c)
  | some live, require _ t => some (some { live with transport? := some t })
  | some _, drop _ => some none
  | _, _ => none

/-- Carries out a change on the live accounts. -/
def run? (live : LiveAccounts) (change : AccountChange) : Option LiveAccounts :=
  (effect? (live.get? change.account) change).map fun
    | some c => live.insert change.account c
    | none => live.erase change.account

variable {live live' : LiveAccounts} {change : AccountChange}

lemma get?_run? (h : run? live change = some live') (a : Account) :
    if change.account = a then effect? (live.get? a) change = some (live'.get? a)
    else live'.get? a = live.get? a := by
  obtain ⟨slot, hslot, rfl⟩ := Option.map_eq_some_iff.1 h
  rcases slot with _ | c
  · dsimp only
    rw [OrderedMap.get?_erase]
    split
    · rename_i heq
      subst heq
      rw [if_pos rfl]
      exact hslot
    · rename_i hne
      rw [if_neg (Ne.symm hne)]
  · dsimp only
    rw [OrderedMap.get?_insert]
    split
    · rename_i heq
      subst heq
      rw [if_pos rfl]
      exact hslot
    · rename_i hne
      rw [if_neg (Ne.symm hne)]

def changesTo (changes : List AccountChange) (a : Account) : List AccountChange :=
  changes.filter (·.account = a)

lemma changesTo_cons (changes : List AccountChange) (a : Account) : changesTo (change :: changes) a =
    if change.account = a then change :: changesTo changes a else changesTo changes a := by
  by_cases h : change.account = a <;> simp [changesTo, h]

lemma exists_run {changes : List AccountChange} {live : LiveAccounts}
    {slots : Account → Option AccountClause}
    (h : ∀ a, (changesTo changes a).foldlM effect? (live.get? a) = some (slots a)) :
    ∃ final, changes.foldlM run? live = some final ∧ ∀ a, final.get? a = slots a := by
  induction changes generalizing live with
  | nil => exact ⟨live, rfl, fun a => Option.some.inj (h a)⟩
  | cons change changes ih =>
    -- The first change of all is also the first to its account.
    have hchange := h change.account
    rw [changesTo_cons, if_pos rfl, List.foldlM_cons] at hchange
    obtain ⟨slot, hslot, -⟩ := Option.bind_eq_some_iff.1 hchange
    obtain ⟨next, hnext⟩ : ∃ next, run? live change = some next := by
      rw [run?, hslot]
      exact ⟨_, rfl⟩
    have hrest (a : Account) :
        (changesTo changes a).foldlM effect? (next.get? a) = some (slots a) := by
      have ha := h a
      have hget := get?_run? hnext a
      rw [changesTo_cons] at ha
      split at hget
      · rename_i heq
        rwa [if_pos heq, List.foldlM_cons, hget] at ha
      · rename_i hne
        rwa [if_neg hne, ← hget] at ha
    obtain ⟨final, hfinal, hslots⟩ := ih hrest
    exact ⟨final, by rw [List.foldlM_cons, hnext]; exact hfinal, hslots⟩

end AccountChange

end SchemaDrift
