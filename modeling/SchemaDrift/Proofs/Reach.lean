import Mathlib
import SchemaDrift.Privilege.Scope
import SchemaDrift.Proofs.OrderedLookup

/-!
The reach of privileges as a lattice. What a scope reaches is a set of columns, or the whole object
above all of these; nothing is the least reach. Merging, intersecting and subtracting scopes are the
lattice operations, where the difference is that of a co-Heyting algebra: the whole object without
some columns is the whole object still. Privileges by name are functions into this lattice.
-/

namespace SchemaDrift

/-- Some columns of an object, or the object as a whole. -/
abbrev Reach := WithTop (Finset String)

namespace Reach

/-- What the first reach has beyond the second. -/
def minus : Reach → Reach → Reach
  | _, none => ⊥
  | none, some _ => ⊤
  | some a, some b => ((a \ b : Finset String) : Reach)

instance : GeneralizedCoheytingAlgebra Reach where
  sdiff := minus
  sdiff_le_iff a b c := by
    induction b using WithTop.recTopCoe with
    | top =>
      have hbot : minus a ⊤ = ⊥ := by cases a <;> rfl
      simp [hbot]
    | coe b =>
      induction a using WithTop.recTopCoe with
      | top =>
        induction c using WithTop.recTopCoe with
        | top => simp
        | coe c =>
          have htop : minus ⊤ b = ⊤ := rfl
          simp [htop, ← WithTop.coe_sup]
      | coe a =>
        induction c using WithTop.recTopCoe with
        | top => simp
        | coe c =>
          have hcoe : minus a b = ((a \ b : Finset String) : Reach) := rfl
          rw [hcoe, ← WithTop.coe_sup, WithTop.coe_le_coe, WithTop.coe_le_coe]
          exact sdiff_le_iff

@[simp] lemma sdiff_top' (a : Reach) : a \ ⊤ = ⊥ := by
  cases a <;> rfl

@[simp] lemma top_sdiff_coe (b : Finset String) : (⊤ : Reach) \ (b : Reach) = ⊤ := rfl

@[simp] lemma coe_sdiff_coe (a b : Finset String) :
    (a : Reach) \ (b : Reach) = ((a \ b : Finset String) : Reach) := rfl

/-- A reach of one name, and none of all others. -/
def only (name : String) (r : Reach) : String → Reach := Function.update ⊥ name r

@[simp] lemma only_self (name : String) (r : Reach) : only name r name = r :=
  Function.update_self ..

lemma only_of_ne {name k : String} (h : k ≠ name) (r : Reach) : only name r k = ⊥ :=
  Function.update_of_ne h ..

@[simp] lemma only_bot (name : String) : only name ⊥ = ⊥ := Function.update_eq_self ..

/-- What is granted of a wanted reach where another one counts: what is missing, but all of it if
the whole object has to be revoked first. -/
def granted (wanted counted : Reach) : Reach :=
  if counted \ wanted = ⊤ then wanted else wanted \ counted

@[simp] lemma granted_bot_right (wanted : Reach) : wanted.granted ⊥ = wanted := by
  simp [granted]

@[simp] lemma granted_bot_left (counted : Reach) : granted ⊥ counted = ⊥ := by
  simp [granted]

/-- What is left of a live reach, when the declared revocations and the excess of what counts are
revoked and what is missing is granted: what is wanted, and what neither counts nor is declared to
be revoked. -/
lemma closed {live revoked counted wanted : Reach} (hlive : counted ≤ live)
    (hwanted : wanted \ revoked = wanted) :
    (live \ (live ⊓ revoked ⊔ counted \ wanted)) ⊔ wanted.granted counted =
      wanted ⊔ (live \ counted) \ revoked := by
  rw [← sdiff_sdiff, sdiff_inf_self_left, granted]
  -- Only the whole object is not a set of columns; the claim is about sets once it is ruled out.
  induction counted using WithTop.recTopCoe with
  | top =>
    rw [top_le_iff] at hlive
    subst hlive
    induction wanted using WithTop.recTopCoe with
    | top => simpa using hwanted
    | coe w => simp
  | coe c =>
    induction wanted using WithTop.recTopCoe with
    | top => simp
    | coe w =>
      have hne : (c : Reach) \ (w : Reach) ≠ ⊤ := WithTop.coe_ne_top
      rw [if_neg hne]
      induction revoked using WithTop.recTopCoe with
      | top =>
        have hw : (w : Reach) = ⊥ := by simpa using hwanted.symm
        simp [hw]
      | coe r =>
        induction live using WithTop.recTopCoe with
        | top => simp
        | coe l =>
          rw [WithTop.coe_le_coe] at hlive
          rw [coe_sdiff_coe, WithTop.coe_inj] at hwanted
          simp only [coe_sdiff_coe, ← WithTop.coe_sup, WithTop.coe_inj]
          ext z
          have hl : z ∈ c → z ∈ l := fun hz => hlive hz
          have hw : z ∈ w → z ∉ r := fun hz => by
            rw [← hwanted] at hz
            exact (Finset.mem_sdiff.1 hz).2
          simp only [Finset.sup_eq_union, Finset.mem_union, Finset.mem_sdiff]
          tauto

end Reach

/-! ### Scopes -/

namespace Scope

/-- What a scope reaches. -/
def reach : Scope → Reach
  | whole => ⊤
  | columns cols _ => (cols.toList.toFinset : Finset String)

@[simp] lemma reach_whole : whole.reach = ⊤ := rfl

@[simp] lemma reach_columns_ne_top (cols : OrderedSet String) (h : cols.toList ≠ []) :
    (columns cols h).reach ≠ ⊤ := WithTop.coe_ne_top

def reachOf : Option Scope → Reach
  | some s => s.reach
  | none => ⊥

@[simp] lemma reachOf_none : reachOf none = ⊥ := rfl

@[simp] lemma reachOf_some (s : Scope) : reachOf (some s) = s.reach := rfl

lemma coe_toFinset_inj {s t : OrderedSet String}
    (h : ((s.toList.toFinset : Finset String) : Reach) = (t.toList.toFinset : Finset String)) :
    s = t := by
  refine OrderedSet.ext_mem fun z => ?_
  rw [← List.mem_toFinset, ← List.mem_toFinset, WithTop.coe_inj.1 h]

lemma reach_ne_bot (s : Scope) : s.reach ≠ ⊥ := by
  cases s with
  | whole => exact top_ne_bot
  | columns cols h =>
    intro hb
    have he : cols.toList.toFinset = ∅ := WithTop.coe_inj.1 hb
    exact h (by simpa using he)

lemma reach_injective : Function.Injective reach := by
  intro s t h
  cases s with
  | whole => cases t with
    | whole => rfl
    | columns b _ => exact absurd h WithTop.top_ne_coe
  | columns a _ => cases t with
    | whole => exact absurd h WithTop.coe_ne_top
    | columns b _ => congr; exact coe_toFinset_inj h

lemma reachOf_injective : Function.Injective reachOf := by
  intro s t h
  cases s with
  | none => cases t with
    | none => rfl
    | some t => exact absurd h.symm t.reach_ne_bot
  | some s => cases t with
    | none => exact absurd h s.reach_ne_bot
    | some t => rw [reach_injective h]

@[simp] lemma reachOf_ofSet? (cols : OrderedSet String) :
    reachOf (ofSet? cols) = (cols.toList.toFinset : Finset String) := by
  unfold ofSet?
  split
  · rfl
  · rename_i h
    rw [not_not.1 h]
    rfl

lemma reach_merge (s t : Scope) : (s.merge t).reach = s.reach ⊔ t.reach := by
  cases s with
  | whole => cases t <;> rfl
  | columns a _ => cases t with
    | whole => rfl
    | columns b _ =>
      simp only [merge, reach, ← WithTop.coe_sup, WithTop.coe_inj]
      ext z
      simp

lemma reachOf_subtract (s t : Scope) : reachOf (s.subtract t) = s.reach \ t.reach := by
  cases s with
  | whole => cases t <;> rfl
  | columns a _ => cases t with
    | whole => rfl
    | columns b _ =>
      simp only [subtract, reach, reachOf_ofSet?, Reach.coe_sdiff_coe, WithTop.coe_inj]
      ext z
      simp

lemma reachOf_intersect (s t : Scope) : reachOf (s.intersect t) = s.reach ⊓ t.reach := by
  cases s with
  | whole => simp [intersect, reach]
  | columns a _ => cases t with
    | whole => simp [intersect, reach]
    | columns b _ =>
      simp only [intersect, reach, reachOf_ofSet?, ← WithTop.coe_inf, WithTop.coe_inj]
      ext z
      simp

lemma covers_iff {s t : Scope} : s.covers t = true ↔ t.reach ≤ s.reach := by
  cases s with
  | whole => simp [covers, reach]
  | columns a _ => cases t with
    | whole => simp [covers, reach]
    | columns b _ =>
      rw [covers, OrderedSet.subset_iff]
      simp only [reach, WithTop.coe_le_coe, Finset.subset_iff, List.mem_toFinset]

end Scope

/-! ### Privileges -/

namespace Privileges

/-- What the privilege of every name reaches. -/
def reach (ps : Privileges) : String → Reach := fun name => Scope.reachOf (ps.get? name)

lemma reach_injective : Function.Injective reach := fun _ _ h =>
  OrderedMap.ext_get? fun name => Scope.reachOf_injective (congrFun h name)

@[simp] lemma reach_empty : reach OrderedMap.empty = ⊥ := rfl

lemma reach_grant (ps : Privileges) (name : String) (s : Scope) :
    (ps.grant name s).reach = ps.reach ⊔ Reach.only name s.reach := by
  funext k
  rw [reach, grant, OrderedMap.get?_alter, Pi.sup_apply, reach]
  by_cases hk : k = name
  · subst hk
    rcases ps.get? k with _ | held
    · simp
    · simp [Scope.reach_merge]
  · simp [hk, Reach.only_of_ne hk]

/-- A walk over privileges, each of which adds to its own name, adds what each of them reaches. -/
lemma reach_foldl_entries {σ : Type} (f : σ → String → Reach) (step : σ → String × Scope → σ)
    (added : String → Scope → Reach) (qs : Privileges)
    (hstep : ∀ c name s, f (step c (name, s)) = f c ⊔ Reach.only name (added name s))
    (c : σ) (k : String) :
    f (qs.entries.foldl step c) k = f c k ⊔ (qs.get? k).elim ⊥ (added k) := by
  obtain ⟨es, hes⟩ := qs
  induction es generalizing c with
  | nil => simp [OrderedMap.get?]
  | cons e rest ih =>
    obtain ⟨name, s⟩ := e
    rw [List.foldl_cons, ih (step c (name, s)) hes.of_cons, hstep, Pi.sup_apply,
      OrderedMap.get?_cons]
    by_cases hk : k = name
    · subst hk
      simp [OrderedMap.get?_tail_head hes]
    · simp [hk, Reach.only_of_ne hk]

lemma reach_merge (ps qs : Privileges) : (ps.merge qs).reach = ps.reach ⊔ qs.reach := by
  funext k
  rw [merge, reach_foldl_entries reach _ (fun _ => Scope.reach) qs fun c name s => ?_]
  · rw [Pi.sup_apply]
    congr 1
    rw [reach]
    rcases qs.get? k <;> rfl
  · exact reach_grant c name s

lemma reach_subtract (ps qs : Privileges) : (ps.subtract qs).reach = ps.reach \ qs.reach := by
  funext k
  rw [Pi.sdiff_apply, reach, reach, reach, subtract, OrderedMap.get?_filterMap]
  rcases ps.get? k with _ | held
  · simp
  · rcases qs.get? k with _ | taken
    · simp
    · simp [Scope.reachOf_subtract]

/-- Every privilege of the first map is covered by one of the second. -/
def Within (ps qs : Privileges) : Prop :=
  ∀ name s, ps.get? name = some s → ∃ t, qs.get? name = some t ∧ t.covers s

lemma within_iff {ps qs : Privileges} : ps.Within qs ↔ ps.reach ≤ qs.reach := by
  refine forall_congr' fun name => ?_
  rw [reach, reach]
  rcases ps.get? name with _ | s
  · simp
  · rcases qs.get? name with _ | t
    · simpa using s.reach_ne_bot
    · simp [Scope.covers_iff]

end Privileges

end SchemaDrift
