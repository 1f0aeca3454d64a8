import Mathlib
import SchemaDrift.Proofs.Reach

/-!
Scopes in the order of what they cover. Merging two scopes gives the least one above both, and
intersecting them the greatest one below both, if there is any. Subtracting leaves the least scope
that gives the first one back when it is merged with what was taken. So a privilege that is gathered
from a list has, by its name, the least scope that covers all those listed for it, and neither order
nor repetition counts.
-/

namespace SchemaDrift

namespace Scope

/-- A scope is below those that cover it. -/
instance : PartialOrder Scope where
  le s t := t.covers s = true
  le_refl _ := covers_iff.2 le_rfl
  le_trans _ _ _ hst htu := covers_iff.2 ((covers_iff.1 hst).trans (covers_iff.1 htu))
  le_antisymm _ _ hst hts := reach_injective ((covers_iff.1 hst).antisymm (covers_iff.1 hts))

variable {s t u : Scope}

lemma le_iff_covers : s ≤ t ↔ t.covers s = true := Iff.rfl

lemma le_iff_reach : s ≤ t ↔ s.reach ≤ t.reach := covers_iff

instance : SemilatticeSup Scope where
  sup := merge
  le_sup_left s t := le_iff_reach.2 (reach_merge s t ▸ le_sup_left)
  le_sup_right s t := le_iff_reach.2 (reach_merge s t ▸ le_sup_right)
  sup_le s t u hsu htu := le_iff_reach.2 <| by
    rw [reach_merge]
    exact sup_le (le_iff_reach.1 hsu) (le_iff_reach.1 htu)

lemma isLUB_merge (s t : Scope) : IsLUB {s, t} (s.merge t) := isLUB_pair

/-! ### Parts of a scope -/

lemma reachOf_eq_bot_iff {part? : Option Scope} : reachOf part? = ⊥ ↔ part? = none := by
  cases part? with
  | none => simp
  | some part => simpa using part.reach_ne_bot

lemma reach_le_reachOf_iff {part? : Option Scope} :
    u.reach ≤ reachOf part? ↔ ∃ part, part? = some part ∧ u ≤ part := by
  cases part? with
  | none => simpa using u.reach_ne_bot
  | some part => simp [le_iff_reach]

lemma exists_intersect_iff : (∃ part, s.intersect t = some part ∧ u ≤ part) ↔ u ≤ s ∧ u ≤ t := by
  rw [← reach_le_reachOf_iff, reachOf_intersect, le_inf_iff, le_iff_reach, le_iff_reach]

lemma intersect_eq_none_iff : s.intersect t = none ↔ ∀ u, ¬ (u ≤ s ∧ u ≤ t) := by
  constructor
  · intro hnone u hu
    obtain ⟨part, hpart, -⟩ := exists_intersect_iff.2 hu
    rw [hnone] at hpart
    cases hpart
  · intro hnone
    rcases hpart : s.intersect t with _ | part
    · rfl
    · exact absurd (exists_intersect_iff.1 ⟨part, hpart, le_rfl⟩) (hnone part)

lemma isGLB_of_intersect (h : s.intersect t = some u) : IsGLB {s, t} u := by
  refine isGLB_iff_le_iff.2 fun v => ?_
  have hbelow := exists_intersect_iff (s := s) (t := t) (u := v)
  rw [h] at hbelow
  simpa [lowerBounds] using hbelow

lemma subtract_eq_none_iff : s.subtract t = none ↔ s ≤ t := by
  rw [← reachOf_eq_bot_iff, reachOf_subtract, sdiff_eq_bot_iff, le_iff_reach]

lemma reach_of_subtract (h : s.subtract t = some u) : u.reach = s.reach \ t.reach := by
  rw [← reachOf_subtract, h, reachOf_some]

lemma le_of_subtract (h : s.subtract t = some u) : u ≤ s := by
  rw [le_iff_reach, reach_of_subtract h]
  exact sdiff_le

lemma le_iff_le_merge_of_subtract (h : s.subtract t = some u) (v : Scope) :
    u ≤ v ↔ s ≤ v.merge t := by
  rw [le_iff_reach, le_iff_reach, reach_of_subtract h, reach_merge, sup_comm, sdiff_le_iff]

lemma intersect_eq_none_of_subtract {cols taken : OrderedSet String} {hcols : cols.toList ≠ []}
    {htaken : taken.toList ≠ []}
    (h : (columns cols hcols).subtract (columns taken htaken) = some u) :
    u.intersect (columns taken htaken) = none := by
  rw [← reachOf_eq_bot_iff, reachOf_intersect, reach_of_subtract h]
  simp only [reach, Reach.coe_sdiff_coe, ← WithTop.coe_inf, Finset.inf_eq_inter,
    Finset.sdiff_inter_self]
  rfl

end Scope

/-! ### Privileges that are gathered -/

namespace Privileges

lemma reach_foldl_grant_le_iff (held : Privileges) (es : List (String × Scope)) (name : String)
    (r : Reach) : (es.foldl (fun ps e => ps.grant e.1 e.2) held).reach name ≤ r ↔
      held.reach name ≤ r ∧ ∀ s, (name, s) ∈ es → s.reach ≤ r := by
  induction es generalizing held with
  | nil => simp
  | cons e es ih =>
    obtain ⟨k, t⟩ := e
    rw [List.foldl_cons, ih, reach_grant, Pi.sup_apply, sup_le_iff, and_assoc]
    refine and_congr_right fun _ => ?_
    by_cases hk : name = k
    · subst hk
      simp [or_imp, forall_and]
    · simp [hk, Reach.only_of_ne hk]

lemma foldl_grant_congr (held : Privileges) {es fs : List (String × Scope)}
    (h : ∀ e, e ∈ es ↔ e ∈ fs) : es.foldl (fun ps e => ps.grant e.1 e.2) held =
      fs.foldl (fun ps e => ps.grant e.1 e.2) held := by
  refine reach_injective (funext fun name => eq_of_forall_ge_iff fun r => ?_)
  simp only [reach_foldl_grant_le_iff, h]

variable {es : List (String × Scope)} {name : String}

lemma get?_foldl_grant_eq_none_iff :
    (es.foldl (fun (ps : Privileges) e => ps.grant e.1 e.2) OrderedMap.empty).get? name = none ↔
      ∀ s, (name, s) ∉ es := by
  rw [← Scope.reachOf_eq_bot_iff, ← le_bot_iff]
  refine (reach_foldl_grant_le_iff OrderedMap.empty es name ⊥).trans ?_
  simp [Scope.reach_ne_bot]

lemma isLUB_of_foldl_grant {s : Scope}
    (h : (es.foldl (fun (ps : Privileges) e => ps.grant e.1 e.2) OrderedMap.empty).get? name =
      some s) : IsLUB {t | (name, t) ∈ es} s := by
  refine isLUB_iff_le_iff.2 fun u => ?_
  have habove := reach_foldl_grant_le_iff OrderedMap.empty es name u.reach
  rw [reach, h] at habove
  simpa [Scope.le_iff_reach, upperBounds] using habove

end Privileges

namespace Scope

/-- **The algebra of scopes.** Covering is a partial order with merging as its join. Two scopes have
a meet, which is their intersection, if some scope is below both. A difference is there unless all
of the scope is taken; it is the least scope that gives the scope back with what was taken, and
between lists of columns it has none of those. What is gathered from a list has for each name the
join of its scopes, so privileges can be gathered in any order and more than once. -/
theorem covers_algebra :
    IsPartialOrder Scope (fun s t => t.covers s = true) ∧
    (∀ s t : Scope, s ≤ t ↔ t.covers s = true) ∧
    (∀ s t : Scope, IsLUB {s, t} (s.merge t)) ∧
    (∀ s t : Scope,
      (s.intersect t = none ↔ ∀ u : Scope, ¬ (s.covers u = true ∧ t.covers u = true)) ∧
      ∀ u, s.intersect t = some u → IsGLB {s, t} u) ∧
    (∀ s t : Scope, (s.subtract t = none ↔ t.covers s = true) ∧
      ∀ u, s.subtract t = some u →
        u.reach ≠ ⊥ ∧ s.covers u = true ∧ (u.merge t).covers s = true ∧
        ∀ v : Scope, (v.merge t).covers s = true → v.covers u = true) ∧
    (∀ cols hcols taken htaken u,
      (columns cols hcols).subtract (columns taken htaken) = some u →
        u.intersect (columns taken htaken) = none) ∧
    (∀ (es : List (String × Scope)) (name : String),
      let held? :=
        (es.foldl (fun (ps : Privileges) e => ps.grant e.1 e.2) OrderedMap.empty).get? name
      (held? = none ↔ ∀ s, (name, s) ∉ es) ∧
      ∀ s, held? = some s → IsLUB {t | (name, t) ∈ es} s) ∧
    ∀ (held : Privileges) (es fs : List (String × Scope)), (∀ e, e ∈ es ↔ e ∈ fs) →
      es.foldl (fun ps e => ps.grant e.1 e.2) held =
        fs.foldl (fun ps e => ps.grant e.1 e.2) held := by
  refine ⟨inferInstanceAs (IsPartialOrder Scope (· ≤ ·)), fun s t => le_iff_covers, isLUB_merge,
    fun s t => ⟨intersect_eq_none_iff, fun u hu => isGLB_of_intersect hu⟩,
    fun s t => ⟨subtract_eq_none_iff, fun u hu => ⟨u.reach_ne_bot, le_of_subtract hu, ?_, ?_⟩⟩,
    fun cols hcols taken htaken u hu => intersect_eq_none_of_subtract hu,
    fun es name => ⟨Privileges.get?_foldl_grant_eq_none_iff,
      fun s hs => Privileges.isLUB_of_foldl_grant hs⟩,
    fun held es fs h => Privileges.foldl_grant_congr held h⟩
  · exact (le_iff_le_merge_of_subtract hu u).1 le_rfl
  · exact fun v hv => (le_iff_le_merge_of_subtract hu v).2 hv

theorem covers_algebra_shown :
    let ab := ofNames ["a", "B"]
    let b := ofNames ["b"]
    (ab.subtract b = some (ofNames ["a"]) ∧ (ofNames ["a"]).intersect b = none) ∧
    (whole.subtract b = some whole ∧ (whole.merge b).covers whole = true) ∧
    (ab.intersect b = some b ∧ IsGLB {ab, b} b) ∧
    [("SELECT", ab), ("INSERT", whole), ("SELECT", b)].foldl
        (fun (ps : Privileges) e => ps.grant e.1 e.2) OrderedMap.empty =
      [("SELECT", b), ("INSERT", whole), ("SELECT", ab), ("INSERT", whole)].foldl
        (fun (ps : Privileges) e => ps.grant e.1 e.2) OrderedMap.empty := by
  intro ab b
  obtain ⟨-, -, -, hintersect, hsubtract, hcolumns, -, hgather⟩ := covers_algebra
  have hab : ab.subtract b = some (ofNames ["a"]) := by decide +kernel
  have hwhole : whole.subtract b = some whole := by decide +kernel
  have hb : ab.intersect b = some b := by decide +kernel
  refine ⟨⟨hab, hcolumns _ _ _ _ _ hab⟩, ⟨hwhole, ((hsubtract whole b).2 _ hwhole).2.2.1⟩,
    ⟨hb, (hintersect ab b).2 _ hb⟩, hgather _ _ _ fun e => ?_⟩
  simp only [List.mem_cons, List.not_mem_nil, or_false]
  tauto

end Scope

end SchemaDrift
