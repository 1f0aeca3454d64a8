import Mathlib
import SchemaDrift.Proofs.CountedRows

/-!
Guards of choice columns. The text in such a column is one listed member, or any number of them with
commas between. A change without a guard keeps every choice of members. A guard counts every choice that
the new type does not have but one: that of no member at all, which a column of sets loses when it
becomes one of single members.
-/

namespace SchemaDrift

/-! ### Texts of sets -/

namespace Text

def items (text : String) : List String :=
  if text = "" then [] else (text.toList.splitOn ',').map String.ofList

lemma toList_joined (separator : String) (ss : List String) :
    (joined separator ss).toList = separator.toList.intercalate (ss.map String.toList) := by
  induction ss with
  | nil => rfl
  | cons s ss ih =>
    cases ss with
    | nil => simp [joined]
    | cons t ss =>
      rw [joined, String.toList_append, String.toList_append, ih]
      simp

lemma joined_ne_empty {separator s : String} (hs : s ≠ "") (ss : List String) :
    joined separator (s :: ss) ≠ "" := by
  cases ss with
  | nil => exact hs
  | cons t ss =>
    intro hempty
    simp only [joined, String.append_eq_empty_iff] at hempty
    exact hs hempty.1.1

lemma items_joined {members : List String} (h : ∀ m ∈ members, m ≠ "" ∧ ',' ∉ m.toList) :
    items (joined "," members) = members := by
  cases members with
  | nil => rfl
  | cons m ms =>
    have hcommas : ∀ cs ∈ (m :: ms).map String.toList, ',' ∉ cs := by
      intro cs hcs
      obtain ⟨n, hn, rfl⟩ := List.mem_map.1 hcs
      exact (h n hn).2
    have hne : joined "," (m :: ms) ≠ "" := joined_ne_empty (h m List.mem_cons_self).1 ms
    rw [items, if_neg hne, toList_joined]
    change (List.splitOn ',' ([','].intercalate _)).map _ = _
    rw [List.splitOn_intercalate ',' hcommas (List.cons_ne_nil _ _), List.map_map]
    simp [Function.comp_def]

lemma comma_mem_joined (m n : String) (ms : List String) :
    ',' ∈ (joined "," (m :: n :: ms)).toList := by
  simp [joined]

end Text

/-- Whether the condition is true of the text in a choice column. -/
def Condition.HoldsOfMembers (text : String) : Condition → Prop
  | hasMember member => member ∈ Text.items text
  | severalMembers => ',' ∈ text.toList
  | isOneOf values => text ∈ values
  | isNoneOf values => text ∉ values
  | isNotNull => True
  | _ => False

namespace ColumnType

/-- Whether a choice column can hold these members, taken together. -/
def HoldsMembers : ColumnType → List String → Prop
  | choice .enum members _, chosen => ∃ m ∈ members, chosen = [m]
  | choice .set members _, chosen => chosen.Nodup ∧ ∀ m ∈ chosen, m ∈ members
  | _, _ => False

variable {catalog : Catalog} {k k' : ChoiceKind} {ms ms' chosen : List String} {e e' : Encoding}

lemma mem_of_holdsMembers (h : (choice k ms e).HoldsMembers chosen) : ∀ m ∈ chosen, m ∈ ms := by
  cases k with
  | enum =>
    obtain ⟨m, hm, rfl⟩ := h
    simpa using hm
  | set => exact h.2

lemma mem_removedMembers_iff {m : String} :
    m ∈ (choice k ms e).removedMembers (choice k' ms' e') ↔ m ∈ ms ∧ m ∉ ms' := by
  simp [removedMembers]

lemma holdsMembers_of_losslessTo (h : losslessTo catalog (choice k ms e) (choice k' ms' e') = true)
    (hv : (choice k ms e).HoldsMembers chosen) : (choice k' ms' e').HoldsMembers chosen := by
  by_cases hsame : choice k ms e = choice k' ms' e'
  · exact hsame ▸ hv
  have hkept := (Bool.or_eq_true_iff.1 h).resolve_left (by simpa using hsame)
  simp only [Bool.and_eq_true, List.all_eq_true, List.contains_iff_mem] at hkept
  obtain ⟨⟨hkinds, hmembers⟩, -⟩ := hkept
  cases k' with
  | enum =>
    cases k with
    | enum =>
      obtain ⟨m, hm, rfl⟩ := hv
      exact ⟨m, hmembers m hm, rfl⟩
    | set => cases hkinds
  | set =>
    refine ⟨?_, fun m hm => hmembers m (mem_of_holdsMembers hv m hm)⟩
    cases k with
    | enum =>
      obtain ⟨m, -, rfl⟩ := hv
      exact List.nodup_singleton m
    | set => exact hv.1

lemma exists_loss_of_not_holdsMembers (hplain : ∀ m ∈ ms, m ≠ "" ∧ ',' ∉ m.toList)
    (hv : (choice k ms e).HoldsMembers chosen) (hlost : ¬ (choice k' ms' e').HoldsMembers chosen)
    (hne : chosen ≠ []) :
    ∃ c ∈ (choice k ms e).losses (choice k' ms' e'), c.HoldsOfMembers (Text.joined "," chosen) := by
  have hitems : Text.items (Text.joined "," chosen) = chosen :=
    Text.items_joined fun m hm => hplain m (mem_of_holdsMembers hv m hm)
  cases k with
  | enum =>
    obtain ⟨m, hm, rfl⟩ := hv
    have hremoved : m ∈ (choice .enum ms e).removedMembers (choice k' ms' e') := by
      refine mem_removedMembers_iff.2 ⟨hm, fun hkept => hlost ?_⟩
      cases k' with
      | enum => exact ⟨m, hkept, rfl⟩
      | set => exact ⟨List.nodup_singleton m, by simpa using hkept⟩
    refine ⟨.isOneOf _, ?_, hremoved⟩
    rw [losses, memberLoss]
    simp only [List.isEmpty_iff, List.ne_nil_of_mem hremoved, if_false, List.mem_singleton]
  | set =>
    by_cases hkept : ∀ m ∈ chosen, m ∈ ms'
    · -- nothing is removed, so there are several members and room for one
      cases k' with
      | set => exact absurd ⟨hv.1, hkept⟩ hlost
      | enum =>
        refine ⟨.severalMembers, by simp [losses, memberLoss], ?_⟩
        rcases chosen with _ | ⟨m, _ | ⟨n, rest⟩⟩
        · exact absurd rfl hne
        · exact absurd ⟨m, hkept m List.mem_cons_self, rfl⟩ hlost
        · exact Text.comma_mem_joined m n rest
    · obtain ⟨m, hm, hgone⟩ : ∃ m ∈ chosen, m ∉ ms' := by simpa using hkept
      have hremoved : m ∈ (choice .set ms e).removedMembers (choice k' ms' e') :=
        mem_removedMembers_iff.2 ⟨hv.2 m hm, hgone⟩
      have hitem : m ∈ Text.items (Text.joined "," chosen) := by rwa [hitems]
      refine ⟨.hasMember m, ?_, hitem⟩
      rw [losses, memberLoss]
      exact List.mem_append_left _ (List.mem_map_of_mem hremoved)

lemma lost_nil_iff : ((choice k ms e).HoldsMembers [] ∧ ¬ (choice k' ms' e').HoldsMembers []) ↔
    k = .set ∧ k' = .enum := by
  cases k <;> cases k' <;> simp [HoldsMembers]

lemma not_exists_loss_nil :
    ¬ ∃ c ∈ (choice .set ms e).losses (choice .enum ms' e'), c.HoldsOfMembers "" := by
  rintro ⟨c, hc, hholds⟩
  rw [losses, memberLoss, if_pos rfl, List.mem_append, List.mem_map, List.mem_singleton] at hc
  rcases hc with ⟨m, -, rfl⟩ | rfl
  · cases hholds
  · cases hholds

end ColumnType

namespace Guard

section

variable {table : TableName} {catalog : Catalog} {before after : Column} {k k' : ChoiceKind}
  {ms ms' chosen : List String} {e e' : Encoding} {g : Guard}

lemma holdsMembers_of_keepsValues (hbefore : before.type = .choice k ms e)
    (hafter : after.type = .choice k' ms' e') (h : keepsValues catalog before after = true)
    (hv : before.type.HoldsMembers chosen) : after.type.HoldsMembers chosen := by
  have hlossless := (Bool.and_eq_true_iff.1 h).1
  rw [hbefore] at hv hlossless
  rw [hafter] at hlossless ⊢
  exact ColumnType.holdsMembers_of_losslessTo hlossless hv

/-- Of the choices that the new type does not have, that of no member is not counted. -/
lemma counts_members_iff (hbefore : before.type = .choice k ms e)
    (hafter : after.type = .choice k' ms' e') (hplain : ∀ m ∈ ms, m ≠ "" ∧ ',' ∉ m.toList)
    (hg : ofModifyColumn table catalog before after = some g) (hv : before.type.HoldsMembers chosen)
    (hlost : ¬ after.type.HoldsMembers chosen) :
    g.Counts (·.HoldsOfMembers (Text.joined "," chosen)) ↔ chosen ≠ [] := by
  have hendangered : keepsValues catalog before after = false := by
    by_contra hkept
    exact hlost (holdsMembers_of_keepsValues hbefore hafter (by simpa using hkept) hv)
  rw [counts_ofModifyColumn_iff hg id, and_iff_right hendangered]
  rw [hbefore] at hv ⊢
  rw [hafter] at hlost ⊢
  constructor
  · rintro hcounted rfl
    obtain ⟨rfl, rfl⟩ := ColumnType.lost_nil_iff.1 ⟨hv, hlost⟩
    rw [endangeredValues_eq (by simp [ColumnType.losses, ColumnType.memberLoss])] at hcounted
    exact ColumnType.not_exists_loss_nil hcounted
  · intro hne
    obtain ⟨c, hc, hholds⟩ := ColumnType.exists_loss_of_not_holdsMembers hplain hv hlost hne
    rw [endangeredValues_eq (List.ne_nil_of_mem hc)]
    exact ⟨c, hc, hholds⟩

end

/-- **What the guard of a choice column counts.** Without a guard, a change between choice types keeps
every choice of members. With one, of the choices that the new type does not have just that of no
member is not counted; so every such choice is counted exactly unless sets become single members. -/
theorem counts_lost_members_iff (table : TableName) (catalog : Catalog) {before after : Column}
    {k k' : ChoiceKind} {members members' : List String} {e e' : Encoding}
    (hbefore : before.type = .choice k members e) (hafter : after.type = .choice k' members' e')
    (hplain : ∀ m ∈ members, m ≠ "" ∧ ',' ∉ m.toList) :
    (ofModifyColumn table catalog before after = none →
      ∀ chosen, before.type.HoldsMembers chosen → after.type.HoldsMembers chosen) ∧
    ∀ g, ofModifyColumn table catalog before after = some g →
      (∀ chosen, before.type.HoldsMembers chosen → ¬ after.type.HoldsMembers chosen →
        (g.Counts (·.HoldsOfMembers (Text.joined "," chosen)) ↔ chosen ≠ [])) ∧
      ((∀ chosen, before.type.HoldsMembers chosen → ¬ after.type.HoldsMembers chosen →
        g.Counts (·.HoldsOfMembers (Text.joined "," chosen))) ↔ ¬ (k = .set ∧ k' = .enum)) := by
  refine ⟨fun hnone _ => holdsMembers_of_keepsValues hbefore hafter
    (keepsValues_of_ofModifyColumn_eq_none hnone), fun g hg => ?_⟩
  have hcounts (chosen : List String) (hv : before.type.HoldsMembers chosen)
      (hlost : ¬ after.type.HoldsMembers chosen) :=
    counts_members_iff hbefore hafter hplain hg hv hlost
  have hnil : before.type.HoldsMembers [] ∧ ¬ after.type.HoldsMembers [] ↔ k = .set ∧ k' = .enum := by
    rw [hbefore, hafter]
    exact ColumnType.lost_nil_iff
  refine ⟨hcounts, ?_⟩
  rw [← hnil]
  constructor
  · rintro hall ⟨hv, hlost⟩
    exact (hcounts [] hv hlost).1 (hall [] hv hlost) rfl
  · rintro hkinds chosen hv hlost
    refine (hcounts chosen hv hlost).2 ?_
    rintro rfl
    exact hkinds ⟨hv, hlost⟩

/-- A set with a member less, one that is taken from it among others. -/
theorem counts_lost_members_iff_removed :
    let before := Column.ofType "c" (.choice .set ["a", "b", "c"] .none)
    let after := Column.ofType "c" (.choice .set ["a", "b"] .none)
    (∀ m ∈ ["a", "b", "c"], m ≠ "" ∧ ',' ∉ m.toList) ∧
    ∃ g, ofModifyColumn ⟨none, "t"⟩ .builtin before after = some g ∧
      g.sql = "SELECT count(*) FROM t WHERE (FIND_IN_SET('c', c) > 0)" ∧
      before.type.HoldsMembers ["a", "c"] ∧ ¬ after.type.HoldsMembers ["a", "c"] ∧
      (g.Counts (·.HoldsOfMembers "a,c") ↔ ["a", "c"] ≠ []) := by
  intro before after
  have hplain : ∀ m ∈ ["a", "b", "c"], m ≠ "" ∧ ',' ∉ m.toList := by decide
  have hv : before.type.HoldsMembers ["a", "c"] := ⟨by decide, by decide⟩
  have hlost : ¬ after.type.HoldsMembers ["a", "c"] := fun h => absurd h.2 (by decide)
  obtain ⟨g, hg, hsql⟩ : ∃ g, ofModifyColumn ⟨none, "t"⟩ .builtin before after = some g ∧
      g.sql = "SELECT count(*) FROM t WHERE (FIND_IN_SET('c', c) > 0)" :=
    ⟨_, rfl, by decide +kernel⟩
  refine ⟨hplain, g, hg, hsql, hv, hlost, ?_⟩
  have hbefore : before.type = .choice .set ["a", "b", "c"] .none := rfl
  have hafter : after.type = .choice .set ["a", "b"] .none := rfl
  exact ((counts_lost_members_iff ⟨none, "t"⟩ .builtin hbefore hafter hplain).2 g hg).1 ["a", "c"] hv hlost

/-- The empty set is no single member, and is not counted. -/
theorem not_counts_empty_set :
    let before := Column.ofType "c" (.choice .set ["a", "b"] .none)
    let after := Column.ofType "c" (.choice .enum ["a", "b"] .none)
    ∃ g, ofModifyColumn ⟨none, "t"⟩ .builtin before after = some g ∧
      g.sql = "SELECT count(*) FROM t WHERE (c LIKE '%,%')" ∧
      before.type.HoldsMembers [] ∧ ¬ after.type.HoldsMembers [] ∧ Text.joined "," [] = "" ∧
      ¬ g.Counts (·.HoldsOfMembers "") := by
  intro before after
  obtain ⟨g, hg, hsql⟩ : ∃ g, ofModifyColumn ⟨none, "t"⟩ .builtin before after = some g ∧
      g.sql = "SELECT count(*) FROM t WHERE (c LIKE '%,%')" :=
    ⟨_, rfl, by decide +kernel⟩
  obtain ⟨hv, hlost⟩ : before.type.HoldsMembers [] ∧ ¬ after.type.HoldsMembers [] :=
    ColumnType.lost_nil_iff.2 ⟨rfl, rfl⟩
  refine ⟨g, hg, hsql, hv, hlost, rfl, fun hcounts => ?_⟩
  exact (counts_members_iff rfl rfl (by decide) hg hv hlost).1 hcounts rfl

end Guard

end SchemaDrift
