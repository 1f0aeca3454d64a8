import Mathlib
import SchemaDrift.Ordered.Map
import SchemaDrift.Ordered.Set

/-!
Ordered maps and sets through what they hold. A map is determined by its lookups and a set by its
members, so later modules reason about these and not about the order of entries.
-/

namespace SchemaDrift

lemma ne_of_compare_lt {κ : Type} [Ord κ] [Std.ReflOrd κ] {a b : κ} (h : compare a b = .lt) :
    a ≠ b := by
  rintro rfl
  simp at h

namespace OrderedMap

variable {κ β γ : Type} [Ord κ]

variable [Std.LawfulEqOrd κ]

lemma get?_eq_some_iff {m : OrderedMap κ β} {k : κ} {v : β} :
    m.get? k = some v ↔ (k, v) ∈ m.entries := by
  obtain ⟨es, h⟩ := m
  simp only [get?]
  induction es with
  | nil => simp
  | cons e rest ih =>
    rw [List.pairwise_cons] at h
    by_cases hk : compare e.1 k = .eq
    · have hek : e.1 = k := Std.LawfulEqCmp.eq_of_compare hk
      subst hek
      have hn : (e.1, v) ∉ rest := by
        intro hm
        exact ne_of_compare_lt (h.1 _ hm) rfl
      obtain ⟨a, b⟩ := e
      simp only [List.mem_cons, hn, or_false, Prod.mk.injEq, true_and] at hn ⊢
      simp [eq_comm]
    · have hek : (k, v) ≠ e := by
        rintro rfl
        exact hk Std.ReflCmp.compare_self
      simpa [hk, hek] using ih h.2

lemma get?_cons (k k' : κ) (v : β) (rest : List (κ × β))
    (h : ((k, v) :: rest).Pairwise fun a b => compare a.1 b.1 = .lt) [Decidable (k' = k)] :
    (⟨(k, v) :: rest, h⟩ : OrderedMap κ β).get? k' =
      if k' = k then some v else (⟨rest, h.of_cons⟩ : OrderedMap κ β).get? k' := by
  split
  · rename_i hk
    simp [get?, hk, Std.ReflCmp.compare_self]
  · rename_i hk
    have hne : compare k k' ≠ .eq := fun he => hk (Std.LawfulEqCmp.eq_of_compare he).symm
    simp [get?, hne]

lemma get?_tail_head {k : κ} {v : β} {rest : List (κ × β)}
    (h : ((k, v) :: rest).Pairwise fun a b => compare a.1 b.1 = .lt) :
    (⟨rest, h.of_cons⟩ : OrderedMap κ β).get? k = none := by
  rw [Option.eq_none_iff_forall_ne_some]
  intro w hw
  exact ne_of_compare_lt (List.rel_of_pairwise_cons h (get?_eq_some_iff.1 hw)) rfl

lemma mem_keys_iff {m : OrderedMap κ β} {k : κ} : k ∈ m.keys ↔ (m.get? k).isSome := by
  simp only [keys, List.mem_map, Option.isSome_iff_exists, get?_eq_some_iff]
  constructor
  · rintro ⟨⟨a, v⟩, h, rfl⟩
    exact ⟨v, h⟩
  · rintro ⟨v, h⟩
    exact ⟨(k, v), h, rfl⟩

lemma nodup_keys (m : OrderedMap κ β) : m.keys.Nodup :=
  List.pairwise_map.2 (m.increasing.imp ne_of_compare_lt)

lemma get?_filterMap (m : OrderedMap κ β) (f : κ → β → Option γ) (k : κ) :
    (m.filterMap f).get? k = (m.get? k).bind (f k) := by
  ext c
  rw [get?_eq_some_iff, Option.bind_eq_some_iff]
  simp only [filterMap, List.mem_filterMap, Option.map_eq_some_iff, get?_eq_some_iff]
  constructor
  · rintro ⟨⟨a, v⟩, hm, d, hd, he⟩
    obtain ⟨rfl, rfl⟩ := Prod.mk.inj he
    exact ⟨v, hm, hd⟩
  · rintro ⟨v, hm, hv⟩
    exact ⟨(k, v), hm, c, hv, rfl⟩

lemma get?_filter (m : OrderedMap κ β) (p : κ → β → Bool) (k : κ) :
    (m.filter p).get? k = (m.get? k).filter (p k) := by
  ext v
  rw [get?_eq_some_iff, Option.filter_eq_some_iff, get?_eq_some_iff]
  simp [filter]

lemma get?_erase (m : OrderedMap κ β) (k k' : κ) [Decidable (k' = k)] :
    (m.erase k).get? k' = if k' = k then none else m.get? k' := by
  rw [erase, get?_filter]
  split
  · rename_i h
    subst h
    rcases m.get? k' <;> simp [Option.filter, Std.ReflCmp.compare_self]
  · rename_i h
    have hne : compare k' k ≠ .eq := fun he => h (Std.LawfulEqCmp.eq_of_compare he)
    rcases m.get? k' <;> simp [Option.filter, hne]

variable [Std.TransOrd κ]

lemma ext_get? {m n : OrderedMap κ β} (h : ∀ k, m.get? k = n.get? k) : m = n := by
  obtain ⟨es, he⟩ := m
  obtain ⟨fs, hf⟩ := n
  have hirr (a b : κ × β) (hab : compare a.1 b.1 = .lt) : a ≠ b := fun he =>
    ne_of_compare_lt hab (congrArg Prod.fst he)
  have hperm : es.Perm fs := by
    refine (List.perm_ext_iff_of_nodup (he.imp (hirr _ _)) (hf.imp (hirr _ _))).2 fun e => ?_
    have hk := h e.1
    rw [Option.ext_iff] at hk
    have he := hk e.2
    rwa [get?_eq_some_iff, get?_eq_some_iff] at he
  congr
  refine hperm.eq_of_pairwise (fun a b _ _ hab hba => ?_) he hf
  rw [Std.OrientedCmp.gt_of_lt hba] at hab
  contradiction

lemma get?_alter_of_ne {m : OrderedMap κ β} {k k' : κ} (f : Option β → β) (hk : k' ≠ k) :
    (m.alter k f).get? k' = m.get? k' := by
  have hmem (es : List (κ × β)) (v : β) : (k', v) ∈ alterEntries k f es ↔ (k', v) ∈ es := by
    induction es with
    | nil => simp [alterEntries, hk]
    | cons e rest ih =>
      rw [alterEntries]
      split
      · simp [hk]
      · rename_i heq
        have hek : k = e.1 := Std.LawfulEqCmp.eq_of_compare heq
        have h1 : (k', v) ≠ (e.1, f (some e.2)) := by simp [← hek, hk]
        have h2 : (k', v) ≠ e := by rintro rfl; exact hk hek.symm
        simp [h1, h2]
      · simp [ih]
  ext v
  rw [get?_eq_some_iff, get?_eq_some_iff]
  exact hmem m.entries v

lemma get?_alter (m : OrderedMap κ β) (k k' : κ) (f : Option β → β) [Decidable (k' = k)] :
    (m.alter k f).get? k' = if k' = k then some (f (m.get? k)) else m.get? k' := by
  split
  · rename_i h
    rw [h, get?_alter_self]
  · rename_i h
    exact get?_alter_of_ne f h

lemma get?_insert (m : OrderedMap κ β) (k k' : κ) (v : β) [Decidable (k' = k)] :
    (m.insert k v).get? k' = if k' = k then some v else m.get? k' := get?_alter m k k' _

lemma alter_comm (m : OrderedMap κ β) {k k' : κ} {f f' : Option β → β}
    (h : k = k' → ∀ old?, f' (some (f old?)) = f (some (f' old?))) :
    (m.alter k f).alter k' f' = (m.alter k' f').alter k f := by
  classical
  refine ext_get? fun a => ?_
  simp only [get?_alter]
  by_cases hk : k = k'
  · subst hk
    by_cases ha : a = k
    · simp [ha, h rfl]
    · simp [ha]
  · by_cases ha : a = k'
    · simp [ha, Ne.symm hk]
    · simp [ha, hk]

end OrderedMap

namespace OrderedSet

variable {α : Type} [Ord α] [Std.LawfulEqOrd α]

lemma contains_iff {s : OrderedSet α} {x : α} : s.contains x = true ↔ x ∈ s.toList := by
  simp only [contains, List.any_eq_true, beq_iff_eq]
  constructor
  · rintro ⟨y, hy, he⟩
    rwa [← (Std.LawfulEqCmp.eq_of_compare he : y = x)]
  · intro h
    exact ⟨x, h, Std.ReflCmp.compare_self⟩

@[simp] lemma mem_inter {s t : OrderedSet α} {z : α} :
    z ∈ (s.inter t).toList ↔ z ∈ s.toList ∧ z ∈ t.toList := by
  simp [inter, filter, contains_iff]

@[simp] lemma mem_diff {s t : OrderedSet α} {z : α} :
    z ∈ (s.diff t).toList ↔ z ∈ s.toList ∧ z ∉ t.toList := by
  simp [diff, filter, ← contains_iff]

lemma subset_iff {s t : OrderedSet α} : s.subset t = true ↔ ∀ z ∈ s.toList, z ∈ t.toList := by
  simp [subset, contains_iff]

lemma mem_insertSorted {x z : α} {l : List α} : z ∈ insertSorted x l ↔ z = x ∨ z ∈ l := by
  refine ⟨mem_of_mem_insertSorted, fun h => ?_⟩
  induction l with
  | nil => simpa [insertSorted] using h
  | cons y rest ih =>
    rw [insertSorted]
    split
    · simpa using h
    · rename_i heq
      rcases h with rfl | h
      · rw [(Std.LawfulEqCmp.eq_of_compare heq : z = y)]
        exact List.mem_cons_self
      · exact h
    · rcases h with rfl | h
      · exact List.mem_cons_of_mem _ (ih (.inl rfl))
      · rcases List.mem_cons.1 h with rfl | h
        · exact List.mem_cons_self
        · exact List.mem_cons_of_mem _ (ih (.inr h))

variable [Std.TransOrd α]

@[simp] lemma mem_insert {s : OrderedSet α} {x z : α} :
    z ∈ (s.insert x).toList ↔ z = x ∨ z ∈ s.toList := mem_insertSorted

lemma contains_insert {s : OrderedSet α} {x z : α} [Decidable (z = x)] :
    (s.insert x).contains z = (decide (z = x) || s.contains z) := by
  rw [Bool.eq_iff_iff, contains_iff, mem_insert, Bool.or_eq_true, contains_iff, decide_eq_true_eq]

lemma mem_foldl_insert {s : OrderedSet α} {l : List α} {z : α} :
    z ∈ (l.foldl insert s).toList ↔ z ∈ s.toList ∨ z ∈ l := by
  induction l generalizing s with
  | nil => simp
  | cons x rest ih =>
    rw [List.foldl_cons, ih, mem_insert, List.mem_cons]
    tauto

@[simp] lemma mem_union {s t : OrderedSet α} {z : α} :
    z ∈ (s.union t).toList ↔ z ∈ s.toList ∨ z ∈ t.toList := mem_foldl_insert

@[simp] lemma mem_ofList {l : List α} {z : α} : z ∈ (ofList l).toList ↔ z ∈ l := by
  simp [ofList, mem_foldl_insert, empty]

lemma ext_mem {s t : OrderedSet α} (h : ∀ z, z ∈ s.toList ↔ z ∈ t.toList) : s = t := by
  obtain ⟨l, hl⟩ := s
  obtain ⟨m, hm⟩ := t
  have hperm : l.Perm m :=
    (List.perm_ext_iff_of_nodup (hl.imp ne_of_compare_lt) (hm.imp ne_of_compare_lt)).2 h
  congr
  refine hperm.eq_of_pairwise (fun a b _ _ hab hba => ?_) hl hm
  rw [Std.OrientedCmp.gt_of_lt hba] at hab
  contradiction

end OrderedSet

end SchemaDrift
