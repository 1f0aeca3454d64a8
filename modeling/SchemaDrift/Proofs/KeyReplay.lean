import Mathlib
import SchemaDrift.Proofs.TableRun

/-!
What the alterations of a table do to its keys. Keys of the live table that are not declared, or
declared otherwise, are dropped; then the declared ones that are missing are added. Nothing is
stuck, and the keys that are left are those that the declaration defines.
-/

namespace SchemaDrift

open Text (lower)

/-! ### Named keys -/

lemma KeyPart.same_self (p : KeyPart) : p.same p = true := by
  simp [KeyPart.same]

namespace Key

@[simp] lemma kind_withName (name : String) (k : Key) : (k.withName name).kind = k.kind := by
  unfold withName
  split <;> rfl

lemma sameDefinition_self (k : Key) : k.sameDefinition k = true := by
  have hparts : ∀ q ∈ k.parts.zip k.parts, q.1.same q.2 = true := by
    intro q hq
    obtain ⟨i, hi, rfl⟩ := List.mem_iff_getElem.1 hq
    simp [KeyPart.same_self]
  simpa [sameDefinition] using hparts

@[simp] lemma sameDefinition_withName_left (name : String) (a b : Key) :
    (a.withName name).sameDefinition b = a.sameDefinition b := by
  unfold withName
  split <;> rfl

@[simp] lemma sameDefinition_withName_right (name : String) (a b : Key) :
    a.sameDefinition (b.withName name) = a.sameDefinition b := by
  unfold withName
  split <;> rfl

/-- A key that can be found on a server: a primary one, or one with a name. -/
def IsNamed (k : Key) : Prop := k.kind = .primary ∨ k.name?.isSome

lemma isNamed_withName (name : String) (k : Key) : (k.withName name).IsNamed := by
  unfold withName IsNamed
  by_cases h : k.kind = .primary <;> simp [h]

lemma eq_primaryName_of_mem_named {taken : List String} {ks : List Key} {n : String} {k : Key}
    (h : (n, k) ∈ named taken ks) (hk : k.kind = .primary) : n = primaryName := by
  induction ks generalizing taken with
  | nil => cases h
  | cons k' ks ih =>
    rw [named] at h
    split at h
    · rcases List.mem_cons.1 h with he | h
      · exact (Prod.mk.inj he).1
      · exact ih h
    · rename_i hk'
      split at h
      all_goals
        rcases List.mem_cons.1 h with he | h
        · exact absurd ((Prod.mk.inj he).2 ▸ hk) hk'
        · exact ih h

lemma serverName_withName {taken : List String} {ks : List Key} {n : String} {k : Key}
    (h : (n, k) ∈ named taken ks) : (k.withName n).serverName = n := by
  by_cases hk : k.kind = .primary
  · rw [eq_primaryName_of_mem_named h hk]
    simp [serverName, hk]
  · simp [serverName, withName, hk]

lemma named_of_isNamed {taken : List String} {ks : List Key} (h : ∀ k ∈ ks, k.IsNamed) :
    named taken ks = ks.map fun k => (k.serverName, k) := by
  induction ks generalizing taken with
  | nil => rfl
  | cons k ks ih =>
    have hks : ∀ taken, named taken ks = ks.map fun k => (k.serverName, k) :=
      fun _ => ih fun k hk => h k (List.mem_cons_of_mem _ hk)
    rw [named, List.map_cons, serverName]
    by_cases hk : k.kind = .primary
    · simp [hk, hks]
    · obtain ⟨n, hn⟩ : ∃ n, k.name? = some n :=
        Option.isSome_iff_exists.1 ((h k List.mem_cons_self).resolve_left hk)
      simp [hk, hn, hks]

end Key

def keyNames (ks : List (String × Key)) : List String := ks.map fun k => lower k.1

namespace TablePair

lemma keyNamed?_eq_none_iff {name : String} {ks : List (String × Key)} :
    keyNamed? name ks = none ↔ lower name ∉ keyNames ks := by
  simp [keyNamed?, keyNames, Text.sameName_iff]

lemma keyNamed?_of_mem {ks : List (String × Key)} (hks : (keyNames ks).Nodup) {k : String × Key}
    (hk : k ∈ ks) {name : String} (hname : lower k.1 = lower name) :
    keyNamed? name ks = some (k.2.withName name) := by
  have hfound : (ks.reverse.find? fun k => Text.sameName k.1 name).isSome := by
    rw [List.find?_isSome]
    exact ⟨k, List.mem_reverse.2 hk, Text.sameName_iff.2 hname⟩
  obtain ⟨k', hk'⟩ := Option.isSome_iff_exists.1 hfound
  have hmem : k' ∈ ks := List.mem_reverse.1 (List.mem_of_find?_eq_some hk')
  have hname' : lower k'.1 = lower name := Text.sameName_iff.1 (by simpa using List.find?_some hk')
  have hkk : k' = k := List.inj_on_of_nodup_map hks hmem hk (hname'.trans hname.symm)
  rw [keyNamed?, hk', hkk]
  rfl

lemma exists_of_keyNamed? {name : String} {ks : List (String × Key)} {k : Key}
    (h : keyNamed? name ks = some k) :
    ∃ k' ∈ ks, lower k'.1 = lower name ∧ k = k'.2.withName name := by
  rw [keyNamed?, Option.map_eq_some_iff] at h
  obtain ⟨k', hk', rfl⟩ := h
  exact ⟨k', List.mem_reverse.1 (List.mem_of_find?_eq_some hk'),
    Text.sameName_iff.1 (by simpa using List.find?_some hk'), rfl⟩

/-! ### What becomes of one key -/

variable (p : TablePair)

/-- Whether a declared key is defined in the same way by the live table. -/
def keyKept (k : String × Key) : Bool :=
  (keyNamed? k.1 p.live.namedKeys).any fun l => l.sameDefinition k.2

lemma declaredKeyDrift?_eq (k : String × Key) :
    p.declaredKeyDrift? k =
      if p.keyKept k then none
      else some ⟨k.1, if (keyNamed? k.1 p.live.namedKeys).isSome then .modified else .added,
        ⟨keyNamed? k.1 p.live.namedKeys, some (k.2.withName k.1)⟩⟩ := by
  unfold declaredKeyDrift? keyKept
  rcases keyNamed? k.1 p.live.namedKeys with _ | l
  · simp [Sides.verdictBy]
  · rcases hs : l.sameDefinition k.2 with _ | _ <;> simp [Sides.verdictBy, hs]

/-- The live keys that nothing declares. -/
def droppedKeys : List (String × Key) :=
  p.live.namedKeys.filter fun k => !p.declared.namedKeys.any fun d => Text.sameName d.1 k.1

lemma filterMap_keyDrifts {β : Type} (f : KeyDrift → Option β) :
    p.keyDrifts.filterMap f =
      (p.declared.namedKeys.filterMap fun k => (p.declaredKeyDrift? k).bind f) ++
      p.droppedKeys.filterMap fun k => f ⟨k.1, .dropped, ⟨some (k.2.withName k.1), none⟩⟩ := by
  rw [keyDrifts, List.filterMap_append, List.filterMap_map, List.filterMap_filterMap]
  rfl

/-- The keys that are dropped, with their kinds: first those that are declared otherwise. -/
def keysToDrop : List (String × KeyKind) :=
  (p.declared.namedKeys.filterMap fun k =>
    if p.keyKept k then none
    else (keyNamed? k.1 p.live.namedKeys).map fun l => (k.1, l.kind)) ++
  p.droppedKeys.map fun k => (k.1, k.2.kind)

lemma keyDrops_eq :
    p.keyDrops.map (·.alteration) = p.keysToDrop.map fun d => .dropKey d.1 d.2 := by
  rw [keyDrops, filterMap_keyDrifts, keysToDrop, List.map_append, List.map_append,
    List.map_filterMap, List.map_filterMap, List.map_filterMap, List.map_map,
    ← List.filterMap_eq_map]
  congr 1
  · refine List.filterMap_congr fun k _ => ?_
    rw [declaredKeyDrift?_eq]
    split
    · rfl
    · rcases keyNamed? k.1 p.live.namedKeys with _ | l <;> rfl
  · refine List.filterMap_congr fun k _ => ?_
    simp [PlannedAlteration.harmless]

def keysToAdd : List (String × Key) :=
  (p.declared.namedKeys.filter fun k => !p.keyKept k).map fun k => (k.1, k.2.withName k.1)

lemma keyAdditions_eq :
    p.keyAdditions.map (·.alteration) = p.keysToAdd.map fun k => .addKey k.1 k.2 := by
  rw [keyAdditions, filterMap_keyDrifts, keysToAdd, List.map_map, List.map_append,
    List.map_filterMap, List.map_filterMap, ← List.filterMap_eq_map, ← List.filterMap_eq_filter,
    List.filterMap_filterMap]
  have hdropped (k : String × Key) : k ∈ p.droppedKeys → Option.map (·.alteration)
      (none : Option PlannedAlteration) = none := fun _ => rfl
  rw [List.filterMap_eq_nil_iff.2 hdropped, List.append_nil]
  refine List.filterMap_congr fun k _ => ?_
  rw [declaredKeyDrift?_eq]
  rcases hk : p.keyKept k with _ | _
  · rcases keyNamed? k.1 p.live.namedKeys with _ | l <;>
      simp [hk, Option.guard, PlannedAlteration.harmless]
  · simp [hk, Option.guard]

/-! ### Replaying drops and additions -/

def dropTarget (d : String × KeyKind) : String :=
  lower (if d.2 = .primary then Key.primaryName else d.1)

lemma foldlM_dropKey {ds : List (String × KeyKind)} {ks : List Key}
    (hnodup : (ds.map dropTarget).Nodup)
    (hmem : ∀ n ∈ ds.map dropTarget, n ∈ ks.map fun k => lower k.serverName) :
    (ds.map fun d => Alteration.dropKey d.1 d.2).foldlM (fun ks a => a.onKeys ks) ks =
      some (ks.filter fun k => lower k.serverName ∉ ds.map dropTarget) := by
  induction ds generalizing ks with
  | nil => simp
  | cons d ds ih =>
    rw [List.map_cons, List.nodup_cons] at hnodup
    have hstep : (Alteration.dropKey d.1 d.2).onKeys ks =
        some (ks.filter fun k => lower k.serverName ≠ dropTarget d) := by
      have hd : ks.any fun k => lower k.serverName = dropTarget d := by
        simpa using hmem _ List.mem_cons_self
      rw [Alteration.onKeys]
      exact if_pos hd
    rw [List.map_cons, List.foldlM_cons, hstep]
    refine (ih hnodup.2 fun n hn => ?_).trans ?_
    · have hne : n ≠ dropTarget d := fun he => hnodup.1 (he ▸ hn)
      have hn := hmem n (List.mem_cons_of_mem _ hn)
      simp only [List.mem_map, List.mem_filter] at hn ⊢
      obtain ⟨k, hk, rfl⟩ := hn
      exact ⟨k, ⟨hk, by simpa using hne⟩, rfl⟩
    · rw [List.filter_filter]
      congr 1
      refine List.filter_congr fun k _ => ?_
      rw [List.map_cons]
      simp [-List.mem_map, Bool.and_comm]

lemma foldlM_addKey {added : List (String × Key)} {ks : List Key}
    (hnodup : (added.map fun k => lower k.2.serverName).Nodup)
    (hnew : ∀ k ∈ added, lower k.2.serverName ∉ ks.map fun k => lower k.serverName) :
    (added.map fun k => Alteration.addKey k.1 k.2).foldlM (fun ks a => a.onKeys ks) ks =
      some (ks ++ added.map (·.2)) := by
  induction added generalizing ks with
  | nil => simp
  | cons k added ih =>
    rw [List.map_cons, List.nodup_cons] at hnodup
    have hstep : (Alteration.addKey k.1 k.2).onKeys ks = some (ks ++ [k.2]) := by
      have hk := hnew k List.mem_cons_self
      rw [Alteration.onKeys]
      refine if_neg fun hany => hk ?_
      simpa using hany
    rw [List.map_cons, List.foldlM_cons, hstep]
    refine (ih hnodup.2 fun k' hk' => ?_).trans (by simp)
    rw [List.map_append, List.mem_append, not_or]
    refine ⟨hnew k' (List.mem_cons_of_mem _ hk'), fun hm => hnodup.1 ?_⟩
    rw [List.map_singleton, List.mem_singleton] at hm
    exact hm ▸ List.mem_map_of_mem hk'

/-! ### The keys that are left -/

lemma map_filterMap_sublist {α β γ : Type} {f : α → Option β} {g : α → γ} {h : β → γ}
    (hf : ∀ a b, f a = some b → h b = g a) (l : List α) :
    ((l.filterMap f).map h).Sublist (l.map g) := by
  induction l with
  | nil => exact .slnil
  | cons a l ih =>
    rcases hfa : f a with _ | b
    · rw [List.filterMap_cons_none hfa]
      exact ih.cons _
    · rw [List.filterMap_cons_some hfa, List.map_cons, List.map_cons, hf a b hfa]
      exact ih.cons_cons _

section

variable {p} (hlive : (keyNames p.live.namedKeys).Nodup)
  (hdeclared : (keyNames p.declared.namedKeys).Nodup)

lemma map_dropTarget : p.keysToDrop.map dropTarget = p.keysToDrop.map fun d => lower d.1 := by
  refine List.map_congr_left fun d hd => ?_
  have hprimary {k : String × Key} (hk : k ∈ p.live.namedKeys) (hp : k.2.kind = .primary) :
      k.1 = Key.primaryName := Key.eq_primaryName_of_mem_named hk hp
  unfold dropTarget
  split
  · rename_i hp
    -- A primary key is dropped by its kind, and goes by the one name that primary keys have.
    rcases List.mem_append.1 hd with hd | hd
    · obtain ⟨k, -, hk⟩ := List.mem_filterMap.1 hd
      split at hk
      · cases hk
      · obtain ⟨l, hl, rfl⟩ := Option.map_eq_some_iff.1 hk
        obtain ⟨k', hk', hname, rfl⟩ := exists_of_keyNamed? hl
        rw [← hname, hprimary hk' (by simpa using hp)]
    · obtain ⟨k, hk, rfl⟩ := List.mem_map.1 hd
      rw [hprimary (List.mem_of_mem_filter hk) hp]
  · rfl

include hdeclared in
lemma mem_keysToDrop_iff {n : String} : n ∈ p.keysToDrop.map (fun d => lower d.1) ↔
    n ∈ keyNames p.live.namedKeys ∧
      ∀ k ∈ p.declared.namedKeys, lower k.1 = n → p.keyKept k = false := by
  rw [keysToDrop, List.map_append, List.mem_append, List.map_filterMap, List.map_map]
  constructor
  · rintro (h | h)
    · obtain ⟨k, hk, hn⟩ := List.mem_filterMap.1 h
      split at hn
      · cases hn
      · rename_i hkept
        obtain ⟨d, hd, rfl⟩ := Option.map_eq_some_iff.1 hn
        obtain ⟨l, hl, rfl⟩ := Option.map_eq_some_iff.1 hd
        refine ⟨?_, fun k' hk' he => ?_⟩
        · by_contra hmem
          rw [keyNamed?_eq_none_iff.2 hmem] at hl
          cases hl
        · rw [List.inj_on_of_nodup_map hdeclared hk' hk he]
          simpa using hkept
    · obtain ⟨k, hk, rfl⟩ := List.mem_map.1 h
      obtain ⟨hk, hnone⟩ := List.mem_filter.1 hk
      refine ⟨List.mem_map_of_mem hk, fun k' hk' he => ?_⟩
      simp only [Bool.not_eq_true', List.any_eq_false] at hnone
      exact absurd (Text.sameName_iff.2 he) (hnone k' hk')
  · -- A live key goes because it is declared otherwise, or because it is not declared.
    rintro ⟨hl, hkept⟩
    by_cases hd : ∃ k ∈ p.declared.namedKeys, lower k.1 = n
    · obtain ⟨k, hk, rfl⟩ := hd
      refine .inl (List.mem_filterMap.2 ⟨k, hk, ?_⟩)
      rcases hnamed : keyNamed? k.1 p.live.namedKeys with _ | l
      · exact absurd hl (keyNamed?_eq_none_iff.1 hnamed)
      · simp [hkept k hk rfl]
    · obtain ⟨k, hk, rfl⟩ := List.mem_map.1 hl
      refine .inr (List.mem_map.2 ⟨k, List.mem_filter.2 ⟨hk, ?_⟩, rfl⟩)
      simp only [Bool.not_eq_true', List.any_eq_false, Text.sameName_iff]
      exact fun k' hk' he => hd ⟨k', hk', he⟩

include hlive hdeclared in
lemma nodup_keysToDrop : (p.keysToDrop.map fun d => lower d.1).Nodup := by
  rw [keysToDrop, List.map_append, List.nodup_append]
  refine ⟨hdeclared.sublist (map_filterMap_sublist (fun k d hd => ?_) _), ?_, ?_⟩
  · split at hd
    · cases hd
    · obtain ⟨l, -, rfl⟩ := Option.map_eq_some_iff.1 hd
      rfl
  · rw [List.map_map]
    exact hlive.sublist (List.filter_sublist.map _)
  · rintro n hn m hm rfl
    obtain ⟨d, hd, rfl⟩ := List.mem_map.1 hn
    obtain ⟨k, hk, hkd⟩ := List.mem_filterMap.1 hd
    rw [List.map_map] at hm
    obtain ⟨k', hk', he⟩ := List.mem_map.1 hm
    obtain ⟨-, hnone⟩ := List.mem_filter.1 hk'
    simp only [Bool.not_eq_true', List.any_eq_false] at hnone
    split at hkd
    · cases hkd
    · obtain ⟨l, -, rfl⟩ := Option.map_eq_some_iff.1 hkd
      exact hnone k hk (Text.sameName_iff.2 he.symm)

def keysAfter (p : TablePair) : List Key :=
  (p.live.onServer p.catalog).keys.filter
      (fun k => lower k.serverName ∉ p.keysToDrop.map fun d => lower d.1) ++
    p.keysToAdd.map (·.2)

lemma map_serverName_onServer : ((p.live.onServer p.catalog).keys.map fun k => lower k.serverName) =
    keyNames p.live.namedKeys := by
  simp only [Table.onServer, List.map_map, keyNames]
  refine List.map_congr_left fun k hk => ?_
  simp [Key.serverName_withName (show (k.1, k.2) ∈ _ from hk)]

lemma map_serverName_keysToAdd : (p.keysToAdd.map fun k => lower k.2.serverName) =
    keyNames (p.declared.namedKeys.filter fun k => !p.keyKept k) := by
  simp only [keysToAdd, List.map_map, keyNames]
  refine List.map_congr_left fun k hk => ?_
  simp [Key.serverName_withName (show (k.1, k.2) ∈ _ from List.mem_of_mem_filter hk)]

include hdeclared in
/-- A key that is added has a new name: the live key of that name has been dropped. -/
lemma notMem_of_added {n : String}
    (h : n ∈ keyNames (p.declared.namedKeys.filter fun k => !p.keyKept k)) :
    n ∉ ((p.live.onServer p.catalog).keys.filter
      (fun k => lower k.serverName ∉ p.keysToDrop.map fun d => lower d.1)).map
        fun k => lower k.serverName := by
  intro hm
  obtain ⟨l, hl, hln⟩ := List.mem_map.1 hm
  obtain ⟨hl, hkeep⟩ := List.mem_filter.1 hl
  obtain ⟨k, hk, rfl⟩ := List.mem_map.1 h
  obtain ⟨hk, hkept⟩ := List.mem_filter.1 hk
  have hlive : lower l.serverName ∈ keyNames p.live.namedKeys := by
    rw [← map_serverName_onServer]
    exact List.mem_map_of_mem hl
  simp only [decide_eq_true_eq] at hkeep
  refine hkeep ((mem_keysToDrop_iff hdeclared).2 ⟨hlive, fun k' hk' he => ?_⟩)
  rw [List.inj_on_of_nodup_map hdeclared hk' hk (he.trans hln)]
  simpa using hkept

include hlive hdeclared in
lemma foldlM_keys :
    (p.keyDrops.map (·.alteration)).foldlM (fun ks a => a.onKeys ks)
        (p.live.onServer p.catalog).keys =
      some ((p.live.onServer p.catalog).keys.filter fun k =>
        lower k.serverName ∉ p.keysToDrop.map fun d => lower d.1) ∧
    (p.keyAdditions.map (·.alteration)).foldlM (fun ks a => a.onKeys ks)
        ((p.live.onServer p.catalog).keys.filter fun k =>
          lower k.serverName ∉ p.keysToDrop.map fun d => lower d.1) = some p.keysAfter := by
  rw [keyDrops_eq, keyAdditions_eq, ← map_dropTarget]
  refine ⟨foldlM_dropKey ?_ fun n hn => ?_, ?_⟩
  · rw [map_dropTarget]
    exact nodup_keysToDrop hlive hdeclared
  · rw [map_dropTarget] at hn
    rw [map_serverName_onServer]
    exact ((mem_keysToDrop_iff hdeclared).1 hn).1
  · rw [map_dropTarget]
    refine foldlM_addKey ?_ fun k hk => ?_
    · rw [map_serverName_keysToAdd]
      exact hdeclared.sublist (List.filter_sublist.map _)
    · refine notMem_of_added hdeclared ?_
      rw [← map_serverName_keysToAdd]
      exact List.mem_map_of_mem hk

/-! ### Convergence of keys -/

lemma isNamed_of_mem_keysAfter {k : Key} (h : k ∈ p.keysAfter) : k.IsNamed := by
  rcases List.mem_append.1 h with h | h
  · obtain ⟨k', -, rfl⟩ := List.mem_map.1 (List.mem_of_mem_filter h)
    exact Key.isNamed_withName ..
  · obtain ⟨k', hk', rfl⟩ := List.mem_map.1 h
    obtain ⟨k'', -, rfl⟩ := List.mem_map.1 hk'
    exact Key.isNamed_withName ..

include hlive hdeclared in
lemma nodup_keysAfter : (p.keysAfter.map fun k => lower k.serverName).Nodup := by
  have hadd : ((p.keysToAdd.map (·.2)).map fun k => lower k.serverName) =
      keyNames (p.declared.namedKeys.filter fun k => !p.keyKept k) := by
    rw [List.map_map]
    exact map_serverName_keysToAdd
  rw [keysAfter, List.map_append, hadd, List.nodup_append]
  refine ⟨?_, hdeclared.sublist (List.filter_sublist.map _), ?_⟩
  · refine List.Nodup.sublist (List.filter_sublist.map _) ?_
    rw [map_serverName_onServer]
    exact hlive
  · rintro n hn m hm rfl
    exact notMem_of_added hdeclared hm hn

include hdeclared in
lemma exists_mem_keysAfter {k : String × Key} (hk : k ∈ p.declared.namedKeys) :
    ∃ k' ∈ p.keysAfter, lower k'.serverName = lower k.1 ∧ k'.sameDefinition k.2 = true := by
  rcases hkept : p.keyKept k with _ | _
  · refine ⟨k.2.withName k.1, List.mem_append_right _ ?_, ?_, ?_⟩
    · have hadd : k ∈ p.declared.namedKeys.filter fun k => !p.keyKept k :=
        List.mem_filter.2 ⟨hk, by simp [hkept]⟩
      exact List.mem_map.2 ⟨_, List.mem_map.2 ⟨k, hadd, rfl⟩, rfl⟩
    · rw [Key.serverName_withName (show (k.1, k.2) ∈ _ from hk)]
    · simp [Key.sameDefinition_self]
  · obtain ⟨l, hl, hsame⟩ : ∃ l, keyNamed? k.1 p.live.namedKeys = some l ∧
        l.sameDefinition k.2 = true := by
      simpa [keyKept, Option.any_eq_true] using hkept
    obtain ⟨k', hk', hname, rfl⟩ := exists_of_keyNamed? hl
    have hserver : (k'.2.withName k'.1).serverName = k'.1 :=
      Key.serverName_withName (show (k'.1, k'.2) ∈ _ from hk')
    refine ⟨k'.2.withName k'.1, List.mem_append_left _ (List.mem_filter.2 ⟨?_, ?_⟩), ?_, ?_⟩
    · exact List.mem_map_of_mem hk'
    · rw [decide_eq_true_eq, mem_keysToDrop_iff hdeclared, hserver, hname]
      intro hdrop
      rw [hdrop.2 k hk rfl] at hkept
      cases hkept
    · rw [hserver, hname]
    · simpa using hsame

include hdeclared in
lemma mem_keyNames_of_mem_keysAfter {k : Key} (h : k ∈ p.keysAfter) :
    lower k.serverName ∈ keyNames p.declared.namedKeys := by
  rcases List.mem_append.1 h with h | h
  · obtain ⟨hk, hkeep⟩ := List.mem_filter.1 h
    have hl : lower k.serverName ∈ keyNames p.live.namedKeys := by
      rw [← map_serverName_onServer]
      exact List.mem_map_of_mem hk
    by_contra hn
    rw [decide_eq_true_eq, mem_keysToDrop_iff hdeclared] at hkeep
    exact hkeep ⟨hl, fun k' hk' he => absurd (List.mem_map.2 ⟨k', hk', he⟩) hn⟩
  · obtain ⟨k', hk', rfl⟩ := List.mem_map.1 h
    have hm : lower k'.2.serverName ∈ p.keysToAdd.map fun k => lower k.2.serverName :=
      List.mem_map_of_mem hk'
    rw [map_serverName_keysToAdd] at hm
    exact (List.filter_sublist.map _).subset hm

include hlive hdeclared in
theorem keyDrifts_after {after : Table} (hkeys : after.keys = p.keysAfter) (catalog : Catalog) :
    (⟨after, p.declared, catalog⟩ : TablePair).keyDrifts = [] := by
  have hnamed : after.namedKeys = p.keysAfter.map fun k => (k.serverName, k) := by
    rw [Table.namedKeys, hkeys]
    exact Key.named_of_isNamed fun k hk => isNamed_of_mem_keysAfter hk
  have hnames : keyNames after.namedKeys = p.keysAfter.map fun k => lower k.serverName := by
    rw [hnamed, keyNames, List.map_map]
    rfl
  rw [keyDrifts, List.append_eq_nil_iff]
  refine ⟨List.filterMap_eq_nil_iff.2 fun k hk => ?_, ?_⟩
  · obtain ⟨k', hk', hname, hsame⟩ := exists_mem_keysAfter hdeclared hk
    have hfound : keyNamed? k.1 after.namedKeys = some (k'.withName k.1) :=
      keyNamed?_of_mem (hnames ▸ nodup_keysAfter hlive hdeclared)
        (hnamed ▸ List.mem_map_of_mem hk' : (k'.serverName, k') ∈ after.namedKeys) hname
    rw [declaredKeyDrift?_eq]
    simp [keyKept, hfound, hsame]
  · rw [List.map_eq_nil_iff, List.filter_eq_nil_iff]
    intro k hk
    rw [hnamed] at hk
    obtain ⟨k', hk', rfl⟩ := List.mem_map.1 hk
    obtain ⟨d, hd, he⟩ := List.mem_map.1 (mem_keyNames_of_mem_keysAfter hdeclared hk')
    simp only [Bool.not_eq_true', Bool.not_eq_false, List.any_eq_true]
    exact ⟨d, hd, Text.sameName_iff.2 he⟩

end

end TablePair

end SchemaDrift
