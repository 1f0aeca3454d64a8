import Mathlib
import SchemaDrift.Proofs.KeyReplay

/-!
The names by which a server knows keys. A key without a name takes the first candidate that is not
in use: as an own name of some key, or as a name that was given before. There is always one, and no
two keys besides the primary one get the same name. The name of the primary key is not in use, so
that another key may get it as well.
-/

namespace SchemaDrift

open Text (lower)

namespace Text

lemma lower_append (a b : String) : lower (a ++ b) = lower a ++ lower b := by
  simp [lower]

lemma decimal_injective : Function.Injective decimal := by
  intro m n h
  have hdigits : Nat.toDigits 10 m = Nat.toDigits 10 n := by
    simpa [decimal] using congrArg String.toList h
  rw [← Nat.ofDigitChars_ten_toDigits (n := m), hdigits, Nat.ofDigitChars_ten_toDigits]

lemma lower_decimal (n : Nat) : lower (decimal n) = decimal n := by
  have hdigits : (Nat.toDigits 10 n).map Char.toLower = Nat.toDigits 10 n := by
    refine (List.map_congr_left fun c hc => ?_).trans (List.map_id' _)
    have hdigit := Nat.isDigit_of_mem_toDigits (by decide) (by decide) hc
    exact Char.toLower_eq_of_not_isUpper (by grind [Char.isDigit, Char.isUpper])
  rw [lower, decimal, String.toList_ofList, hdigits]

end Text

namespace Key

/-! ### Candidates -/

lemma lower_candidate {base base' : String} (h : lower base' = lower base) (n : Nat) :
    lower (candidate base' n) = lower (candidate base n) := by
  cases n with
  | zero => exact h
  | succ n => simp only [candidate, Text.lower_append, h]

lemma lower_candidate_injective (base : String) :
    Function.Injective fun n => lower (candidate base n) := by
  -- The base alone is shorter than the base with a number.
  have hlonger (n : Nat) : lower base ≠ lower (candidate base (n + 1)) := by
    intro h
    have hlength := congrArg (fun name => name.toList.length) h
    simp [candidate, lower] at hlength
  intro m n h
  cases m with
  | zero =>
    cases n with
    | zero => rfl
    | succ n => exact absurd h (hlonger n)
  | succ m =>
    cases n with
    | zero => exact absurd h.symm (hlonger m)
    | succ n =>
      simp only [candidate, Text.lower_append, Text.lower_decimal] at h
      have hlist := congrArg String.toList h
      simp only [String.toList_append] at hlist
      have hdecimal := String.toList_injective (List.append_cancel_left hlist)
      have hsame := Text.decimal_injective hdecimal
      omega

/-! ### The first free candidate -/

lemma exists_firstFree (taken : List String) (base : String) (tries n : Nat) :
    ∃ i ≤ tries, firstFree taken base tries n = candidate base (n + i) ∧
      (∀ j < i, lower (candidate base (n + j)) ∈ taken) ∧
      (i < tries → lower (candidate base (n + i)) ∉ taken) := by
  induction tries generalizing n with
  | zero => exact ⟨0, le_rfl, rfl, by simp, by simp⟩
  | succ tries ih =>
    rw [firstFree]
    by_cases htaken : lower (candidate base n) ∈ taken
    · obtain ⟨i, hi, heq, hearlier, hfree⟩ := ih (n + 1)
      have hshift (j : Nat) : n + 1 + j = n + (j + 1) := by omega
      rw [if_pos (List.contains_iff_mem.2 htaken)]
      refine ⟨i + 1, by omega, by rw [heq, hshift], fun j hj => ?_, fun hlt => ?_⟩
      · cases j with
        | zero => exact htaken
        | succ j => exact hshift j ▸ hearlier j (by omega)
      · exact hshift i ▸ hfree (by omega)
    · rw [if_neg (mt List.contains_iff_mem.1 htaken)]
      exact ⟨0, by omega, rfl, by simp, fun _ => htaken⟩

/-- The candidates are all different: one more than there are taken names cannot all be taken. -/
lemma le_length_of_candidates_taken {taken : List String} {base : String} {n : Nat}
    (h : ∀ j < n, lower (candidate base j) ∈ taken) : n ≤ taken.length := by
  have hnodup : ((List.range n).map fun j => lower (candidate base j)).Nodup :=
    List.nodup_range.map (lower_candidate_injective base)
  have hsubset : (List.range n).map (fun j => lower (candidate base j)) ⊆ taken := by
    intro x hx
    obtain ⟨j, hj, rfl⟩ := List.mem_map.1 hx
    exact h j (List.mem_range.1 hj)
  simpa using (List.subperm_of_subset hnodup hsubset).length_le

/-- What the numbered names of an unnamed key start with. -/
def baseName (k : Key) : String :=
  match k.parts with
  | [] => "key"
  | q :: _ => q.name

lemma freshName_spec (taken : List String) (k : Key) :
    ∃ i, freshName taken k = candidate k.baseName i ∧
      lower (candidate k.baseName i) ∉ taken ∧
      ∀ j < i, lower (candidate k.baseName j) ∈ taken := by
  obtain ⟨i, hi, heq, hearlier, hfree⟩ := exists_firstFree taken k.baseName taken.length 0
  simp only [Nat.zero_add] at heq hearlier hfree
  refine ⟨i, heq, ?_, hearlier⟩
  rcases hi.lt_or_eq with hlt | rfl
  · exact hfree hlt
  · -- All candidates that were tried are taken: with the last one they would be too many.
    intro htaken
    have hall : ∀ j < taken.length + 1, lower (candidate k.baseName j) ∈ taken := by
      intro j hj
      rcases (Nat.lt_succ_iff.1 hj).lt_or_eq with hlt | rfl
      · exact hearlier j hlt
      · exact htaken
    have hlength := le_length_of_candidates_taken hall
    omega

lemma freshName_notMem (taken : List String) (k : Key) : lower (freshName taken k) ∉ taken := by
  obtain ⟨i, hname, hfree, -⟩ := freshName_spec taken k
  rw [hname]
  exact hfree

/-! ### All names -/

lemma ownNames_cons (k : Key) (ks : List Key) : ownNames (k :: ks) =
    (if k.kind = .primary then none else k.name?.map lower).toList ++ ownNames ks := by
  by_cases hk : k.kind = .primary
  · simp [ownNames, hk]
  · rcases hn : k.name? with _ | n <;> simp [ownNames, hk, hn]

lemma named_cons (taken : List String) (k : Key) (ks : List Key) : named taken (k :: ks) =
    if k.kind = .primary then (primaryName, k) :: named taken ks
    else (k.name?.getD (freshName taken k), k) ::
      named (if k.name?.isSome then taken else lower (freshName taken k) :: taken) ks := by
  rw [named]
  split
  · rfl
  · rcases k.name? <;> rfl

lemma map_snd_named (taken : List String) (ks : List Key) :
    (named taken ks).map (·.2) = ks := by
  induction ks generalizing taken with
  | nil => rfl
  | cons k ks ih =>
    rw [named_cons]
    split
    · rw [List.map_cons, ih]
    · rw [List.map_cons, ih]

lemma exists_mem_named {k : Key} {ks : List Key} (h : k ∈ ks) (taken : List String) :
    ∃ n, (n, k) ∈ named taken ks := by
  rw [← map_snd_named taken ks] at h
  obtain ⟨⟨n, k'⟩, hmem, rfl⟩ := List.mem_map.1 h
  exact ⟨n, hmem⟩

lemma name_of_mem_named {taken : List String} {ks : List Key} {k : String × Key}
    (h : k ∈ named taken ks) (hk : k.2.kind ≠ .primary) {n : String} (hn : k.2.name? = some n) :
    k.1 = n := by
  induction ks generalizing taken with
  | nil => cases h
  | cons k' ks ih =>
    rw [named_cons] at h
    split at h
    · rename_i hk'
      rcases List.mem_cons.1 h with rfl | h
      · exact absurd hk' hk
      · exact ih h
    · rcases List.mem_cons.1 h with rfl | h
      · rw [hn, Option.getD_some]
      · exact ih h

lemma mem_named_of_name? {k : Key} {ks : List Key} {n : String} (h : k ∈ ks)
    (hk : k.kind ≠ .primary) (hn : k.name? = some n) (taken : List String) :
    (n, k) ∈ named taken ks := by
  obtain ⟨n', hmem⟩ := exists_mem_named h taken
  obtain rfl : n' = n := name_of_mem_named hmem hk hn
  exact hmem

lemma mem_ownNames_iff {x : String} {ks : List Key} : x ∈ ownNames ks ↔
    ∃ k ∈ ks, k.kind ≠ .primary ∧ ∃ n, k.name? = some n ∧ lower n = x := by
  simp [ownNames, and_assoc]

lemma mem_keyNames_of_mem_ownNames {x : String} {ks : List Key} (h : x ∈ ownNames ks)
    (taken : List String) : x ∈ keyNames (named taken ks) := by
  obtain ⟨k, hk, hkind, n, hn, rfl⟩ := mem_ownNames_iff.1 h
  exact List.mem_map.2 ⟨(n, k), mem_named_of_name? hk hkind hn taken, rfl⟩

def besidesPrimary (ks : List (String × Key)) : List (String × Key) :=
  ks.filter fun k => k.2.kind ≠ .primary

/-- Keys besides the primary one get different names: own ones of later keys are taken from the
start, and given ones are taken from then on. -/
lemma nodup_besidesPrimary {taken : List String} {ks : List Key} (hown : (ownNames ks).Nodup)
    (htaken : ∀ x ∈ ownNames ks, x ∈ taken) :
    (keyNames (besidesPrimary (named taken ks))).Nodup ∧
      ∀ x ∈ keyNames (besidesPrimary (named taken ks)), x ∈ ownNames ks ∨ x ∉ taken := by
  induction ks generalizing taken with
  | nil => exact ⟨List.nodup_nil, by simp [named, besidesPrimary, keyNames]⟩
  | cons k ks ih =>
    rw [ownNames_cons] at hown htaken ⊢
    rw [named_cons]
    by_cases hk : k.kind = .primary
    · simp only [hk, if_true, Option.toList_none, List.nil_append] at hown htaken ⊢
      simpa [besidesPrimary, hk] using ih hown htaken
    · simp only [hk, if_false] at hown htaken ⊢
      have hcons (n : String) (rest : List (String × Key)) :
          keyNames (besidesPrimary ((n, k) :: rest)) =
            lower n :: keyNames (besidesPrimary rest) := by
        simp [besidesPrimary, keyNames, hk]
      rw [hcons]
      rcases hn : k.name? with _ | n
      · -- The name is new, and taken from now on.
        have hfree := freshName_notMem taken k
        simp only [hn, Option.map_none, Option.toList_none, List.nil_append, Option.getD_none,
          Option.isSome_none, Bool.false_eq_true, if_false] at hown htaken ⊢
        have htaken' : ∀ x ∈ ownNames ks, x ∈ lower (freshName taken k) :: taken :=
          fun x hx => List.mem_cons_of_mem _ (htaken x hx)
        obtain ⟨hnodup, hmem⟩ := ih hown htaken'
        refine ⟨List.nodup_cons.2 ⟨fun hm => ?_, hnodup⟩, fun x hx => ?_⟩
        · rcases hmem _ hm with hlater | hnot
          · exact hfree (htaken _ hlater)
          · exact hnot List.mem_cons_self
        · rcases List.mem_cons.1 hx with rfl | hx
          · exact .inr hfree
          · exact (hmem x hx).imp_right fun hnot hm => hnot (List.mem_cons_of_mem _ hm)
      · -- The name is taken already, and no other key has it for its own.
        simp only [hn, Option.map_some, Option.toList_some, List.singleton_append,
          Option.getD_some, Option.isSome_some, if_true] at hown htaken ⊢
        rw [List.nodup_cons] at hown
        obtain ⟨hnodup, hmem⟩ := ih hown.2 fun x hx => htaken x (List.mem_cons_of_mem _ hx)
        refine ⟨List.nodup_cons.2 ⟨fun hm => ?_, hnodup⟩, fun x hx => ?_⟩
        · rcases hmem _ hm with hlater | hnot
          · exact hown.1 hlater
          · exact hnot (htaken _ List.mem_cons_self)
        · rcases List.mem_cons.1 hx with rfl | hx
          · exact .inl List.mem_cons_self
          · exact (hmem x hx).imp_left (List.mem_cons_of_mem _)

/-- Whether a name is the own name of a key, or was given to one of the keys before. -/
def InUse (own : List String) (earlier : List (String × Key)) (name : String) : Prop :=
  lower name ∈ own ∨ ∃ k ∈ earlier, ¬ k.2.IsNamed ∧ lower k.1 = lower name

lemma exists_named_cons (taken : List String) (k : Key) (ks : List Key) :
    ∃ n taken', named taken (k :: ks) = (n, k) :: named taken' ks ∧
      (¬ k.IsNamed → n = freshName taken k) ∧
      ∀ x, x ∈ taken' ↔ x ∈ taken ∨ ¬ k.IsNamed ∧ lower n = x := by
  by_cases hk : k.kind = .primary
  · exact ⟨primaryName, taken, by rw [named_cons, if_pos hk], by simp [IsNamed, hk],
      by simp [IsNamed, hk]⟩
  · rcases hn : k.name? with _ | n
    · refine ⟨freshName taken k, lower (freshName taken k) :: taken, ?_, fun _ => rfl, fun x => ?_⟩
      · simp [named_cons, hk, hn]
      · simp [IsNamed, hk, hn, or_comm, eq_comm]
    · exact ⟨n, taken, by simp [named_cons, hk, hn], by simp [IsNamed, hn], by simp [IsNamed, hn]⟩

/-- When a key is named, the names that are taken are those in use. -/
lemma exists_taken {taken : List String} {ks : List Key} {earlier later : List (String × Key)}
    {k : String × Key} (h : named taken ks = earlier ++ k :: later) (hk : ¬ k.2.IsNamed) :
    ∃ taken', k.1 = freshName taken' k.2 ∧ ∀ n, lower n ∈ taken' ↔ InUse taken earlier n := by
  induction ks generalizing taken earlier with
  | nil => cases earlier <;> cases h
  | cons k' ks ih =>
    obtain ⟨n, taken₁, hcons, hfresh, htaken⟩ := exists_named_cons taken k' ks
    rw [hcons] at h
    cases earlier with
    | nil =>
      obtain ⟨rfl, -⟩ := List.cons.inj h
      exact ⟨taken, hfresh hk, by simp [InUse]⟩
    | cons e earlier =>
      obtain ⟨rfl, hrest⟩ := List.cons.inj h
      obtain ⟨taken₂, hname, htaken₂⟩ := ih hrest
      refine ⟨taken₂, hname, fun n' => (htaken₂ n').trans ?_⟩
      simp only [InUse, htaken, List.mem_cons, exists_eq_or_imp]
      tauto

lemma exists_candidate {taken : List String} {ks : List Key} {earlier later : List (String × Key)}
    {k : String × Key} (h : named taken ks = earlier ++ k :: later) (hk : ¬ k.2.IsNamed) :
    ∃ i, k.1 = candidate k.2.baseName i ∧ ¬ InUse taken earlier k.1 ∧
      ∀ j < i, InUse taken earlier (candidate k.2.baseName j) := by
  obtain ⟨taken', hname, htaken⟩ := exists_taken h hk
  obtain ⟨i, hi, hfree, hearlier⟩ := freshName_spec taken' k.2
  rw [← hname] at hi
  refine ⟨i, hi, ?_, fun j hj => (htaken _).1 (hearlier j hj)⟩
  rwa [← htaken, hi]

/-! ### The name of the primary key -/

/-- The name with which the search for a key's name starts. -/
def firstName (k : Key) : String := k.name?.getD k.baseName

lemma eq_zero_of_lower_candidate {base : String} {i : Nat}
    (h : lower (candidate base i) = lower primaryName) : i = 0 := by
  cases i with
  | zero => rfl
  | succ i =>
    have hunderscore : '_' ∈ (lower (candidate base (i + 1))).toList := by
      simp [candidate, lower]
    rw [h] at hunderscore
    exact absurd hunderscore (by decide)

lemma mem_keyNames_besidesPrimary {n : String} {k : Key} {ks : List (String × Key)}
    (h : (n, k) ∈ ks) (hk : k.kind ≠ .primary) : lower n ∈ keyNames (besidesPrimary ks) :=
  List.mem_map.2 ⟨(n, k), List.mem_filter.2 ⟨h, by simpa using hk⟩, rfl⟩

lemma lower_firstName_mem {k : Key} {ks : List Key} (hk : k ∈ ks) (hkind : k.kind ≠ .primary) :
    lower k.firstName ∈ keyNames (besidesPrimary (named (ownNames ks) ks)) := by
  rcases hn : k.name? with _ | n
  · rw [firstName, hn, Option.getD_none]
    obtain ⟨n, hmem⟩ := exists_mem_named hk (ownNames ks)
    obtain ⟨earlier, later, hsplit⟩ := List.append_of_mem hmem
    obtain ⟨i, hi, -, huse⟩ := exists_candidate hsplit (by simp [IsNamed, hkind, hn])
    cases i with
    | zero =>
      have hname : n = k.baseName := hi
      rw [← hname]
      exact mem_keyNames_besidesPrimary hmem hkind
    | succ i =>
      -- The key's name is numbered: the name without a number is in use by another key.
      rcases huse 0 i.succ_pos with hown | ⟨e, he, hunnamed, hsame⟩
      · obtain ⟨k', hk', hkind', n', hn', hsame⟩ := mem_ownNames_iff.1 hown
        rw [show lower k.baseName = lower n' from hsame.symm]
        exact mem_keyNames_besidesPrimary (mem_named_of_name? hk' hkind' hn' _) hkind'
      · have hmem' : e ∈ named (ownNames ks) ks := hsplit ▸ List.mem_append_left _ he
        rw [show lower k.baseName = lower e.1 from hsame.symm]
        exact mem_keyNames_besidesPrimary hmem' fun hprimary => hunnamed (.inl hprimary)
  · rw [firstName, hn, Option.getD_some]
    exact mem_keyNames_besidesPrimary (mem_named_of_name? hk hkind hn _) hkind

/-- No search ends at the name of the primary key without having started there. -/
lemma lower_firstName_of_mem_named {ks : List Key} {e : String × Key}
    (h : e ∈ named (ownNames ks) ks) (hkind : e.2.kind ≠ .primary)
    (hlower : lower e.1 = lower primaryName) : lower e.2.firstName = lower primaryName := by
  rcases hn : e.2.name? with _ | n
  · obtain ⟨earlier, later, hsplit⟩ := List.append_of_mem h
    obtain ⟨i, hi, -, -⟩ := exists_candidate hsplit (by simp [IsNamed, hkind, hn])
    rw [hi] at hlower
    rw [eq_zero_of_lower_candidate hlower] at hlower
    rw [firstName, hn, Option.getD_none, ← hlower, candidate]
  · rw [firstName, hn, Option.getD_some, ← name_of_mem_named h hkind hn, hlower]

lemma mem_keyNames_besidesPrimary_iff {ks : List Key} :
    lower primaryName ∈ keyNames (besidesPrimary (named (ownNames ks) ks)) ↔
      ∃ k ∈ ks, k.kind ≠ .primary ∧ lower k.firstName = lower primaryName := by
  constructor
  · intro h
    obtain ⟨e, he, hlower⟩ := List.mem_map.1 h
    obtain ⟨hmem, hkind⟩ := List.mem_filter.1 he
    have hkind : e.2.kind ≠ .primary := by simpa using hkind
    have hkey : e.2 ∈ ks := map_snd_named (ownNames ks) ks ▸ List.mem_map_of_mem hmem
    exact ⟨e.2, hkey, hkind, lower_firstName_of_mem_named hmem hkind hlower⟩
  · rintro ⟨k, hk, hkind, hlower⟩
    exact hlower ▸ lower_firstName_mem hk hkind

lemma perm_keyNames (ks : List (String × Key)) : (keyNames ks).Perm
    (keyNames (ks.filter fun k => k.2.kind = .primary) ++ keyNames (besidesPrimary ks)) := by
  rw [keyNames, keyNames, keyNames, ← List.map_append]
  refine List.Perm.map _ ?_
  have hperm := List.filter_append_perm (fun k : String × Key => decide (k.2.kind = .primary)) ks
  simpa [besidesPrimary] using hperm.symm

lemma keyNames_filter_primary {taken : List String} {ks : List Key}
    (hprimary : (ks.filter (·.kind = .primary)).length ≤ 1) :
    keyNames ((named taken ks).filter fun k => k.2.kind = .primary) =
      if ks.any (·.kind = .primary) then [lower primaryName] else [] := by
  have hname : ∀ k ∈ (named taken ks).filter fun k => k.2.kind = .primary,
      lower k.1 = lower primaryName := by
    intro k hk
    obtain ⟨hmem, hkind⟩ := List.mem_filter.1 hk
    rw [eq_primaryName_of_mem_named (show (k.1, k.2) ∈ _ from hmem) (by simpa using hkind)]
  have hlength : ((named taken ks).filter fun k => k.2.kind = .primary).length =
      (ks.filter (·.kind = .primary)).length := by
    conv_rhs => rw [← map_snd_named taken ks, List.filter_map, List.length_map]
    rfl
  rw [keyNames, List.map_congr_left hname, List.map_const', hlength]
  rcases hk : ks.filter (·.kind = .primary) with _ | ⟨k, rest⟩
  · have hnone : ks.any (·.kind = .primary) = false := by simpa using hk
    rw [hk, hnone]
    rfl
  · have hmem := List.mem_filter.1 (hk ▸ List.mem_cons_self : k ∈ _)
    have hsome : ks.any (·.kind = .primary) = true := List.any_eq_true.2 ⟨k, hmem⟩
    have hrest : rest = [] := by
      rw [hk] at hprimary
      simpa using hprimary
    rw [hk, hsome, hrest]
    rfl

lemma nodup_keyNames_named_iff {ks : List Key} (hown : (ownNames ks).Nodup)
    (hprimary : (ks.filter (·.kind = .primary)).length ≤ 1) :
    (keyNames (named (ownNames ks) ks)).Nodup ↔ (ks.any (·.kind = .primary) →
      ∀ k ∈ ks, k.kind ≠ .primary → lower k.firstName ≠ lower primaryName) := by
  have hothers := (nodup_besidesPrimary hown fun _ hx => hx).1
  have hforall : (∀ k ∈ ks, k.kind ≠ .primary → lower k.firstName ≠ lower primaryName) ↔
      lower primaryName ∉ keyNames (besidesPrimary (named (ownNames ks) ks)) := by
    rw [mem_keyNames_besidesPrimary_iff]
    simp
  rw [(perm_keyNames _).nodup_iff, keyNames_filter_primary hprimary, hforall]
  split
  · rename_i hany
    rw [List.singleton_append, List.nodup_cons]
    exact ⟨fun h _ => h.1, fun h => ⟨h hany, hothers⟩⟩
  · rename_i hnone
    exact ⟨fun _ h => absurd h hnone, fun _ => hothers⟩

end Key

/-- **The names of keys.** Every key of a table that was read has a name, in the declared order. The
primary key is known as such, and other keys keep their own names, which are to be different. A key
without a name takes the first candidate that is not in use. All names are different then, unless
there is a primary key and the search for the name of another one starts at its name. -/
theorem Statement.namedKeys_of_read {real : FloatSize} {text : String} {t : Table}
    (hread : Statement.read real text = .table t) (hown : (Key.ownNames t.keys).Nodup) :
    t.namedKeys.map (·.2) = t.keys ∧
      (∀ k ∈ t.namedKeys, k.2.kind = .primary → k.1 = Key.primaryName) ∧
      (∀ k ∈ t.namedKeys, k.2.kind ≠ .primary → ∀ n, k.2.name? = some n → k.1 = n) ∧
      (∀ earlier k later, t.namedKeys = earlier ++ k :: later → ¬ k.2.IsNamed →
        ∃ i, k.1 = Key.candidate k.2.baseName i ∧
          ¬ Key.InUse (Key.ownNames t.keys) earlier k.1 ∧
          ∀ j < i, Key.InUse (Key.ownNames t.keys) earlier (Key.candidate k.2.baseName j)) ∧
      ((keyNames t.namedKeys).Nodup ↔ (t.primaryKey?.isSome →
        ∀ k ∈ t.keys, k.kind ≠ .primary → lower k.firstName ≠ lower Key.primaryName)) := by
  refine ⟨Key.map_snd_named _ _, fun k hk hprimary => ?_, fun k hk hkind n hn => ?_,
    fun earlier k later hsplit hunnamed => ?_, ?_⟩
  · exact Key.eq_primaryName_of_mem_named (show (k.1, k.2) ∈ _ from hk) hprimary
  · exact Key.name_of_mem_named hk hkind hn
  · exact Key.exists_candidate hsplit hunnamed
  · rw [Table.primaryKey?, List.isSome_find?]
    exact Key.nodup_keyNames_named_iff hown (Statement.wellKeyed_of_read hread).primary

/-- A table of numbers with some keys. -/
def Table.ofKeys (names : List String) (keys : List Key) : Table :=
  { Table.ofNames names with
    columns := Grammar.withMandatory (keys.find? (·.kind = .primary)) (Table.ofNames names).columns
    keys }

/-- A number is left out that a later key has in its own name. -/
theorem Statement.namedKeys_of_read_numbered :
    let text := "CREATE TABLE t (a INT, b INT, KEY (b), KEY (b), KEY b_2 (a), PRIMARY KEY (a))"
    let t : Table := .ofKeys ["a", "b"] [.ofParts .plain [.ofColumn "b"],
      .ofParts .plain [.ofColumn "b"], { Key.ofParts .plain [.ofColumn "a"] with name? := "b_2" },
      .ofParts .primary [.ofColumn "a"]]
    Statement.read .double text = .table t ∧
      t.namedKeys.map (·.1) = ["b", "b_3", "b_2", "PRIMARY"] ∧ (keyNames t.namedKeys).Nodup := by
  intro text t
  have hread : Statement.read .double text = .table t := by decide +kernel
  obtain ⟨-, -, -, -, hnodup⟩ := Statement.namedKeys_of_read hread (by decide +kernel)
  exact ⟨hread, by decide +kernel, hnodup.2 (by decide +kernel)⟩

/-- The name of the primary key is given to a key over a column of that name. -/
theorem Statement.not_nodup_keyNames_primary :
    let text :=
      "CREATE TABLE t (a INT PRIMARY KEY, \x60primary\x60 INT, KEY (\x60primary\x60))"
    let t : Table := .ofKeys ["a", "primary"] [.ofParts .primary [.ofColumn "a"],
      .ofParts .plain [.ofColumn "primary"]]
    Statement.read .double text = .table t ∧ (Key.ownNames t.keys).Nodup ∧
      t.namedKeys.map (·.1) = ["PRIMARY", "primary"] ∧ ¬ (keyNames t.namedKeys).Nodup := by
  intro text t
  exact ⟨by decide +kernel, by decide +kernel, by decide +kernel, by decide +kernel⟩

end SchemaDrift
