import Mathlib
import SchemaDrift.Proofs.AccountChanges

/-!
What one run does to accounts. The changes of a ledger are carried out on the live accounts. Afterwards
every account that is declared to be created is there with its desired requirement, no other account
has a managed name, and nothing is left to do.
-/

namespace SchemaDrift

/-! ### Reports -/

/-- A statement about an account: one that is declared, or one that the server reports. -/
inductive AccountReport where
  | declared (c : AccountClause) (text? : Option String)
  | live (c : AccountClause)

namespace AccountReport

/-- The creation of the account that the report declares. -/
def creationOf? (a : Account) : AccountReport → Option AccountClause
  | declared c _ => if c.verb = .create ∧ c.account = a then some c else none
  | live _ => none

/-- The requirement that the report, a declared change of the account, states. -/
def requirementOf? (a : Account) : AccountReport → Option Transport
  | declared c _ => if c.verb = .alter ∧ c.account = a then c.transport? else none
  | live _ => none

def isDeclared : AccountReport → Bool
  | declared .. => true
  | live _ => false

/-- The last declared creation of the account. -/
def creation? (rs : List AccountReport) (a : Account) : Option AccountClause :=
  (rs.filterMap (creationOf? a)).getLast?

/-- The last requirement that declared changes of the account state. -/
def requirement? (rs : List AccountReport) (a : Account) : Option Transport :=
  (rs.filterMap (requirementOf? a)).getLast?

/-- The requirement that an account is to have: that of its changes, else that of its creation. -/
def desired? (rs : List AccountReport) (a : Account) : Option Transport :=
  (requirement? rs a).or ((creation? rs a).map AccountClause.transport)

/-- Whether an account with the user name is declared to be created. -/
def Manages (rs : List AccountReport) (user : String) : Prop :=
  ∃ a, a.user = user ∧ (creation? rs a).isSome

lemma getLast?_filterMap_append_singleton {α β : Type} (f : α → Option β) (l : List α) (x : α) :
    ((l ++ [x]).filterMap f).getLast? = (f x).or (l.filterMap f).getLast? := by
  rw [List.filterMap_append, List.getLast?_append]
  rcases h : f x with _ | b <;> simp [h]

end AccountReport

namespace AccountLedger

open AccountReport (creation? requirement? desired? Manages)

/-- Adds a report to the side that it is about. -/
def add (l : AccountLedger) : AccountReport → AccountLedger
  | .declared c text? => l.declare c text?
  | .live c => l.observe c

/-- The ledger after some reports. -/
def ofReports (rs : List AccountReport) : AccountLedger := rs.foldl add empty

lemma ofReports_append_singleton (rs : List AccountReport) (r : AccountReport) :
    ofReports (rs ++ [r]) = (ofReports rs).add r := by
  rw [ofReports, List.foldl_append]
  rfl

def declaredAt (l : AccountLedger) (a : Account) : DeclaredAccount := (l.declared.get? a).getD .none

lemma declaredAt_declare (l : AccountLedger) (c : AccountClause) (text? : Option String)
    (a : Account) : (l.declare c text?).declaredAt a =
      if c.account = a then
        match c.verb with
        | .create => { l.declaredAt a with creation? := some (c, text?) }
        | .alter =>
          { l.declaredAt a with altered? := c.transport?.orElse fun _ => (l.declaredAt a).altered? }
      else l.declaredAt a := by
  rw [declaredAt, declare, OrderedMap.get?_alter]
  by_cases h : a = c.account
  · subst h
    rw [if_pos rfl, if_pos rfl]
    rfl
  · rw [if_neg h, if_neg (Ne.symm h)]
    rfl

lemma creation_ofReports (rs : List AccountReport) (a : Account) :
    ((ofReports rs).declaredAt a).creation?.map (·.1) = creation? rs a := by
  induction rs using List.reverseRecOn with
  | nil => rfl
  | append_singleton rs r ih =>
    rw [ofReports_append_singleton, creation?, AccountReport.getLast?_filterMap_append_singleton,
      ← creation?, ← ih]
    rcases r with ⟨c, text?⟩ | c
    · rw [add, declaredAt_declare]
      by_cases ha : c.account = a <;> rcases hverb : c.verb with _ | _ <;>
        simp [AccountReport.creationOf?, ha, hverb]
    · rfl

lemma altered_ofReports (rs : List AccountReport) (a : Account) :
    ((ofReports rs).declaredAt a).altered? = requirement? rs a := by
  induction rs using List.reverseRecOn with
  | nil => rfl
  | append_singleton rs r ih =>
    rw [ofReports_append_singleton, requirement?,
      AccountReport.getLast?_filterMap_append_singleton, ← requirement?, ← ih]
    rcases r with ⟨c, text?⟩ | c
    · rw [add, declaredAt_declare]
      by_cases ha : c.account = a <;> rcases hverb : c.verb with _ | _ <;>
        simp [AccountReport.requirementOf?, ha, hverb, Option.orElse_eq_or]
    · rfl

lemma transport_ofReports (rs : List AccountReport) (a : Account) :
    ((ofReports rs).declaredAt a).transport? = desired? rs a := by
  rw [DeclaredAccount.transport?, desired?, ← altered_ofReports, ← creation_ofReports]
  rcases ((ofReports rs).declaredAt a).altered? with _ | t
  · simp [Function.comp_def]
  · rfl

lemma isCreated_ofReports (rs : List AccountReport) (a : Account) :
    (ofReports rs).isCreated a = (creation? rs a).isSome := by
  rw [← creation_ofReports, Option.isSome_map, isCreated, declaredAt]
  rcases (ofReports rs).declared.get? a <;> rfl

lemma mem_managedNames_iff (l : AccountLedger) (user : String) :
    l.managedNames.contains user = true ↔ ∃ a, a.user = user ∧ l.isCreated a = true := by
  rw [OrderedSet.contains_iff, managedNames, OrderedSet.mem_ofList]
  simp only [List.mem_map, List.mem_filter, Prod.exists, ← OrderedMap.get?_eq_some_iff, isCreated]
  constructor
  · rintro ⟨a, d, ⟨hd, hcreated⟩, rfl⟩
    exact ⟨a, rfl, by rw [hd]; exact hcreated⟩
  · rintro ⟨a, rfl, hcreated⟩
    rcases hd : l.declared.get? a with _ | d
    · rw [hd] at hcreated
      cases hcreated
    · rw [hd] at hcreated
      exact ⟨a, d, ⟨hd, hcreated⟩, rfl⟩

lemma contains_managedNames_iff {rs : List AccountReport} {user : String} :
    (ofReports rs).managedNames.contains user = true ↔ Manages rs user := by
  simp only [mem_managedNames_iff, isCreated_ofReports, Manages]

/-- What a ledger holds of an account names that account. -/
structure Keyed (l : AccountLedger) : Prop where
  creation : ∀ a c text?, (l.declaredAt a).creation? = some (c, text?) → c.account = a
  live : ∀ a c, l.live.get? a = some c → c.account = a

lemma keyed_ofReports (rs : List AccountReport) : (ofReports rs).Keyed := by
  constructor
  · intro a c text? hc
    have hcreation := creation_ofReports rs a
    rw [hc] at hcreation
    obtain ⟨r, -, hr⟩ := List.mem_filterMap.1 (List.mem_of_getLast? hcreation.symm)
    rcases r with ⟨c', text'⟩ | c'
    · simp only [AccountReport.creationOf?] at hr
      split at hr
      · rename_i h
        obtain rfl := Option.some.inj hr
        exact h.2
      · cases hr
    · cases hr
  · induction rs using List.reverseRecOn with
    | nil => intro a c hc; cases hc
    | append_singleton rs r ih =>
      rw [ofReports_append_singleton]
      rcases r with ⟨c', text'⟩ | c'
      · exact ih
      · intro a c hc
        rw [add, observe, OrderedMap.get?_insert] at hc
        split at hc
        · rename_i ha
          obtain rfl := Option.some.inj hc
          exact ha.symm
        · exact ih a c hc

end AccountLedger

/-! ### The changes to one account -/

lemma OrderedMap.filter_flatMap_entries {κ β γ : Type} [Ord κ] [Std.LawfulEqOrd κ] [DecidableEq κ]
    {m : OrderedMap κ β} {f : κ → β → List γ} {key : γ → κ} (k : κ)
    (h : ∀ e ∈ m.entries, ∀ x ∈ f e.1 e.2, key x = e.1) :
    (m.entries.flatMap fun e => f e.1 e.2).filter (key · = k) = ((m.get? k).map (f k)).getD [] := by
  obtain ⟨es, hes⟩ := m
  induction es with
  | nil => rfl
  | cons e es ih =>
    obtain ⟨k', v⟩ := e
    have hrest := ih hes.of_cons fun e he => h e (List.mem_cons_of_mem _ he)
    have hkey := h (k', v) List.mem_cons_self
    dsimp only at hrest hkey ⊢
    rw [List.flatMap_cons, List.filter_append, hrest, OrderedMap.get?_cons]
    split
    · rename_i hk
      subst hk
      have hall : (f k v).filter (key · = k) = f k v :=
        List.filter_eq_self.2 fun x hx => decide_eq_true (hkey x hx)
      rw [hall, OrderedMap.get?_tail_head hes]
      exact List.append_nil _
    · rename_i hk
      have hnone : (f k' v).filter (key · = k) = [] :=
        List.filter_eq_nil_iff.2 fun x hx heq => hk ((of_decide_eq_true heq).symm.trans (hkey x hx))
      rw [hnone]
      rfl

namespace AccountLedger

open AccountChange (changesTo effect? run?)
open AccountReport (creation? requirement? desired? Manages)

variable (l : AccountLedger) (a : Account)

def changes : List AccountChange := l.drifts.flatMap AccountDrift.changes

/-- The change to another requirement, if one is desired. -/
def requiring (desired? : Option Transport) (current : Transport) : List AccountChange :=
  (desired?.filter (· ≠ current)).toList.map (.require a)

/-- The changes by which the drift of a declared account is closed. -/
def declaredChanges (d : DeclaredAccount) : List AccountChange :=
  match l.live.get? a, d.creation? with
  | none, some (c, text?) => .create c text? :: requiring a d.transport? c.transport
  | some live, _ => requiring a d.transport? live.transport
  | none, none => []

def droppedDrift? (c : AccountClause) : Option AccountDrift :=
  if l.managedNames.contains a.user && !l.isCreated a then
    some ⟨a, .dropped, ⟨some c.transport, none⟩, [.drop a]⟩
  else none

/-- The changes by which a live account goes that is not declared though its name is managed. -/
def liveChanges : List AccountChange :=
  if l.managedNames.contains a.user && !l.isCreated a then [.drop a] else []

lemma changes_declaredDrift? (d : DeclaredAccount) :
    ((l.declaredDrift? a d).map AccountDrift.changes).getD [] = l.declaredChanges a d := by
  unfold declaredDrift? declaredChanges requiring
  rcases l.live.get? a with _ | live
  · rcases d.creation? with _ | ⟨c, text?⟩
    · rfl
    · rcases d.transport? with _ | t
      · rfl
      · by_cases ht : t = c.transport <;> simp [ht, Option.filter]
  · rcases d.transport? with _ | t
    · rfl
    · by_cases ht : t = live.transport <;> simp [ht, Option.filter]

lemma drifts_eq : l.drifts =
    (l.declared.entries.flatMap fun e => (l.declaredDrift? e.1 e.2).toList) ++
      l.live.entries.flatMap fun e => (l.droppedDrift? e.1 e.2).toList := by
  rw [drifts, List.filterMap_eq_flatMap_toList]
  congr 1
  induction l.live.entries with
  | nil => rfl
  | cons e es ih =>
    rw [List.filter_cons, List.flatMap_cons, ← ih, droppedDrift?]
    split <;> rfl

lemma changes_eq : l.changes =
    (l.declared.entries.flatMap fun e => l.declaredChanges e.1 e.2) ++
      l.live.entries.flatMap fun e => l.liveChanges e.1 := by
  rw [changes, drifts_eq, List.flatMap_append, List.flatMap_assoc, List.flatMap_assoc]
  congr 1
  · refine List.flatMap_congr fun e _ => ?_
    rw [← changes_declaredDrift?]
    rcases l.declaredDrift? e.1 e.2 <;> simp
  · refine List.flatMap_congr fun e _ => ?_
    rw [droppedDrift?, liveChanges]
    split <;> rfl

variable {l a}

lemma account_of_mem_requiring {desired? : Option Transport} {current : Transport}
    {change : AccountChange} (h : change ∈ requiring a desired? current) : change.account = a := by
  obtain ⟨t, -, rfl⟩ := List.mem_map.1 h
  rfl

lemma account_of_mem_declaredChanges {d : DeclaredAccount}
    (hcreation : ∀ c text?, d.creation? = some (c, text?) → c.account = a)
    {change : AccountChange} (h : change ∈ l.declaredChanges a d) : change.account = a := by
  unfold declaredChanges at h
  split at h
  · rename_i c text? _ hc
    rcases List.mem_cons.1 h with rfl | h
    · exact hcreation c text? hc
    · exact account_of_mem_requiring h
  · exact account_of_mem_requiring h
  · cases h

lemma account_of_mem_liveChanges {change : AccountChange} (h : change ∈ l.liveChanges a) :
    change.account = a := by
  unfold liveChanges at h
  split at h
  · rw [List.mem_singleton.1 h]
    rfl
  · cases h

lemma changesTo_changes (hl : l.Keyed) (a : Account) : changesTo l.changes a =
    l.declaredChanges a (l.declaredAt a) ++
      if (l.live.get? a).isSome then l.liveChanges a else [] := by
  have hdeclared : ∀ e ∈ l.declared.entries, ∀ change ∈ l.declaredChanges e.1 e.2,
      change.account = e.1 := by
    intro e he change hchange
    have hentry : l.declaredAt e.1 = e.2 := by
      rw [declaredAt, OrderedMap.get?_eq_some_iff.2 he]
      rfl
    exact account_of_mem_declaredChanges (hentry ▸ hl.creation e.1) hchange
  have hlive : ∀ e ∈ l.live.entries, ∀ change ∈ l.liveChanges e.1, change.account = e.1 :=
    fun e _ change hchange => account_of_mem_liveChanges hchange
  rw [changesTo, changes_eq, List.filter_append, OrderedMap.filter_flatMap_entries a hdeclared,
    OrderedMap.filter_flatMap_entries (f := fun b _ => l.liveChanges b) a hlive, declaredAt]
  congr 1
  · rcases l.declared.get? a with _ | d
    · simp [declaredChanges, requiring, DeclaredAccount.none, DeclaredAccount.transport?]
      split <;> simp_all
    · rfl
  · rcases l.live.get? a <;> rfl

/-- How an account is to end: there with the desired requirement if it is declared to be created, gone
if its name is managed but it is not, and as it was if nothing is declared of it. -/
structure Settled (l : AccountLedger) (a : Account) (slot : Option AccountClause) : Prop where
  present : l.isCreated a = true → slot.isSome
  absent : l.managedNames.contains a.user = true → l.isCreated a = false → slot = none
  agrees : ∀ c ∈ slot, ∀ t ∈ (l.declaredAt a).transport?, c.transport = t
  untouched : l.managedNames.contains a.user = false → (l.declaredAt a).altered? = none →
    slot = l.live.get? a
  keyed : ∀ c ∈ slot, c.account = a

lemma settled_none {a : Account} (hcreated : l.isCreated a = false)
    (hlive : l.managedNames.contains a.user = false → l.live.get? a = none) : l.Settled a none where
  present hyes := by
    rw [hcreated] at hyes
    cases hyes
  absent _ _ := rfl
  agrees := by simp
  untouched hname _ := (hlive hname).symm
  keyed := by simp

lemma settled_some {a : Account} {c : AccountClause} (haccount : c.account = a)
    (hagrees : ∀ t ∈ (l.declaredAt a).transport?, c.transport = t)
    (hcreated : l.managedNames.contains a.user = true → l.isCreated a = true)
    (hlive : l.managedNames.contains a.user = false → (l.declaredAt a).altered? = none →
      l.live.get? a = some c) : l.Settled a (some c) where
  present _ := rfl
  absent hname hnot := by
    rw [hcreated hname] at hnot
    cases hnot
  agrees := by
    rintro _ ⟨⟩
    exact hagrees
  untouched hname haltered := (hlive hname haltered).symm
  keyed := by
    rintro _ ⟨⟩
    exact haccount

/-- Whether the changes to an account can be carried out and settle it. -/
def Settles (l : AccountLedger) (a : Account) : Prop :=
  ∃ slot, (changesTo l.changes a).foldlM effect? (l.live.get? a) = some slot ∧ l.Settled a slot

lemma exists_requiring (a : Account) (c : AccountClause) (desired? : Option Transport) :
    ∃ c' : AccountClause,
      (requiring a desired? c.transport).foldlM effect? (some c) = some (some c') ∧
      c'.account = c.account ∧ (∀ t ∈ desired?, c'.transport = t) ∧ (desired? = none → c' = c) := by
  rcases desired? with _ | t
  · exact ⟨c, rfl, rfl, by simp, fun _ => rfl⟩
  · by_cases ht : t = c.transport
    · exact ⟨c, by simp [requiring, ht, Option.filter], rfl, by simp [ht], fun _ => rfl⟩
    · refine ⟨{ c with transport? := some t }, by simp [requiring, ht, Option.filter]; rfl, rfl, ?_,
        fun h => by cases h⟩
      intro t' ht'
      exact Option.some.inj ht'

lemma isCreated_eq (l : AccountLedger) (a : Account) :
    l.isCreated a = (l.declaredAt a).creation?.isSome := by
  rw [isCreated, declaredAt]
  rcases l.declared.get? a <;> rfl

lemma settles_of_creation (hl : l.Keyed) {a : Account} {c : AccountClause} {text? : Option String}
    (hc : (l.declaredAt a).creation? = some (c, text?)) : l.Settles a := by
  have hcreated : l.isCreated a = true := by
    rw [isCreated_eq, hc]
    rfl
  have hmanaged : l.managedNames.contains a.user = true :=
    (l.mem_managedNames_iff _).2 ⟨a, rfl, hcreated⟩
  have hkept : l.liveChanges a = [] := by
    rw [liveChanges, hcreated, Bool.not_true, Bool.and_false, if_neg Bool.false_ne_true]
  have hsettled {c' : AccountClause} (haccount : c'.account = a)
      (hagrees : ∀ t ∈ (l.declaredAt a).transport?, c'.transport = t) : l.Settled a (some c') := by
    refine settled_some haccount hagrees (fun _ => hcreated) fun hnot => ?_
    rw [hmanaged] at hnot
    cases hnot
  rw [Settles, changesTo_changes hl, hkept, ite_self, List.append_nil, declaredChanges, hc]
  rcases hlive : l.live.get? a with _ | live
  · obtain ⟨c', hrun, haccount, hagrees, -⟩ := exists_requiring a c (l.declaredAt a).transport?
    exact ⟨some c', hrun, hsettled (haccount.trans (hl.creation a c text? hc)) hagrees⟩
  · obtain ⟨c', hrun, haccount, hagrees, -⟩ := exists_requiring a live (l.declaredAt a).transport?
    exact ⟨some c', hrun, hsettled (haccount.trans (hl.live a live hlive)) hagrees⟩

lemma settles_of_no_creation (hl : l.Keyed) {a : Account}
    (hc : (l.declaredAt a).creation? = none) : l.Settles a := by
  have hcreated : l.isCreated a = false := by
    rw [isCreated_eq, hc]
    rfl
  rw [Settles, changesTo_changes hl, declaredChanges, hc]
  rcases hlive : l.live.get? a with _ | live
  · exact ⟨none, rfl, settled_none hcreated fun _ => hlive⟩
  · obtain ⟨c', hrun, haccount, hagrees, hsame⟩ :=
      exists_requiring a live (l.declaredAt a).transport?
    rw [Option.isSome_some, if_pos rfl, List.foldlM_append, hrun]
    rcases hmanaged : l.managedNames.contains a.user with _ | _
    · have hkept : l.liveChanges a = [] := by
        rw [liveChanges, hmanaged, Bool.false_and, if_neg Bool.false_ne_true]
      rw [hkept]
      refine ⟨some c', rfl, settled_some (haccount.trans (hl.live a live hlive)) hagrees ?_ ?_⟩
      · intro hname
        rw [hmanaged] at hname
        cases hname
      · intro _ haltered
        have hnone : (l.declaredAt a).transport? = none := by
          rw [DeclaredAccount.transport?, haltered, hc]
          rfl
        rw [hlive, hsame hnone]
    · -- The account may have been altered just before it is dropped.
      have hdropped : l.liveChanges a = [.drop a] := by
        rw [liveChanges, hmanaged, hcreated, Bool.true_and, Bool.not_false, if_pos rfl]
      rw [hdropped]
      refine ⟨none, rfl, settled_none hcreated fun hname => ?_⟩
      rw [hmanaged] at hname
      cases hname

/-- The changes of a ledger can be carried out on its live accounts, and settle every account. -/
lemma exists_run_settled (hl : l.Keyed) : ∃ final, l.changes.foldlM run? l.live = some final ∧
    ∀ a, l.Settled a (final.get? a) := by
  have hsettles (a : Account) : l.Settles a := by
    rcases hc : (l.declaredAt a).creation? with _ | ⟨c, text?⟩
    · exact settles_of_no_creation hl hc
    · exact settles_of_creation hl hc
  choose slots hslots hsettled using hsettles
  obtain ⟨final, hfinal, hget⟩ := AccountChange.exists_run hslots
  exact ⟨final, hfinal, fun a => by rw [hget a]; exact hsettled a⟩

/-! ### Asking again -/

lemma drifts_eq_nil {again : AccountLedger} (hdeclared : again.declared = l.declared)
    (h : ∀ a, l.Settled a (again.live.get? a)) : again.drifts = [] := by
  have hmanaged : again.managedNames = l.managedNames := by
    rw [managedNames, managedNames, hdeclared]
  have hcreated (a : Account) : again.isCreated a = l.isCreated a := by
    rw [isCreated, isCreated, hdeclared]
  refine List.append_eq_nil_iff.2 ⟨List.filterMap_eq_nil_iff.2 fun e he => ?_, ?_⟩
  · obtain ⟨a, d⟩ := e
    rw [hdeclared, ← OrderedMap.get?_eq_some_iff] at he
    have hd : l.declaredAt a = d := by
      rw [declaredAt, he]
      rfl
    have hsettled := h a
    change again.declaredDrift? a d = none
    unfold declaredDrift?
    split
    · rename_i hlive hc
      have hpresent := hsettled.present (by rw [isCreated_eq, hd, hc]; rfl)
      rw [hlive] at hpresent
      cases hpresent
    · rename_i live hlive
      rcases ht : d.transport? with _ | t
      · rfl
      · have hagrees := hsettled.agrees live hlive t (by rw [hd, ht]; rfl)
        exact if_pos hagrees.symm
    · rfl
  · rw [List.map_eq_nil_iff, List.filter_eq_nil_iff]
    rintro ⟨a, c⟩ he
    rw [hmanaged, hcreated, Bool.and_eq_true, Bool.not_eq_true']
    rintro ⟨hname, hnot⟩
    have habsent := (h a).absent hname hnot
    rw [OrderedMap.get?_eq_some_iff.2 he] at habsent
    cases habsent

lemma ofReports_declared (rs : List AccountReport) :
    ofReports (rs.filter AccountReport.isDeclared) = ⟨(ofReports rs).declared, OrderedMap.empty⟩ := by
  induction rs using List.reverseRecOn with
  | nil => rfl
  | append_singleton rs r ih =>
    rw [List.filter_append, ofReports_append_singleton]
    rcases r with ⟨c, text?⟩ | c
    · change ofReports (_ ++ [_]) = _
      rw [ofReports_append_singleton, ih]
      rfl
    · change ofReports (_ ++ []) = _
      rw [List.append_nil, ih]
      rfl

lemma foldl_live (l : AccountLedger) {live : LiveAccounts}
    (hkeyed : ∀ a c, live.get? a = some c → c.account = a) :
    let after := (live.values.map AccountReport.live).foldl add l
    after.declared = l.declared ∧ ∀ a, after.live.get? a = (live.get? a).or (l.live.get? a) := by
  obtain ⟨es, hes⟩ := live
  induction es generalizing l with
  | nil => exact ⟨rfl, fun a => rfl⟩
  | cons e es ih =>
    obtain ⟨b, c⟩ := e
    have hb : c.account = b := hkeyed b c (OrderedMap.get?_eq_some_iff.2 List.mem_cons_self)
    have hrest : ∀ a c', (⟨es, hes.of_cons⟩ : LiveAccounts).get? a = some c' → c'.account = a := by
      intro a c' hc'
      rw [OrderedMap.get?_eq_some_iff] at hc'
      exact hkeyed a c' (OrderedMap.get?_eq_some_iff.2 (List.mem_cons_of_mem _ hc'))
    obtain ⟨hdeclared, hlive⟩ := ih (l.observe c) hes.of_cons hrest
    refine ⟨hdeclared, fun a => (hlive a).trans ?_⟩
    rw [observe, OrderedMap.get?_insert, hb, OrderedMap.get?_cons]
    split
    · rename_i ha
      subst ha
      rw [OrderedMap.get?_tail_head hes]
      rfl
    · rfl

/-- **One run settles accounts.** The steps of the drifts are those of the changes that are carried
out on the live accounts. Each change can be carried out, and afterwards: every account that is
declared to be created is there with the desired requirement; no other account has a managed name; an
account whose name is not managed and of which no change states a requirement is as it was; and a
ledger with the same declarations and the accounts that are there now has no drifts. -/
theorem run_settles (rs : List AccountReport) :
    (ofReports rs).drifts.flatMap AccountDrift.steps =
        (ofReports rs).changes.map AccountChange.step ∧
      ∃ final, (ofReports rs).changes.foldlM run? (ofReports rs).live = some final ∧
        (∀ a, (creation? rs a).isSome →
          ∃ c, final.get? a = some c ∧ desired? rs a = some c.transport) ∧
        (∀ a, (final.get? a).isSome → Manages rs a.user → (creation? rs a).isSome) ∧
        (∀ a, ¬ Manages rs a.user → requirement? rs a = none →
          final.get? a = (ofReports rs).live.get? a) ∧
        (ofReports (rs.filter AccountReport.isDeclared ++
          final.values.map AccountReport.live)).drifts = [] := by
  have hkeyed := keyed_ofReports rs
  obtain ⟨final, hfinal, hsettled⟩ := exists_run_settled hkeyed
  refine ⟨?_, final, hfinal, fun a hcreation => ?_, fun a hthere hname => ?_,
    fun a hname hsame => ?_, ?_⟩
  · rw [changes, List.map_flatMap]
    rfl
  · have hpresent := (hsettled a).present (by rw [isCreated_ofReports, hcreation])
    obtain ⟨c, hc⟩ := Option.isSome_iff_exists.1 hpresent
    obtain ⟨t, ht⟩ : ∃ t, desired? rs a = some t := by
      obtain ⟨created, hcreated⟩ := Option.isSome_iff_exists.1 hcreation
      rw [desired?, hcreated]
      rcases requirement? rs a with _ | t
      · exact ⟨created.transport, rfl⟩
      · exact ⟨t, rfl⟩
    have hagrees := (hsettled a).agrees c hc t (by rw [transport_ofReports, ht]; rfl)
    exact ⟨c, hc, by rw [ht, hagrees]⟩
  · by_contra hnot
    have hcreated : (ofReports rs).isCreated a = false := by
      rw [isCreated_ofReports]
      exact Bool.eq_false_iff.2 hnot
    rw [(hsettled a).absent (contains_managedNames_iff.2 hname) hcreated] at hthere
    cases hthere
  · have hunmanaged : (ofReports rs).managedNames.contains a.user = false :=
      Bool.eq_false_iff.2 fun h => hname (contains_managedNames_iff.1 h)
    exact (hsettled a).untouched hunmanaged (by rw [altered_ofReports, hsame])
  · -- The accounts that are there now, reported again, are the live ones of the second ledger.
    obtain ⟨hdeclared, hlive⟩ := foldl_live (ofReports (rs.filter AccountReport.isDeclared))
      fun a c hc => (hsettled a).keyed c hc
    rw [ofReports, List.foldl_append]
    rw [ofReports_declared] at hdeclared hlive
    refine drifts_eq_nil (l := ofReports rs) ?_ fun a => ?_
    · rw [← ofReports, ofReports_declared]
      exact hdeclared
    · have hget := hlive a
      rw [← ofReports, ofReports_declared, hget]
      rcases hc : final.get? a with _ | c
      · have hnone := hsettled a
        rw [hc] at hnone
        exact hnone
      · have hsome := hsettled a
        rw [hc] at hsome
        exact hsome

theorem run_settles_app :
    let app : Account := ⟨"app", "%"⟩
    let other : Account := ⟨"app", "localhost"⟩
    let root : Account := ⟨"root", "%"⟩
    let rs : List AccountReport :=
      [.declared ⟨.alter, app, false, some .x509⟩ none, .live (.bare .create other),
        .declared ⟨.create, app, false, some .ssl⟩ none, .live (.bare .create root)]
    ∃ final, (ofReports rs).changes.foldlM run? (ofReports rs).live = some final ∧
      (∃ c, final.get? app = some c ∧ c.transport = .x509) ∧ final.get? other = none ∧
      final.get? root = some (.bare .create root) := by
  intro app other root rs
  obtain ⟨-, final, hrun, hcreated, hmanaged, hsame, -⟩ := run_settles rs
  obtain ⟨c, hc, hdesired⟩ := hcreated app (by decide +kernel)
  have hx509 : desired? rs app = some .x509 := by decide +kernel
  have hother : (creation? rs other).isSome = false := by decide +kernel
  have hunmanaged : ¬ Manages rs root.user := by
    rintro ⟨a, ha, hcreation⟩
    have hne : app ≠ a := by
      rintro rfl
      exact absurd ha (by decide)
    simp [creation?, rs, AccountReport.creationOf?, AccountClause.bare, hne] at hcreation
  refine ⟨final, hrun, ⟨c, hc, Option.some.inj (hdesired.symm.trans hx509)⟩, ?_, ?_⟩
  · by_contra hthere
    have hname : Manages rs other.user := ⟨app, rfl, by decide +kernel⟩
    have hsome := hmanaged other (Option.isSome_iff_ne_none.2 hthere) hname
    rw [hother] at hsome
    cases hsome
  · rw [hsame root hunmanaged (by decide +kernel)]
    decide +kernel

end AccountLedger

end SchemaDrift
