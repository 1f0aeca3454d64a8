import Mathlib
import SchemaDrift.Proofs.CharsetName
import SchemaDrift.Proofs.OrderedLookup
import SchemaDrift.Proofs.TableRun

/-!
What setting the options of a table does. Every option but the collation ends with a value that does
not differ from the declared one. The collation is subject to the character set: it is compared only
where the character set does not imply it, and a character set that is set without it replaces it.
-/

namespace SchemaDrift

open Text (lower)

namespace Catalog

lemma canonicalCollation_defaultCollation {rows : List (String × String × Nat)} {charset : String}
    {facts : CharsetFacts} (h : (ofReport rows).find? charset = some facts) :
    Charset.canonicalCollation facts.defaultCollation = facts.defaultCollation := by
  have hbuiltin : ∀ f ∈ Charset.builtin,
      Charset.canonicalCollation f.defaultCollation = f.defaultCollation := by decide +kernel
  rcases List.mem_append.1 (List.mem_of_find?_eq_some h) with hm | hm
  · simp only [ofReport, List.mem_reverse, List.mem_map] at hm
    obtain ⟨row, -, rfl⟩ := hm
    exact Charset.canonicalCollation_canonicalCollation _
  · exact hbuiltin facts hm

lemma isDefaultCollation_defaultCollation {rows : List (String × String × Nat)} {charset : String}
    {facts : CharsetFacts} (h : (ofReport rows).find? charset = some facts) :
    (ofReport rows).isDefaultCollation (Charset.canonical charset) facts.defaultCollation =
      true := by
  have hfind : (ofReport rows).find? (Charset.canonical charset) = some facts := by
    rw [← h, find?, find?, Charset.canonical_canonical]
  simp [isDefaultCollation, hfind, canonicalCollation_defaultCollation h]

end Catalog

/-! ### What becomes of one option -/

namespace TableOption

lemma sameValue_self (o : TableOption) (a : String) : o.sameValue a a = true := by
  unfold sameValue
  split <;> simp

end TableOption

namespace TablePair

def sameSetting (name a b : String) : Bool :=
  match TableOption.find? name with
  | some o => o.sameValue a b
  | none => a = b

/-- The value of a table that does not set the option. -/
def impliedSetting? (name : String) : Option String :=
  (TableOption.find? name).bind (·.implied)

@[simp] lemma sameSetting_self (name a : String) : sameSetting name a a = true := by
  unfold sameSetting
  split
  · exact TableOption.sameValue_self _ a
  · simp

lemma optionDrift?_set_set (name a b : String) :
    optionDrift? name (some a) (some b) =
      if sameSetting name a b then none
      else some ⟨name, Sides.verdict ⟨some a, some b⟩, ⟨some a, some b⟩⟩ := rfl

lemma optionDrift?_set_none (name a : String) :
    optionDrift? name (some a) none = (impliedSetting? name).bind fun d =>
      if sameSetting name a d then none
      else some ⟨name, Sides.verdict ⟨some a, some d⟩, ⟨some a, some d⟩⟩ := rfl

lemma optionDrift?_none_set (name b : String) :
    optionDrift? name none (some b) =
      if (impliedSetting? name).any (sameSetting name b) then none
      else some ⟨name, Sides.verdict ⟨none, some b⟩, ⟨none, some b⟩⟩ := rfl

lemma optionDrift?_eq_some {name : String} {live? declared? : Option String} {d : OptionDrift}
    (h : optionDrift? name live? declared? = some d) :
    ∃ v, d = ⟨name, Sides.verdict ⟨live?, some v⟩, ⟨live?, some v⟩⟩ := by
  rcases live? with _ | a <;> rcases declared? with _ | b
  · cases h
  · rw [optionDrift?_none_set] at h
    split at h
    · cases h
    · exact ⟨b, (Option.some.inj h).symm⟩
  · rw [optionDrift?_set_none] at h
    obtain ⟨v, -, h⟩ := Option.bind_eq_some_iff.1 h
    split at h
    · cases h
    · exact ⟨v, (Option.some.inj h).symm⟩
  · rw [optionDrift?_set_set] at h
    split at h
    · cases h
    · exact ⟨b, (Option.some.inj h).symm⟩

/-- The value that an option is set to. -/
def settingOf? (name : String) (live? declared? : Option String) : Option String :=
  (optionDrift? name live? declared?).bind (·.sides.declared)

lemma optionDrift?_settingOf? (name : String) (live? declared? : Option String) :
    optionDrift? name ((settingOf? name live? declared?).or live?) declared? = none := by
  rcases live? with _ | a <;> rcases declared? with _ | b
  · rfl
  · rw [settingOf?, optionDrift?_none_set]
    split
    · rename_i himplied
      simp [optionDrift?_none_set, himplied]
    · simp [optionDrift?_set_set]
  · rw [settingOf?, optionDrift?_set_none]
    rcases himplied : impliedSetting? name with _ | v
    · simp [optionDrift?_set_none, himplied]
    · rw [Option.bind_some]
      split
      · rename_i hsame
        simp [optionDrift?_set_none, himplied, hsame]
      · simp [optionDrift?_set_none, himplied]
  · rw [settingOf?, optionDrift?_set_set]
    split
    · rename_i hsame
      simp [optionDrift?_set_set, hsame]
    · simp [optionDrift?_set_set]

/-! ### All settings -/

lemma get?_foldl_insert (f : String → Option String) (names : List String) (os : TableOptions)
    (n : String) :
    ((names.filterMap fun n => (f n).map (n, ·)).foldl (fun os s => os.insert s.1 s.2) os).get? n =
      if n ∈ names then (f n).or (os.get? n) else os.get? n := by
  induction names generalizing os with
  | nil => rfl
  | cons m names ih =>
    rcases hm : f m with _ | v
    · rw [List.filterMap_cons_none (by rw [hm]; rfl), ih]
      by_cases h : n = m
      · simp [h, hm]
      · simp [h]
    · rw [List.filterMap_cons_some (by rw [hm]; rfl), List.foldl_cons, ih, OrderedMap.get?_insert]
      by_cases h : n = m
      · simp [h, hm]
      · simp [h]

lemma lookup_filterMap (f : String → Option String) (names : List String) {n : String}
    (hn : n ∉ names → f n = none) :
    (names.filterMap fun n => (f n).map (n, ·)).lookup n = f n := by
  induction names with
  | nil => simp [hn List.not_mem_nil]
  | cons m names ih =>
    rcases hm : f m with _ | v
    · rw [List.filterMap_cons_none (by rw [hm]; rfl)]
      by_cases h : n = m
      · exact ih fun _ => h ▸ hm
      · exact ih fun hmem => hn (by simp [h, hmem])
    · rw [List.filterMap_cons_some (by rw [hm]; rfl), List.lookup_cons]
      by_cases h : n = m
      · simp [h, hm]
      · have hbeq : (n == m) = false := by simpa using h
        rw [hbeq]
        exact ih fun hmem => hn (by simp [h, hmem])

variable (p : TablePair)

def optionNames : List String :=
  (OrderedSet.ofList
    ((p.comparedOptions p.declared).keys ++ (p.comparedOptions p.live).keys)).toList

/-- The value that an option of the live table is set to. -/
def setTo? (name : String) : Option String :=
  settingOf? name ((p.comparedOptions p.live).get? name) ((p.comparedOptions p.declared).get? name)

def settings : List (String × String) :=
  p.optionDrifts.filterMap fun d => d.sides.declared.map fun v => (d.name, v)

lemma get?_of_notMem_optionNames {name : String} (h : name ∉ p.optionNames) :
    (p.comparedOptions p.live).get? name = none ∧
      (p.comparedOptions p.declared).get? name = none := by
  simpa [optionNames, OrderedMap.mem_keys_iff, and_comm] using h

lemma setTo?_of_notMem {name : String} (h : name ∉ p.optionNames) : p.setTo? name = none := by
  obtain ⟨hl, hd⟩ := p.get?_of_notMem_optionNames h
  rw [setTo?, hl, hd]
  rfl

lemma settings_eq : p.settings = p.optionNames.filterMap fun n => (p.setTo? n).map (n, ·) := by
  rw [settings, optionDrifts, List.filterMap_filterMap]
  refine List.filterMap_congr fun n _ => ?_
  rw [setTo?, settingOf?]
  rcases h : optionDrift? n ((p.comparedOptions p.live).get? n)
    ((p.comparedOptions p.declared).get? n) with _ | d
  · rfl
  · obtain ⟨v, rfl⟩ := optionDrift?_eq_some h
    rfl

lemma lookup_settings (name : String) : p.settings.lookup name = p.setTo? name := by
  rw [settings_eq, lookup_filterMap _ _ fun h => p.setTo?_of_notMem h]

lemma get?_foldl_settings (os : TableOptions) (name : String) :
    (p.settings.foldl (fun os s => os.insert s.1 s.2) os).get? name =
      (p.setTo? name).or (os.get? name) := by
  rw [settings_eq, get?_foldl_insert]
  split
  · rfl
  · rename_i h
    rw [p.setTo?_of_notMem h, Option.none_or]

def optionsAfter : TableOptions := p.live.options.set p.catalog p.settings

lemma get?_optionsAfter {name : String} (h : name ≠ "COLLATE") :
    p.optionsAfter.get? name = (p.setTo? name).or (p.live.options.get? name) := by
  rw [← get?_foldl_settings, optionsAfter, TableOptions.set]
  split
  · split
    · rw [OrderedMap.get?_insert, if_neg h]
    · rw [OrderedMap.get?_erase, if_neg h]
  · rfl

lemma get?_optionsAfter_collate : p.optionsAfter.get? "COLLATE" =
    match p.setTo? "CHARSET", p.setTo? "COLLATE" with
    | some charset, none => (p.catalog.find? charset).map (·.defaultCollation)
    | _, setTo? => setTo?.or (p.live.options.get? "COLLATE") := by
  have hfold := p.get?_foldl_settings p.live.options "COLLATE"
  rw [optionsAfter, TableOptions.set, lookup_settings, lookup_settings]
  rcases hcharset : p.setTo? "CHARSET" with _ | charset
  · exact hfold
  · rcases hcollate : p.setTo? "COLLATE" with _ | collation
    · simp only
      rcases p.catalog.find? charset with _ | facts
      · rw [OrderedMap.get?_erase, if_pos rfl]
        rfl
      · rw [OrderedMap.get?_insert, if_pos rfl]
        rfl
    · rw [hcollate] at hfold
      exact hfold

lemma foldlM_optionSettings {t : Table} (h : t.options = p.live.options) :
    (p.optionSettings.map (·.alteration)).foldlM (Table.alter p.catalog) t =
      some { t with options := p.optionsAfter } := by
  have hsettings : p.optionSettings =
      if p.settings.isEmpty then [] else [.harmless (.setOptions p.settings)] := rfl
  rw [hsettings, optionsAfter, ← h]
  rcases p.settings with _ | ⟨s, ss⟩ <;> rfl

/-! ### Options that are compared -/

/-- The options that do not change by themselves. -/
def keptOptions (t : Table) : TableOptions :=
  t.options.filter fun name _ => !driftingOptions.contains name

lemma get?_keptOptions (t : Table) (name : String) :
    (keptOptions t).get? name =
      if driftingOptions.contains name then none else t.options.get? name := by
  rw [keptOptions, OrderedMap.get?_filter]
  rcases driftingOptions.contains name <;> rcases t.options.get? name <;> rfl

lemma comparedOptions_eq (t : Table) : p.comparedOptions t =
    if (match t.defaultEncoding.effectiveCharset?, (keptOptions t).get? "COLLATE" with
      | some charset, some collation => p.catalog.isDefaultCollation charset collation
      | _, _ => false)
    then (keptOptions t).erase "COLLATE" else keptOptions t := rfl

lemma get?_comparedOptions {t : Table} {name : String} (h : name ≠ "COLLATE") :
    (p.comparedOptions t).get? name =
      if driftingOptions.contains name then none else t.options.get? name := by
  rw [← get?_keptOptions, comparedOptions_eq]
  split
  · split
    · rw [OrderedMap.get?_erase, if_neg h]
    · rfl
  · simp

lemma get?_comparedOptions_collate (t : Table) :
    (p.comparedOptions t).get? "COLLATE" = (t.options.get? "COLLATE").filter fun collation =>
      !(t.defaultEncoding.effectiveCharset?).any fun charset =>
        p.catalog.isDefaultCollation charset collation := by
  have hkept : (keptOptions t).get? "COLLATE" = t.options.get? "COLLATE" :=
    get?_keptOptions t "COLLATE"
  rw [comparedOptions_eq, hkept]
  rcases t.defaultEncoding.effectiveCharset? with _ | charset
  · rcases hcollation : t.options.get? "COLLATE" <;> simp [hkept, hcollation, Option.filter]
  · rcases hcollation : t.options.get? "COLLATE" with _ | collation
    · simp [hkept, hcollation]
    · rcases himplied : p.catalog.isDefaultCollation charset collation with _ | _
      · simp [hkept, hcollation, himplied, Option.filter]
      · simp [himplied, OrderedMap.get?_erase, Option.filter]

/-! ### Convergence of options -/

def charsetAfter? : Option String :=
  (⟨p.optionsAfter.get? "CHARSET", p.optionsAfter.get? "COLLATE"⟩ : Encoding).effectiveCharset?

/-- A declared collation that is not implied by the declared character set is not lost: it is set
wherever the character set is, and the character set that the table gets does not imply it. -/
structure KeepsCollation (p : TablePair) : Prop where
  setBeside : ∀ collation, (p.comparedOptions p.declared).get? "COLLATE" = some collation →
    (p.setTo? "CHARSET").isSome → (p.setTo? "COLLATE").isSome
  notImplied : ∀ collation, (p.comparedOptions p.declared).get? "COLLATE" = some collation →
    (p.setTo? "COLLATE").isSome → ∀ charset ∈ p.charsetAfter?,
      p.catalog.isDefaultCollation charset collation = false

variable {p}

lemma optionDrift?_eq_none_iff {name : String} (h : impliedSetting? name = none)
    {live? : Option String} {b : String} :
    optionDrift? name live? (some b) = none ↔ ∃ a ∈ live?, sameSetting name a b = true := by
  rcases live? with _ | a
  · simp [optionDrift?_none_set, h]
  · rcases hs : sameSetting name a b with _ | _ <;> simp [optionDrift?_set_set, hs]

lemma setTo?_of_declared {name : String} (h : impliedSetting? name = none) {b v : String}
    (hb : (p.comparedOptions p.declared).get? name = some b) (hv : p.setTo? name = some v) :
    v = b := by
  rw [setTo?, settingOf?, hb] at hv
  rcases hlive : (p.comparedOptions p.live).get? name with _ | a
  · rw [hlive, optionDrift?_none_set, h] at hv
    exact (Option.some.inj hv).symm
  · rw [hlive, optionDrift?_set_set] at hv
    split at hv
    · cases hv
    · exact (Option.some.inj hv).symm

lemma setTo?_eq_none_iff {name : String} : p.setTo? name = none ↔
    optionDrift? name ((p.comparedOptions p.live).get? name)
      ((p.comparedOptions p.declared).get? name) = none := by
  rw [setTo?, settingOf?]
  rcases h : optionDrift? name ((p.comparedOptions p.live).get? name)
    ((p.comparedOptions p.declared).get? name) with _ | d
  · simp
  · obtain ⟨v, rfl⟩ := optionDrift?_eq_some h
    simp

lemma setTo?_of_not_declared {name : String} (h : impliedSetting? name = none)
    (hname : (p.comparedOptions p.declared).get? name = none) : p.setTo? name = none := by
  rw [setTo?, settingOf?, hname]
  rcases (p.comparedOptions p.live).get? name with _ | a
  · rfl
  · rw [optionDrift?_set_none, h]
    rfl

section

variable {after : Table} (hafter : after.options = p.optionsAfter)

include hafter in
theorem optionDrift?_after {name : String} (h : name ≠ "COLLATE") :
    optionDrift? name ((p.comparedOptions after).get? name)
      ((p.comparedOptions p.declared).get? name) = none := by
  have hlive := p.get?_comparedOptions (t := p.live) h
  have hdeclared := p.get?_comparedOptions (t := p.declared) h
  rw [p.get?_comparedOptions (t := after) h, hafter, p.get?_optionsAfter h]
  rcases hdrifting : driftingOptions.contains name with _ | _
  · rw [hdrifting] at hlive
    simp only [Bool.false_eq_true, if_false] at hlive ⊢
    rw [← hlive]
    exact optionDrift?_settingOf? ..
  · rw [hdrifting] at hdeclared
    rw [hdeclared]
    rfl

include hafter in
lemma effectiveCharset?_after :
    after.defaultEncoding.effectiveCharset? = p.charsetAfter? := by
  rw [Table.defaultEncoding, hafter]
  rfl

include hafter in
lemma get?_comparedOptions_collate_of_kept (hcharset : p.setTo? "CHARSET" = none)
    (hcollate : p.setTo? "COLLATE" = none) :
    (p.comparedOptions after).get? "COLLATE" = (p.comparedOptions p.live).get? "COLLATE" := by
  have hkept : p.charsetAfter? = p.live.defaultEncoding.effectiveCharset? := by
    rw [charsetAfter?, p.get?_optionsAfter (by decide), get?_optionsAfter_collate, hcharset,
      hcollate]
    rfl
  rw [get?_comparedOptions_collate, get?_comparedOptions_collate,
    effectiveCharset?_after hafter, hkept, hafter, get?_optionsAfter_collate, hcharset, hcollate]
  rfl

include hafter in
/-- A character set that is set alone brings its own collation, which is left out. -/
lemma get?_comparedOptions_collate_of_charset {rows : List (String × String × Nat)}
    (hcatalog : p.catalog = .ofReport rows) {charset : String}
    (hcharset : p.setTo? "CHARSET" = some charset) (hcollate : p.setTo? "COLLATE" = none) :
    (p.comparedOptions after).get? "COLLATE" = none := by
  have hset : p.charsetAfter? = some (Charset.canonical charset) := by
    rw [charsetAfter?, p.get?_optionsAfter (by decide), hcharset]
    rfl
  rw [get?_comparedOptions_collate, effectiveCharset?_after hafter, hset, hafter,
    get?_optionsAfter_collate, hcharset, hcollate, Option.filter_eq_none_iff]
  intro collation hcollation hnot
  obtain ⟨facts, hfacts, rfl⟩ := Option.map_eq_some_iff.1 hcollation
  rw [hcatalog] at hfacts
  simp [hcatalog, Catalog.isDefaultCollation_defaultCollation hfacts] at hnot

include hafter in
lemma get?_comparedOptions_collate_of_set {collation : String}
    (hcollate : p.setTo? "COLLATE" = some collation) :
    (p.comparedOptions after).get? "COLLATE" = (some collation).filter fun collation =>
      !p.charsetAfter?.any fun charset => p.catalog.isDefaultCollation charset collation := by
  rw [get?_comparedOptions_collate, effectiveCharset?_after hafter, hafter,
    get?_optionsAfter_collate, hcollate]
  rcases p.setTo? "CHARSET" <;> rfl

include hafter in
lemma optionDrift?_collate_after {rows : List (String × String × Nat)}
    (hcatalog : p.catalog = .ofReport rows) :
    optionDrift? "COLLATE" ((p.comparedOptions after).get? "COLLATE")
      ((p.comparedOptions p.declared).get? "COLLATE") = none ↔ p.KeepsCollation := by
  have himplied : impliedSetting? "COLLATE" = none := by decide
  rcases hdeclared : (p.comparedOptions p.declared).get? "COLLATE" with _ | declared
  · refine iff_of_true ?_ ⟨fun _ h => ?_, fun _ h => ?_⟩
    · rcases (p.comparedOptions after).get? "COLLATE" with _ | a
      · rfl
      · rw [optionDrift?_set_none, himplied]
        rfl
    all_goals
      rw [hdeclared] at h
      cases h
  -- What becomes of the collation depends on which of the two options is set.
  rcases hcollate : p.setTo? "COLLATE" with _ | collation
  · rcases hcharset : p.setTo? "CHARSET" with _ | charset
    · have hsame := setTo?_eq_none_iff.1 hcollate
      rw [hdeclared] at hsame
      rw [get?_comparedOptions_collate_of_kept hafter hcharset hcollate]
      refine iff_of_true hsame ⟨fun _ _ h => ?_, fun _ _ h => ?_⟩
      · rw [hcharset] at h
        cases h
      · rw [hcollate] at h
        cases h
    · rw [get?_comparedOptions_collate_of_charset hafter hcatalog hcharset hcollate,
        optionDrift?_none_set, himplied]
      refine iff_of_false (by simp) fun h => ?_
      have hbeside := h.setBeside declared hdeclared (by rw [hcharset]; rfl)
      rw [hcollate] at hbeside
      cases hbeside
  · obtain rfl := setTo?_of_declared himplied hdeclared hcollate
    rw [optionDrift?_eq_none_iff himplied, get?_comparedOptions_collate_of_set hafter hcollate]
    constructor
    · rintro ⟨a, ha, -⟩
      obtain ⟨ha, hnot⟩ := Option.filter_eq_some_iff.1 ha
      obtain rfl := Option.some.inj ha
      refine ⟨fun _ _ _ => by rw [hcollate]; rfl, fun c hc _ charset hcharset => ?_⟩
      obtain rfl := Option.some.inj (hdeclared.symm.trans hc)
      simpa [Option.mem_def.1 hcharset] using hnot
    · intro h
      refine ⟨collation, Option.filter_eq_some_iff.2 ⟨rfl, ?_⟩, sameSetting_self ..⟩
      rcases hcharset : p.charsetAfter? with _ | charset
      · rfl
      · simp [h.notImplied collation hdeclared (by rw [hcollate]; rfl) charset hcharset]

include hafter in
/-- **Options converge** exactly if a declared collation is not lost. -/
theorem optionDrifts_after_iff {rows : List (String × String × Nat)}
    (hcatalog : p.catalog = .ofReport rows) :
    (⟨after, p.declared, p.catalog⟩ : TablePair).optionDrifts = [] ↔ p.KeepsCollation := by
  rw [← optionDrift?_collate_after hafter hcatalog, optionDrifts, List.filterMap_eq_nil_iff]
  constructor
  · intro h
    by_cases hn : "COLLATE" ∈ (⟨after, p.declared, p.catalog⟩ : TablePair).optionNames
    · exact h _ hn
    · obtain ⟨hl, hd⟩ := get?_of_notMem_optionNames _ hn
      exact (congrArg₂ (optionDrift? "COLLATE") hl hd).trans rfl
  · intro h name _
    by_cases hn : name = "COLLATE"
    · exact hn ▸ h
    · exact optionDrift?_after hafter hn

include hafter in
lemma defaultEncoding_after (h : p.declared.defaultEncoding.isEmpty) :
    after.defaultEncoding = p.live.defaultEncoding := by
  obtain ⟨hcharset, hcollate⟩ : p.declared.options.get? "CHARSET" = none ∧
      p.declared.options.get? "COLLATE" = none := by
    simpa [Table.defaultEncoding, Encoding.isEmpty] using h
  have hcharset : p.setTo? "CHARSET" = none := by
    refine setTo?_of_not_declared (by decide) ?_
    rw [p.get?_comparedOptions (by decide), hcharset]
    rfl
  have hcollate : p.setTo? "COLLATE" = none := by
    refine setTo?_of_not_declared (by decide) ?_
    rw [get?_comparedOptions_collate, hcollate]
    rfl
  rw [Table.defaultEncoding, hafter, p.get?_optionsAfter (by decide), get?_optionsAfter_collate,
    hcharset, hcollate]
  rfl

end

end TablePair

end SchemaDrift
