import Mathlib
import SchemaDrift.Proofs.TableAfter

/-!
Whether a table has the options that its declaration writes, once its alterations have been carried
out. Of all options that are compared only the collation can be missed. It is subject to the
character set: as the default of the declared one it is not compared, although the live table may
have another collation, and a character set that is set without it brings a collation of its own.
-/

namespace SchemaDrift

open Text (lower sameName)
open TablePair (sameSetting impliedSetting?)

/-! ### Having an option -/

namespace Table

/-- The character set that is in force implies the collation. -/
def impliesCollation (catalog : Catalog) (t : Table) (collation : String) : Bool :=
  t.encodingInForce.effectiveCharset?.any (catalog.isDefaultCollation · collation)

/-- A table that does not set the option has this value. -/
def Implies (catalog : Catalog) (t : Table) (name value : String) : Prop :=
  if name = "COLLATE" then t.impliesCollation catalog value = true
  else ∃ d ∈ impliedSetting? name, sameSetting name value d = true

/-- The table has the option with a value that means the same as `value`. -/
def Honours (catalog : Catalog) (t : Table) (name value : String) : Prop :=
  (∃ v ∈ t.options.get? name, sameSetting name v value = true) ∨
    t.options.get? name = none ∧ t.Implies catalog name value

variable {catalog : Catalog} {t : Table} {name value : String}

lemma honours_iff_of_some {v : String} (h : t.options.get? name = some v) :
    t.Honours catalog name value ↔ sameSetting name v value = true := by
  simp [Honours, h]

lemma honours_iff_of_none (h : t.options.get? name = none) :
    t.Honours catalog name value ↔ t.Implies catalog name value := by
  simp [Honours, h]

end Table

namespace TablePair

variable (p : TablePair)

def SetsCharset : Prop :=
  ∃ charset ∈ p.declared.options.get? "CHARSET",
    ∀ other ∈ p.live.options.get? "CHARSET", sameName other charset = false

/-- How a declared collation is missed. -/
inductive LosesCollation (collation : String) : Prop where
  /-- As the default it is not compared, and the live table sets another one. -/
  | passedOver {other : String} (hkept : ¬p.SetsCharset)
      (hdefault : p.declared.impliesCollation p.catalog collation = true)
      (hlive : p.live.options.get? "COLLATE" = some other)
      (hother : sameName other collation = false)
  /-- As the default it is not compared, and the live table has a character set that does not imply
  it. -/
  | elsewhere (hkept : ¬p.SetsCharset)
      (hdefault : p.declared.impliesCollation p.catalog collation = true)
      (hlive : p.live.options.get? "COLLATE" = none)
      (hother : p.live.impliesCollation p.catalog collation = false)
  /-- The live table has it already, and gets a character set that brings another one. -/
  | replaced {other : String} (hset : p.SetsCharset)
      (hnot : p.declared.impliesCollation p.catalog collation = false)
      (hlive : p.live.options.get? "COLLATE" = some other)
      (hother : p.live.impliesCollation p.catalog other = false)
      (hsame : sameName other collation = true)
  /-- The character set that is set brings it, under another name. -/
  | renamed (hset : p.SetsCharset)
      (hdefault : p.declared.impliesCollation p.catalog collation = true)
      (hname : lower collation ≠ Charset.canonicalCollation collation)

/-! ### Options other than the collation -/

lemma optionDrift?_set_eq_none {name : String} {live? : Option String} {value : String}
    (h : optionDrift? name live? (some value) = none) :
    (∃ v ∈ live?, sameSetting name v value = true) ∨
      live? = none ∧ ∃ d ∈ impliedSetting? name, sameSetting name value d = true := by
  rcases live? with _ | v
  · rw [optionDrift?_none_set] at h
    split at h
    · rename_i himplied
      obtain ⟨d, hd, hsame⟩ := (Option.any_eq_true _ _).1 himplied
      exact .inr ⟨rfl, d, hd, hsame⟩
    · cases h
  · rw [optionDrift?_set_set] at h
    split at h
    · rename_i hsame
      exact .inl ⟨v, rfl, hsame⟩
    · cases h

/-- The live table with the options that its alterations leave, carried out in order. -/
def reset : Table :=
  { p.live with
    options := (p.alterations.map (·.alteration)).foldl (fun os a => a.onOptions p.catalog os)
      p.live.options }

lemma options_reset : p.reset.options = p.optionsAfter := by
  have hidle : (p.rearrangements.map (·.alteration)).foldl
      (fun os a => a.onOptions p.catalog os) p.live.options = p.live.options :=
    (List.foldl_ext _ (fun os _ => os) _
      fun os a ha => p.onOptions_of_mem_rearrangements ha os).trans (List.foldl_fixed _)
  have hsettings : p.optionSettings =
      if p.settings.isEmpty then [] else [.harmless (.setOptions p.settings)] := rfl
  rw [reset, alterations_eq, List.map_append, List.foldl_append, hidle, hsettings, optionsAfter]
  rcases p.settings with _ | ⟨s, ss⟩ <;> rfl

variable {p}

lemma honours_of_ne_collate {name value : String} (hcollate : name ≠ "COLLATE")
    (hcounter : name ≠ "AUTO_INCREMENT") (h : p.declared.options.get? name = some value) :
    p.reset.Honours p.catalog name value := by
  have hkept : driftingOptions.contains name = false := by simpa [driftingOptions] using hcounter
  have hcompared (t : Table) : (p.comparedOptions t).get? name = t.options.get? name := by
    rw [p.get?_comparedOptions hcollate, hkept]
    simp
  have hdrift := optionDrift?_after p.options_reset hcollate
  rw [hcompared, hcompared, h] at hdrift
  rcases optionDrift?_set_eq_none hdrift with hset | ⟨hnone, himplied⟩
  · exact .inl hset
  · exact .inr ⟨hnone, by rwa [Table.Implies, if_neg hcollate]⟩

/-! ### The collation -/

lemma sameSetting_collate (a b : String) : sameSetting "COLLATE" a b = sameName a b := rfl

lemma isSome_setTo?_iff {name : String} (h : impliedSetting? name = none) :
    (p.setTo? name).isSome ↔ ∃ value ∈ (p.comparedOptions p.declared).get? name,
      ∀ other ∈ (p.comparedOptions p.live).get? name, sameSetting name other value = false := by
  rcases hdeclared : (p.comparedOptions p.declared).get? name with _ | value
  · simp [setTo?_of_not_declared h hdeclared]
  · rw [Option.isSome_iff_ne_none, ne_eq, setTo?_eq_none_iff, hdeclared, optionDrift?_eq_none_iff h]
    simp

lemma isSome_setTo?_charset_iff : (p.setTo? "CHARSET").isSome ↔ p.SetsCharset := by
  have hcompared (t : Table) : (p.comparedOptions t).get? "CHARSET" = t.options.get? "CHARSET" :=
    p.get?_comparedOptions (by decide)
  rw [isSome_setTo?_iff (by decide), hcompared, hcompared]
  rfl

lemma setTo?_charset {charset : String} (h : p.setTo? "CHARSET" = some charset) :
    p.declared.options.get? "CHARSET" = some charset := by
  have hcompared : (p.comparedOptions p.declared).get? "CHARSET" =
      p.declared.options.get? "CHARSET" := p.get?_comparedOptions (by decide)
  rw [← hcompared]
  rcases hdeclared : (p.comparedOptions p.declared).get? "CHARSET" with _ | charset'
  · rw [setTo?_of_not_declared (by decide) hdeclared] at h
    cases h
  · rw [setTo?_of_declared (by decide) hdeclared h]

lemma get?_comparedOptions_of_collate {t : Table} {collation : String}
    (h : t.options.get? "COLLATE" = some collation) : (p.comparedOptions t).get? "COLLATE" =
      if t.impliesCollation p.catalog collation then none else some collation := by
  have hinForce : t.encodingInForce = t.defaultEncoding := by
    simp [Table.encodingInForce, Table.defaultEncoding, Encoding.isEmpty, h]
  rw [get?_comparedOptions_collate, h, Table.impliesCollation, hinForce]
  rcases himplied : t.defaultEncoding.effectiveCharset?.any
    (p.catalog.isDefaultCollation · collation) with _ | _
  · simp only [Option.filter, himplied, Bool.not_false, if_true, Bool.false_eq_true, if_false]
  · simp only [Option.filter, himplied, Bool.not_true, Bool.false_eq_true, if_false, if_true]

lemma isSome_setTo?_collate_iff {collation : String}
    (h : p.declared.options.get? "COLLATE" = some collation) : (p.setTo? "COLLATE").isSome ↔
      p.declared.impliesCollation p.catalog collation = false ∧
        ∀ other ∈ p.live.options.get? "COLLATE",
          p.live.impliesCollation p.catalog other = true ∨ sameName other collation = false := by
  rw [isSome_setTo?_iff (by decide), get?_comparedOptions_of_collate h]
  rcases hdeclared : p.declared.impliesCollation p.catalog collation with _ | _
  · rcases hlive : p.live.options.get? "COLLATE" with _ | other
    · simp [get?_comparedOptions_collate, hlive]
    · rw [get?_comparedOptions_of_collate hlive]
      rcases himplied : p.live.impliesCollation p.catalog other with _ | _ <;>
        simp [sameSetting_collate, himplied]
  · simp

lemma honours_of_setTo?_collate {collation : String}
    (h : p.declared.options.get? "COLLATE" = some collation) (hset : (p.setTo? "COLLATE").isSome) :
    p.reset.Honours p.catalog "COLLATE" collation ∧ ¬p.LosesCollation collation := by
  obtain ⟨hnot, hlive⟩ := (isSome_setTo?_collate_iff h).1 hset
  obtain ⟨value, hvalue⟩ := Option.isSome_iff_exists.1 hset
  constructor
  · have hcompared : (p.comparedOptions p.declared).get? "COLLATE" = some collation := by
      rw [get?_comparedOptions_of_collate h, hnot]
      rfl
    obtain rfl := setTo?_of_declared (by decide) hcompared hvalue
    refine .inl ⟨value, ?_, sameSetting_self ..⟩
    rw [options_reset, p.get?_optionsAfter_collate, hvalue]
    rcases p.setTo? "CHARSET" <;> rfl
  · rintro (⟨-, hdefault, -, -⟩ | ⟨-, hdefault, -, -⟩ | ⟨-, -, hother, himplied, hsame⟩ |
      ⟨-, hdefault, -⟩)
    · simp [hnot] at hdefault
    · simp [hnot] at hdefault
    · simpa [himplied, hsame] using hlive _ hother
    · simp [hnot] at hdefault

lemma exists_live_collate {collation : String}
    (h : p.declared.options.get? "COLLATE" = some collation) (hcollate : p.setTo? "COLLATE" = none)
    (hdeclared : p.declared.impliesCollation p.catalog collation = false) :
    ∃ other, p.live.options.get? "COLLATE" = some other ∧
      p.live.impliesCollation p.catalog other = false ∧ sameName other collation = true := by
  have hnot : ¬(p.setTo? "COLLATE").isSome := by simp [hcollate]
  rw [isSome_setTo?_collate_iff h] at hnot
  simpa [hdeclared] using hnot

/-! ### The collation where no character set is set -/

lemma losesCollation_iff_of_kept {collation : String} (hkept : ¬p.SetsCharset) :
    p.LosesCollation collation ↔ p.declared.impliesCollation p.catalog collation = true ∧
      ¬p.live.Honours p.catalog "COLLATE" collation := by
  constructor
  · rintro (⟨-, hdefault, hlive, hother⟩ | ⟨-, hdefault, hlive, hother⟩ | ⟨hset, -⟩ | ⟨hset, -⟩)
    · refine ⟨hdefault, ?_⟩
      simp [Table.honours_iff_of_some hlive, sameSetting_collate, hother]
    · refine ⟨hdefault, ?_⟩
      simp [Table.honours_iff_of_none hlive, Table.Implies, hother]
    · exact absurd hset hkept
    · exact absurd hset hkept
  · rintro ⟨hdefault, hnot⟩
    rcases hlive : p.live.options.get? "COLLATE" with _ | other
    · rw [Table.honours_iff_of_none hlive, Table.Implies, if_pos rfl] at hnot
      exact .elsewhere hkept hdefault hlive (by simpa using hnot)
    · rw [Table.honours_iff_of_some hlive, sameSetting_collate] at hnot
      exact .passedOver hkept hdefault hlive (by simpa using hnot)

lemma honours_reset_iff_of_kept {collation : String} (hcharset : ¬p.SetsCharset)
    (hcollate : p.setTo? "COLLATE" = none) :
    p.reset.Honours p.catalog "COLLATE" collation ↔
      p.live.Honours p.catalog "COLLATE" collation := by
  have hnotSet : p.setTo? "CHARSET" = none := by
    rw [← isSome_setTo?_charset_iff, Option.not_isSome_iff_eq_none] at hcharset
    exact hcharset
  have hsetCharset : p.reset.options.get? "CHARSET" = p.live.options.get? "CHARSET" := by
    rw [options_reset, p.get?_optionsAfter (by decide), hnotSet, Option.none_or]
  have hsetCollate : p.reset.options.get? "COLLATE" = p.live.options.get? "COLLATE" := by
    rw [options_reset, p.get?_optionsAfter_collate, hnotSet, hcollate]
    rfl
  have hdefault : p.reset.defaultEncoding = p.live.defaultEncoding := by
    rw [Table.defaultEncoding, Table.defaultEncoding, hsetCharset, hsetCollate]
  have himplies : p.reset.impliesCollation p.catalog collation =
      p.live.impliesCollation p.catalog collation := by
    rw [Table.impliesCollation, Table.impliesCollation, Table.encodingInForce,
      Table.encodingInForce, hdefault]
  rw [Table.Honours, Table.Honours, hsetCollate, Table.Implies, Table.Implies, himplies]

lemma honours_iff_of_kept {collation : String}
    (h : p.declared.options.get? "COLLATE" = some collation) (hcharset : ¬p.SetsCharset)
    (hcollate : p.setTo? "COLLATE" = none) :
    p.reset.Honours p.catalog "COLLATE" collation ↔ ¬p.LosesCollation collation := by
  rw [honours_reset_iff_of_kept hcharset hcollate, losesCollation_iff_of_kept hcharset,
    not_and_not_right]
  refine ⟨fun hlive _ => hlive, fun hkeeps => ?_⟩
  rcases hdeclared : p.declared.impliesCollation p.catalog collation with _ | _
  · obtain ⟨other, hlive, -, hsame⟩ := exists_live_collate h hcollate hdeclared
    exact .inl ⟨other, hlive, hsame⟩
  · exact hkeeps hdeclared

/-! ### The collation where a character set is set -/

lemma sameName_defaultCollation_iff {rows : List (String × String × Nat)}
    {charset collation : String} {facts : CharsetFacts}
    (hfacts : (Catalog.ofReport rows).find? charset = some facts) :
    sameName facts.defaultCollation collation = true ↔
      (Catalog.ofReport rows).isDefaultCollation charset collation = true ∧
        lower collation = Charset.canonicalCollation collation := by
  have hcanonical := Catalog.canonicalCollation_defaultCollation hfacts
  have hdefault : (Catalog.ofReport rows).isDefaultCollation charset collation = true ↔
      facts.defaultCollation = Charset.canonicalCollation collation := by
    simp [Catalog.isDefaultCollation, hfacts]
  rw [hdefault, Text.sameName_iff]
  constructor
  · intro hlower
    have hnames : facts.defaultCollation = Charset.canonicalCollation collation := by
      rw [← hcanonical, Charset.canonicalCollation, Charset.canonicalCollation, hlower]
    refine ⟨hnames, ?_⟩
    rw [← hlower, hnames, Charset.lower_canonicalCollation]
  · rintro ⟨hnames, hlower⟩
    rw [hnames, Charset.lower_canonicalCollation, hlower]

lemma honours_reset_iff_of_set {rows : List (String × String × Nat)}
    (hcatalog : p.catalog = .ofReport rows) {collation : String} (hcharset : p.SetsCharset)
    (hcollate : p.setTo? "COLLATE" = none) :
    p.reset.Honours p.catalog "COLLATE" collation ↔
      p.declared.impliesCollation p.catalog collation = true ∧
        lower collation = Charset.canonicalCollation collation := by
  obtain ⟨charset, hset⟩ := Option.isSome_iff_exists.1 (isSome_setTo?_charset_iff.2 hcharset)
  have himplies {t : Table} (ht : t.options.get? "CHARSET" = some charset) :
      t.impliesCollation p.catalog collation = p.catalog.isDefaultCollation charset collation := by
    simp [Table.impliesCollation, Table.encodingInForce, Table.defaultEncoding, Encoding.isEmpty,
      Encoding.effectiveCharset?, ht, Catalog.isDefaultCollation, Catalog.find?,
      Charset.canonical_canonical]
  have hsetCharset : p.reset.options.get? "CHARSET" = some charset := by
    rw [options_reset, p.get?_optionsAfter (by decide), hset, Option.some_or]
  have hsetCollate : p.reset.options.get? "COLLATE" =
      (p.catalog.find? charset).map (·.defaultCollation) := by
    rw [options_reset, p.get?_optionsAfter_collate, hset, hcollate]
  rw [himplies (setTo?_charset hset)]
  rcases hfacts : p.catalog.find? charset with _ | facts
  · rw [hfacts] at hsetCollate
    rw [Table.honours_iff_of_none hsetCollate, Table.Implies, if_pos rfl, himplies hsetCharset]
    simp [Catalog.isDefaultCollation, hfacts]
  · rw [hfacts] at hsetCollate
    rw [hcatalog] at hfacts ⊢
    rw [Table.honours_iff_of_some hsetCollate, sameSetting_collate,
      sameName_defaultCollation_iff hfacts]

lemma honours_iff_of_charset {rows : List (String × String × Nat)}
    (hcatalog : p.catalog = .ofReport rows) {collation : String}
    (h : p.declared.options.get? "COLLATE" = some collation) (hcharset : p.SetsCharset)
    (hcollate : p.setTo? "COLLATE" = none) :
    p.reset.Honours p.catalog "COLLATE" collation ↔ ¬p.LosesCollation collation := by
  rw [honours_reset_iff_of_set hcatalog hcharset hcollate]
  constructor
  · rintro ⟨hdefault, hname⟩ (⟨hkept, -⟩ | ⟨hkept, -⟩ | ⟨-, hother, -⟩ | ⟨-, -, hrenamed⟩)
    · exact hkept hcharset
    · exact hkept hcharset
    · simp [hdefault] at hother
    · exact hrenamed hname
  · intro hkeeps
    rcases hdefault : p.declared.impliesCollation p.catalog collation with _ | _
    · obtain ⟨other, hlive, himplied, hsame⟩ := exists_live_collate h hcollate hdefault
      exact absurd (.replaced hcharset hdefault hlive himplied hsame) hkeeps
    · refine ⟨rfl, ?_⟩
      by_contra hname
      exact hkeeps (.renamed hcharset hdefault hname)

/-- **The declared collation** is missed in the ways listed, and in no other. -/
theorem honours_collate_iff {rows : List (String × String × Nat)}
    (hcatalog : p.catalog = .ofReport rows) {collation : String}
    (h : p.declared.options.get? "COLLATE" = some collation) :
    p.reset.Honours p.catalog "COLLATE" collation ↔ ¬p.LosesCollation collation := by
  by_cases hcollate : (p.setTo? "COLLATE").isSome
  · obtain ⟨hhonours, hkeeps⟩ := honours_of_setTo?_collate h hcollate
    exact iff_of_true hhonours hkeeps
  · rw [Option.not_isSome_iff_eq_none] at hcollate
    by_cases hcharset : p.SetsCharset
    · exact honours_iff_of_charset hcatalog h hcharset hcollate
    · exact honours_iff_of_kept h hcharset hcollate

end TablePair

/-- **Declared options.** The steps between two tables are those of their alterations. When these
have been carried out, the live table has every option that the declaration writes, the counter
apart, with a value that means the declared one or by implying it, unless it is a collation that is
missed in one of the ways listed. -/
theorem TableDrift.honours_declared_iff (live declared : Table)
    (rows : List (String × String × Nat)) :
    let p : TablePair := ⟨live, declared, .ofReport rows⟩
    (⟨⟨some live, some declared⟩, .ofReport rows⟩ : TableDrift).steps =
        p.alterations.map (PlannedAlteration.step p.name) ∧
      ∀ name value, name ≠ "AUTO_INCREMENT" → declared.options.get? name = some value →
        (p.reset.Honours p.catalog name value ↔
          (name = "COLLATE" → ¬p.LosesCollation value)) := by
  intro p
  refine ⟨rfl, fun name value hcounter hvalue => ?_⟩
  by_cases hcollate : name = "COLLATE"
  · subst hcollate
    simpa using TablePair.honours_collate_iff (p := p) rfl hvalue
  · exact iff_of_true (TablePair.honours_of_ne_collate hcollate hcounter hvalue)
      fun h => absurd h hcollate

theorem TableDrift.honours_declared_together :
    let live : Table := { Table.ofNames ["a"] with
      options := .ofList [("CHARSET", "latin1"), ("ENGINE", "InnoDB")] }
    let declared : Table := { Table.ofNames ["a"] with
      options := .ofList [("CHARSET", "utf8mb4"), ("COLLATE", "utf8mb4_bin")] }
    let p : TablePair := ⟨live, declared, .ofReport []⟩
    "COLLATE" ≠ "AUTO_INCREMENT" ∧ declared.options.get? "COLLATE" = some "utf8mb4_bin" ∧
      ¬p.LosesCollation "utf8mb4_bin" ∧ p.reset.Honours p.catalog "COLLATE" "utf8mb4_bin" := by
  intro live declared p
  have hcounter : "COLLATE" ≠ "AUTO_INCREMENT" := by decide
  have hvalue : declared.options.get? "COLLATE" = some "utf8mb4_bin" := by decide
  have hkeeps : ¬p.LosesCollation "utf8mb4_bin" := by
    have hnot : p.declared.impliesCollation p.catalog "utf8mb4_bin" = false := by decide
    have hlive : p.live.options.get? "COLLATE" = none := by decide
    rintro (⟨-, hdefault, -, -⟩ | ⟨-, hdefault, -, -⟩ | ⟨-, -, hother, -, -⟩ | ⟨-, hdefault, -⟩)
    · simp [hnot] at hdefault
    · simp [hnot] at hdefault
    · simp [hlive] at hother
    · simp [hnot] at hdefault
  exact ⟨hcounter, hvalue, hkeeps, ((TableDrift.honours_declared_iff live declared []).2 "COLLATE"
    "utf8mb4_bin" hcounter hvalue).2 fun _ => hkeeps⟩

/-- A declared collation is the default one, and the live table, which sets another, is left as it
is. -/
theorem TableDrift.not_honours_default :
    let declared : Table := { Table.ofNames ["a"] with
      options := .ofList [("CHARSET", "utf8mb4"), ("COLLATE", "utf8mb4_0900_ai_ci")] }
    let live : Table := { Table.ofNames ["a"] with
      options := .ofList [("CHARSET", "utf8mb4"), ("COLLATE", "utf8mb4_bin")] }
    let p : TablePair := ⟨live, declared, .builtin⟩
    Statement.read .double
        "CREATE TABLE t (a INT) DEFAULT CHARSET=utf8mb4 COLLATE=utf8mb4_0900_ai_ci" =
        .table declared ∧
      Statement.read .double "CREATE TABLE t (a INT) DEFAULT CHARSET=utf8mb4 COLLATE=utf8mb4_bin" =
        .table live ∧
      p.alterations = [] ∧ ¬p.reset.Honours .builtin "COLLATE" "utf8mb4_0900_ai_ci" := by
  intro declared live p
  refine ⟨by decide +kernel, by decide +kernel, by decide +kernel, ?_⟩
  have hkept : p.reset.options.get? "COLLATE" = some "utf8mb4_bin" := by decide +kernel
  rw [Table.honours_iff_of_some hkept]
  decide

end SchemaDrift
