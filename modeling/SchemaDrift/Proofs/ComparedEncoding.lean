import Mathlib
import SchemaDrift.Proofs.Respelling

/-!
What the canonical form of an encoding tells. Two text columns have equal canonical encodings
exactly if they count as having the same character set and collation. That is what a server stores,
with one exception: a column that names the character set of its table and no collation counts as
having the table's collation, while a server gives it the one that the character set implies.
-/

namespace SchemaDrift

namespace Encoding

/-! ### Two readings of an encoding -/

/-- The same character set, given in canonical form, and the same collation under any of its
names. -/
structure SameNames (a b : Encoding) : Prop where
  charset : a.charset = b.charset
  collation : a.collation.map Charset.canonicalCollation =
    b.collation.map Charset.canonicalCollation

/-- A column of encoding `e` names no collation, and no other character set than its table, whose
default is `d`. -/
def LeavesOpen (e d : Encoding) : Prop :=
  e.collation = .none ∧ e.effectiveCharset?.or d.effectiveCharset? = d.effectiveCharset?

instance (e d : Encoding) : Decidable (e.LeavesOpen d) := inferInstanceAs (Decidable (_ ∧ _))

/-- Character set and collation that a text column counts as having when it is compared. -/
def counted (catalog : Catalog) (e d : Encoding) : Encoding :=
  (if e.LeavesOpen d then d else e).resolved catalog

/-- The column names the character set of its table and no collation, and the table has another
collation than the character set implies. -/
def IsMistaken (catalog : Catalog) (e d : Encoding) : Prop :=
  e.charset.isSome ∧ e.LeavesOpen d ∧ ∃ charset ∈ d.effectiveCharset?,
    ∃ collation ∈ d.collation, catalog.isDefaultCollation charset collation = false

namespace SameNames

variable {a b c : Encoding}

lemma symm (h : a.SameNames b) : b.SameNames a := ⟨h.charset.symm, h.collation.symm⟩

lemma trans (h : a.SameNames b) (h' : b.SameNames c) : a.SameNames c :=
  ⟨h.charset.trans h'.charset, h.collation.trans h'.collation⟩

end SameNames

variable {rows : List (String × String × Nat)}

/-! ### Resolved encodings -/

lemma isDefaultCollation_iff {charset collation : String} {catalog : Catalog} :
    catalog.isDefaultCollation charset collation = true ↔
      (catalog.find? charset).map (·.defaultCollation) =
        some (Charset.canonicalCollation collation) := by
  rcases h : catalog.find? charset with _ | facts <;> simp [Catalog.isDefaultCollation, h]

lemma map_collation_resolved (e : Encoding) :
    (e.resolved (.ofReport rows)).collation.map Charset.canonicalCollation =
      (ownCollation? (.ofReport rows) e.effectiveCharset? e.collation).or
        ((e.effectiveCharset?.bind (Catalog.ofReport rows).find?).map (·.defaultCollation)) := by
  rcases hcollation : e.collation with _ | collation
  · rcases hfacts : e.effectiveCharset?.bind (Catalog.ofReport rows).find? with _ | facts
    · simp [resolved, hcollation, hfacts, ownCollation?]
    · obtain ⟨charset, -, hfound⟩ := Option.bind_eq_some_iff.1 hfacts
      simp [resolved, hcollation, hfacts, ownCollation?,
        Catalog.canonicalCollation_defaultCollation hfound]
  · obtain ⟨charset, hcharset⟩ : ∃ charset, e.effectiveCharset? = some charset := by
      rw [← Option.isSome_iff_exists, Option.isSome_iff_ne_none]
      intro hnone
      rw [collation_eq_none hnone] at hcollation
      cases hcollation
    have hresolved : (e.resolved (.ofReport rows)).collation = some collation := by
      simp [resolved, hcollation]
    rw [hresolved, hcharset, Option.map_some, Option.bind_some]
    -- The collation is left out exactly if it is the default.
    rcases himplied : (Catalog.ofReport rows).isDefaultCollation charset
      (Charset.canonicalCollation collation) with _ | _
    · simp [ownCollation?, Option.filter, himplied]
    · have hdefault := isDefaultCollation_iff.1 himplied
      rw [Charset.canonicalCollation_canonicalCollation] at hdefault
      simp [ownCollation?, Option.filter, himplied, hdefault]

lemma ownCollation?_resolved (e : Encoding) :
    ownCollation? (.ofReport rows) e.effectiveCharset? (e.resolved (.ofReport rows)).collation =
      ownCollation? (.ofReport rows) e.effectiveCharset? e.collation := by
  rcases hcollation : e.collation with _ | collation
  · rcases hcharset : e.effectiveCharset? with _ | charset
    · simp [resolved, hcollation, hcharset]
    · refine Eq.trans (ownCollation?_of_isDefault fun collation hc => ?_) rfl
      have hdefault : ((Catalog.ofReport rows).find? charset).map (·.defaultCollation) =
          some collation := by simpa [resolved, hcollation, hcharset] using hc
      obtain ⟨facts, hfacts, rfl⟩ := Option.map_eq_some_iff.1 hdefault
      rw [← Catalog.isDefaultCollation_canonical]
      exact Catalog.isDefaultCollation_defaultCollation hfacts
  · simp [resolved, hcollation]

lemma ownCollation?_eq_none_iff {catalog : Catalog} {charset : String}
    {collation? : Option String} : ownCollation? catalog (some charset) collation? = .none ↔
      ∀ collation ∈ collation?, catalog.isDefaultCollation charset collation = true := by
  refine ⟨fun h collation hc => ?_, ownCollation?_of_isDefault⟩
  obtain rfl := Option.mem_def.1 hc
  have hcanonical : catalog.isDefaultCollation charset (Charset.canonicalCollation collation) =
      catalog.isDefaultCollation charset collation :=
    Catalog.isDefaultCollation_congr (Charset.canonicalCollation_canonicalCollation collation)
  simpa [ownCollation?, Option.filter_eq_none_iff, hcanonical] using h

lemma sameNames_resolved_iff {e e' : Encoding} :
    (e.resolved (.ofReport rows)).SameNames (e'.resolved (.ofReport rows)) ↔
      e.effectiveCharset? = e'.effectiveCharset? ∧
        ownCollation? (.ofReport rows) e.effectiveCharset? e.collation =
          ownCollation? (.ofReport rows) e'.effectiveCharset? e'.collation := by
  constructor
  · rintro ⟨hcharset, hcollation⟩
    have hcharset : e.effectiveCharset? = e'.effectiveCharset? := hcharset
    refine ⟨hcharset, ?_⟩
    rw [← ownCollation?_resolved e, ← ownCollation?_resolved e', hcharset]
    exact ownCollation?_congr hcollation
  · rintro ⟨hcharset, hown⟩
    refine ⟨hcharset, ?_⟩
    rw [map_collation_resolved, map_collation_resolved, hown, hcharset]

/-! ### What is compared -/

/-- The canonical form is what a column counts as, without a collation that its character set
implies. -/
lemma canonical_eq_ite (e d : Encoding) (catalog : Catalog) : e.canonical d catalog =
    let source := if e.LeavesOpen d then d else e
    ⟨source.effectiveCharset?,
      ownCollation? catalog source.effectiveCharset? source.collation⟩ := by
  rw [canonical_eq]
  by_cases h : e.LeavesOpen d
  · simp [h, h.1, h.2]
  · -- The column names a collation, or another character set than its table.
    rcases hcollation : e.collation with _ | collation
    · have hne : e.effectiveCharset?.or d.effectiveCharset? ≠ d.effectiveCharset? :=
        fun he => h ⟨hcollation, he⟩
      rcases hcharset : e.effectiveCharset? with _ | charset
      · simp [hcharset] at hne
      · have hd : d.effectiveCharset? ≠ some charset := by
          simpa [hcharset, eq_comm] using hne
        simp [h, hcollation, hcharset, hd]
    · have hcharset : e.effectiveCharset?.or d.effectiveCharset? = e.effectiveCharset? := by
        rcases hc : e.effectiveCharset? with _ | charset
        · rw [collation_eq_none hc] at hcollation
          cases hcollation
        · rfl
      simp [h, hcollation, hcharset]

lemma sameNames_counted_stored_iff {e d : Encoding} :
    (e.counted (.ofReport rows) d).SameNames (e.stored (.ofReport rows) d) ↔
      ¬e.IsMistaken (.ofReport rows) d := by
  by_cases hopen : e.LeavesOpen d
  · rcases hcharset : e.charset with _ | charset
    · have hempty : e.isEmpty = true := by simp [isEmpty, hcharset, hopen.1]
      have hsame : e.counted (.ofReport rows) d = e.stored (.ofReport rows) d := by
        rw [counted, stored, if_pos hopen, if_pos hempty]
      exact iff_of_true (hsame ▸ ⟨rfl, rfl⟩) fun h => by simp [IsMistaken, hcharset] at h
    · -- The server has the default collation, so that any other one of the table's is a mistake.
      have hempty : e.isEmpty = false := by simp [isEmpty, hcharset]
      have he : e.effectiveCharset? = some (Charset.canonical charset) := by
        simp [effectiveCharset?, hcharset]
      have hd : d.effectiveCharset? = some (Charset.canonical charset) := by
        simpa [he, eq_comm] using hopen.2
      have hnone : ownCollation? (.ofReport rows) (some (Charset.canonical charset)) .none =
          .none := rfl
      rw [counted, stored, if_pos hopen, if_neg (by simp [hempty]), sameNames_resolved_iff, hd, he,
        hopen.1, hnone, ownCollation?_eq_none_iff]
      simp [IsMistaken, hopen, hcharset, hd]
  · have hempty : e.isEmpty = false := by
      rw [Bool.eq_false_iff]
      intro hempty
      obtain ⟨hcharset, hcollation⟩ : e.charset = .none ∧ e.collation = .none := by
        simpa [isEmpty] using hempty
      exact hopen ⟨hcollation, by simp [effectiveCharset?, hcharset, hcollation]⟩
    have hsame : e.counted (.ofReport rows) d = e.stored (.ofReport rows) d := by
      rw [counted, stored, if_neg hopen, if_neg (by simp [hempty])]
    exact iff_of_true (hsame ▸ ⟨rfl, rfl⟩) fun h => hopen h.2.1

lemma canonical_eq_canonical_iff {e₁ d₁ e₂ d₂ : Encoding} :
    e₁.canonical d₁ (.ofReport rows) = e₂.canonical d₂ (.ofReport rows) ↔
      (e₁.counted (.ofReport rows) d₁).SameNames (e₂.counted (.ofReport rows) d₂) := by
  rw [canonical_eq_ite, canonical_eq_ite, counted, counted, sameNames_resolved_iff,
    Encoding.mk.injEq]

/-- **What canonical encodings tell.** Two text columns have equal canonical encodings exactly if
they count as having the same character set and collation. A column counts as having those that the
server stores exactly if it is not mistaken, so that the canonical encodings of two columns of which
none is mistaken are equal exactly if the server stores the same. -/
theorem canonical_eq_iff_counted (rows : List (String × String × Nat)) (e₁ d₁ e₂ d₂ : Encoding) :
    let catalog := Catalog.ofReport rows
    (e₁.canonical d₁ catalog = e₂.canonical d₂ catalog ↔
        (e₁.counted catalog d₁).SameNames (e₂.counted catalog d₂)) ∧
      (∀ e d : Encoding, (e.counted catalog d).SameNames (e.stored catalog d) ↔
        ¬e.IsMistaken catalog d) ∧
      (e₁.IsMistaken catalog d₁ ∨ e₂.IsMistaken catalog d₂ ∨
        (e₁.canonical d₁ catalog = e₂.canonical d₂ catalog ↔
          (e₁.stored catalog d₁).SameNames (e₂.stored catalog d₂))) := by
  intro catalog
  refine ⟨canonical_eq_canonical_iff, fun e d => sameNames_counted_stored_iff, ?_⟩
  by_cases h₁ : e₁.IsMistaken catalog d₁
  · exact .inl h₁
  by_cases h₂ : e₂.IsMistaken catalog d₂
  · exact .inr (.inl h₂)
  have hs₁ := sameNames_counted_stored_iff.2 h₁
  have hs₂ := sameNames_counted_stored_iff.2 h₂
  refine .inr (.inr (canonical_eq_canonical_iff.trans ⟨fun h => ?_, fun h => ?_⟩))
  · exact hs₁.symm.trans (h.trans hs₂)
  · exact hs₁.trans (h.trans hs₂.symm)

/-- In a table with another collation than its character set implies, a column that names just that
character set is told from one that names the implied collation as well, which the server stores
alike, and is not told from one that names the table's collation, which the server stores
differently. -/
theorem canonical_mistaken :
    let d : Encoding := ⟨some "utf8mb4", some "utf8mb4_bin"⟩
    let e : Encoding := ⟨some "utf8mb4", .none⟩
    let implied : Encoding := ⟨some "utf8mb4", some "utf8mb4_0900_ai_ci"⟩
    (Catalog.builtin.find? "utf8mb4").isSome ∧
      ((e.stored .builtin d).SameNames (implied.stored .builtin d) ∧
        e.canonical d .builtin ≠ implied.canonical d .builtin) ∧
      (¬(e.stored .builtin d).SameNames (d.stored .builtin d) ∧
        e.canonical d .builtin = d.canonical d .builtin) := by
  refine ⟨by decide, ⟨⟨by decide, by decide⟩, by decide⟩, fun h => ?_, by decide⟩
  exact absurd h.collation (by decide)

end Encoding

end SchemaDrift
