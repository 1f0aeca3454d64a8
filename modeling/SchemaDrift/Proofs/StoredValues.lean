import Mathlib
import SchemaDrift.ColumnType.Lossless
import SchemaDrift.Proofs.CharsetName

/-!
Values in string columns. A storage fixes what the facts of a catalog leave open: which characters
every character set holds, and how many bytes each takes there. A conversion that is judged lossless
keeps every value in all storages but for two cases: a padded byte string gets longer, or characters
are coded anew into a text that is bounded in bytes.
-/

namespace SchemaDrift

open ColumnType (charsetOf losslessTo capacity?)

/-- The characters of the character sets and their codes, as far as lengths go. -/
structure Storage (catalog : Catalog) where
  Character : Type
  holds : (charset : String) → Character → Prop
  /-- The bytes that a character takes. -/
  width : (charset : String) → Character → Nat
  holds_of_covers : ∀ {a b : String} {c : Character}, Charset.covers a b = true → holds a c → holds b c
  one_le_width : ∀ {a : String} {c : Character}, holds a c → 1 ≤ width a c
  width_le : ∀ {a : String} {c : Character}, holds a c → width a c ≤ catalog.maxBytes a
  /-- Two names of one character set stand for the same codes. -/
  width_canonical : ∀ (a : String) (c : Character), width (Charset.canonical a) c = width a c

/-- A value of a string column. -/
inductive StoredValue (Character : Type) where
  | text (cs : List Character)
  | bytes (bs : List UInt8)

namespace Storage

variable {catalog : Catalog}

def size (S : Storage catalog) (charset : String) (cs : List S.Character) : Nat :=
  (cs.map (S.width charset)).sum

/-- Whether a column of the type can hold the value. -/
def Stores (S : Storage catalog) : ColumnType → StoredValue S.Character → Prop
  | .string _ .text length e, .text cs => cs.length ≤ length ∧ ∀ c ∈ cs, S.holds (charsetOf e) c
  | .lob size .text e, .text cs =>
    S.size (charsetOf e) cs ≤ size.capacity ∧ ∀ c ∈ cs, S.holds (charsetOf e) c
  | .string true .bytes length _, .bytes bs => bs.length = length
  | .string false .bytes length _, .bytes bs => bs.length ≤ length
  | .lob size .bytes _, .bytes bs => bs.length ≤ size.capacity
  | _, _ => False

end Storage

namespace ColumnType

/-- Some character set that holds all characters of this one has no room for any: so this one holds
none either. -/
def IsVoid (catalog : Catalog) (charset : String) : Prop :=
  ∃ cs, Charset.covers charset cs = true ∧ catalog.maxBytes cs = 0

/-- As many characters as the capacity admits fit into so many bytes of another character set. -/
def Capacity.FitsRecoded (catalog : Catalog) (c : Capacity) (charset : String) (bytes : Nat) : Prop :=
  Charset.canonical c.charset = Charset.canonical charset ∨
    c.chars * catalog.maxBytes charset ≤ bytes ∨ IsVoid catalog c.charset

/-- The two cases are ruled out: padded byte strings keep their length, and what is coded anew into
a long text fits in every code. -/
def KeepsFootprint (catalog : Catalog) : ColumnType → ColumnType → Prop
  | .string true .bytes m _, .string true .bytes n _ => m = n
  | a, .lob size .text e => ∀ c ∈ a.capacity? catalog, c.FitsRecoded catalog (charsetOf e) size.capacity
  | _, _ => True

end ColumnType

/-! ### Capacities -/

namespace ColumnType

variable {catalog : Catalog} {a b : ColumnType}

lemma Capacity.fits_self (c : Capacity) : c.fits c = true := by
  simp [Capacity.fits]

lemma fits_of_losslessTo {c : Capacity} (h : losslessTo catalog a b = true)
    (ha : a.capacity? catalog = some c) : ∃ d, b.capacity? catalog = some d ∧ c.fits d = true := by
  by_cases hsame : a = b
  · exact ⟨c, hsame ▸ ha, c.fits_self⟩
  · unfold losslessTo at h
    have hfits := (Bool.or_eq_true_iff.1 h).resolve_left (by simpa using hsame)
    cases a with
    | string | lob =>
      cases b with
      | string _ content | lob _ content =>
        simp only [ha] at hfits
        cases content
        all_goals exact ⟨_, rfl, hfits⟩
      | _ => cases hfits
    | _ => cases ha

end ColumnType

/-! ### Sizes -/

namespace Storage

open ColumnType (IsVoid KeepsFootprint)

variable {catalog : Catalog} (S : Storage catalog) {charset : String} {cs : List S.Character}

lemma size_cons (charset : String) (c : S.Character) (cs : List S.Character) :
    S.size charset (c :: cs) = S.width charset c + S.size charset cs := rfl

variable {S}

lemma size_congr {a b : String} (h : Charset.canonical a = Charset.canonical b)
    (cs : List S.Character) : S.size a cs = S.size b cs := by
  have hwidth : S.width a = S.width b := by
    funext c
    rw [← S.width_canonical a, ← S.width_canonical b, h]
  rw [size, size, hwidth]

lemma length_le_size (h : ∀ c ∈ cs, S.holds charset c) : cs.length ≤ S.size charset cs := by
  induction cs with
  | nil => exact Nat.zero_le _
  | cons c cs ih =>
    have hc := S.one_le_width (h c List.mem_cons_self)
    have hcs := ih fun d hd => h d (List.mem_cons_of_mem _ hd)
    rw [List.length_cons, size_cons]
    omega

lemma size_le (h : ∀ c ∈ cs, S.holds charset c) :
    S.size charset cs ≤ cs.length * catalog.maxBytes charset := by
  induction cs with
  | nil => exact Nat.zero_le _
  | cons c cs ih =>
    have hc := S.width_le (h c List.mem_cons_self)
    have hcs := ih fun d hd => h d (List.mem_cons_of_mem _ hd)
    rw [List.length_cons, size_cons, Nat.succ_mul]
    omega

lemma eq_nil_of_isVoid (hvoid : IsVoid catalog charset) (h : ∀ c ∈ cs, S.holds charset c) :
    cs = [] := by
  obtain ⟨wide, hcovers, hzero⟩ := hvoid
  refine List.eq_nil_iff_forall_not_mem.2 fun c hc => ?_
  have hwide := S.holds_of_covers hcovers (h c hc)
  have hone := S.one_le_width hwide
  have hmax := S.width_le hwide
  omega

lemma size_le_of_fitsRecoded {c : ColumnType.Capacity} {bytes : Nat}
    (hfits : c.FitsRecoded catalog charset bytes) (hcovers : Charset.covers c.charset charset = true)
    (hholds : ∀ x ∈ cs, S.holds c.charset x) (hlength : cs.length ≤ c.chars)
    (hsize : S.size c.charset cs ≤ bytes) : S.size charset cs ≤ bytes := by
  rcases hfits with hsame | hfits | hvoid
  · rwa [← size_congr hsame]
  · calc S.size charset cs
        ≤ cs.length * catalog.maxBytes charset :=
          size_le fun x hx => S.holds_of_covers hcovers (hholds x hx)
      _ ≤ c.chars * catalog.maxBytes charset := Nat.mul_le_mul_right _ hlength
      _ ≤ bytes := hfits
  · rw [eq_nil_of_isVoid hvoid hholds]
    exact Nat.zero_le _

/-! ### Conversions that keep what they should -/

/-- Whether a capacity has room for the value, with the bytes counted in its own code. -/
def Admits (S : Storage catalog) (c : ColumnType.Capacity) : StoredValue S.Character → Prop
  | .text cs => c.content = .text ∧ cs.length ≤ c.chars ∧ S.size c.charset cs ≤ c.bytes ∧
      ∀ x ∈ cs, S.holds c.charset x
  | .bytes bs => c.content = .bytes ∧ bs.length ≤ c.bytes

lemma Stores.admits {a : ColumnType} {v : StoredValue S.Character} (hv : S.Stores a v) :
    ∃ c, a.capacity? catalog = some c ∧ S.Admits c v := by
  cases a with
  | string padded content length e =>
    cases content <;> cases v
    case text.text cs =>
      obtain ⟨hlength, hholds⟩ := hv
      have hsize := (size_le hholds).trans (Nat.mul_le_mul_right _ hlength)
      exact ⟨_, rfl, rfl, hlength, hsize, hholds⟩
    case bytes.bytes bs =>
      refine ⟨_, rfl, rfl, ?_⟩
      cases padded
      · exact hv
      · exact hv.le
    all_goals exact absurd hv (by cases padded <;> exact id)
  | lob size content e =>
    cases content <;> cases v
    case text.text cs =>
      obtain ⟨hsize, hholds⟩ := hv
      exact ⟨_, rfl, rfl, (length_le_size hholds).trans hsize, hsize, hholds⟩
    case bytes.bytes bs => exact ⟨_, rfl, rfl, hv⟩
    all_goals exact absurd hv id
  | _ => exact absurd hv id

lemma stores_of_keepsFootprint {a b : ColumnType} {v : StoredValue S.Character}
    (h : losslessTo catalog a b = true) (hkeeps : KeepsFootprint catalog a b) (hv : S.Stores a v) :
    S.Stores b v := by
  obtain ⟨c, hc, hadmits⟩ := hv.admits
  obtain ⟨d, hd, hfits⟩ := ColumnType.fits_of_losslessTo h hc
  simp only [ColumnType.Capacity.fits, Bool.and_eq_true, Bool.or_eq_true, Bool.not_eq_true',
    decide_eq_true_eq] at hfits
  obtain ⟨⟨⟨⟨hcontent, hpadded⟩, hcovers⟩, hchars⟩, hbytes⟩ := hfits
  cases v with
  | text cs =>
    obtain ⟨htext, hlength, hsize, hholds⟩ := hadmits
    have hcovers := hcovers.resolve_left (by simp [htext])
    have hwide : ∀ x ∈ cs, S.holds d.charset x := fun x hx => S.holds_of_covers hcovers (hholds x hx)
    rw [htext] at hcontent
    cases b with
    | string padded content length e =>
      cases content <;> cases hd
      · exact ⟨hlength.trans hchars, hwide⟩
      · cases hcontent
    | lob size content e =>
      cases content <;> cases hd
      · have hrecoded : c.FitsRecoded catalog (charsetOf e) size.capacity := by
          simpa [KeepsFootprint, hc] using hkeeps
        exact ⟨size_le_of_fitsRecoded hrecoded hcovers hholds hlength (hsize.trans hbytes), hwide⟩
      · cases hcontent
    | _ => cases hd
  | bytes bs =>
    obtain ⟨hbinary, hlength⟩ := hadmits
    rw [hbinary] at hcontent
    have hroom := hlength.trans hbytes
    cases b with
    | string padded content length e =>
      cases content <;> cases hd
      · cases hcontent
      · cases padded
        · exact hroom
        -- a padded target has a padded source
        · obtain hpad := hpadded.resolve_left (by simp)
          cases a with
          | string padded' content' length' e' =>
            cases content' <;> cases hc
            · cases hbinary
            · cases hpad
              exact hv.trans hkeeps
          | lob size content' e' => cases content' <;> cases hc <;> cases hpad
          | _ => cases hc
    | lob size content e =>
      cases content <;> cases hd
      · cases hcontent
      · exact hroom
    | _ => cases hd

/-! ### Conversions that lose values -/

/-- No character set holds any character. -/
def silent (catalog : Catalog) : Storage catalog where
  Character := Empty
  holds _ _ := False
  width _ _ := 0
  holds_of_covers := fun _ h => h
  one_le_width := fun h => h.elim
  width_le := fun h => h.elim
  width_canonical _ c := c.elim

/-- One character, which the source holds: it takes one byte in every code but that of the target,
where it is as wide as characters get. -/
def widening (catalog : Catalog) (source target : String) (h : ¬ IsVoid catalog source) :
    Storage catalog where
  Character := Unit
  holds charset _ := Charset.covers source charset = true
  width charset _ :=
    if Charset.canonical charset = Charset.canonical target then catalog.maxBytes charset else 1
  holds_of_covers hab ha := Charset.covers_trans ha hab
  one_le_width := by
    intro a _ ha
    have hwide : catalog.maxBytes a ≠ 0 := fun hzero => h ⟨a, ha, hzero⟩
    split <;> omega
  width_le := by
    intro a _ ha
    have hwide : catalog.maxBytes a ≠ 0 := fun hzero => h ⟨a, ha, hzero⟩
    split <;> omega
  width_canonical a _ := by
    rw [Charset.canonical_canonical, catalog.maxBytes_congr (Charset.canonical_canonical a)]

lemma size_replicate (charset : String) (n : Nat) (c : S.Character) :
    S.size charset (List.replicate n c) = n * S.width charset c := by
  simp [size]

lemma stores_replicate {a : ColumnType} {c : ColumnType.Capacity} {x : S.Character}
    (hc : a.capacity? catalog = some c) (htext : c.content = .text) (hholds : S.holds c.charset x)
    (hone : S.width c.charset x = 1) : S.Stores a (.text (List.replicate c.chars x)) := by
  have hall : ∀ y ∈ List.replicate c.chars x, S.holds c.charset y := by
    intro y hy
    rwa [List.eq_of_mem_replicate hy]
  cases a with
  | string padded content length e =>
    cases content <;> cases hc
    · exact ⟨(List.length_replicate ..).le, hall⟩
    · cases htext
  | lob size content e =>
    cases content <;> cases hc
    · exact ⟨by rw [size_replicate, hone, Nat.mul_one], hall⟩
    · cases htext
  | _ => cases hc

/-- As many characters as the capacity admits do not fit when each gets as wide as possible. -/
lemma exists_lost_of_not_fitsRecoded {a : ColumnType} {size : LobSize} {e : Encoding}
    {c : ColumnType.Capacity} (hc : a.capacity? catalog = some c) (htext : c.content = .text)
    (hloses : ¬ c.FitsRecoded catalog (charsetOf e) size.capacity) :
    ∃ (S : Storage catalog) (v : StoredValue S.Character),
      S.Stores a v ∧ ¬ S.Stores (.lob size .text e) v := by
  obtain ⟨hother, hlong, hvoid⟩ : Charset.canonical c.charset ≠ Charset.canonical (charsetOf e) ∧
      ¬ c.chars * catalog.maxBytes (charsetOf e) ≤ size.capacity ∧ ¬ IsVoid catalog c.charset := by
    simpa [ColumnType.Capacity.FitsRecoded, not_or] using hloses
  refine ⟨widening catalog c.charset (charsetOf e) hvoid, .text (List.replicate c.chars ()), ?_, ?_⟩
  · exact stores_replicate hc htext (Charset.covers_self _) (if_neg hother)
  · rintro ⟨hsize, -⟩
    have hwide : (widening catalog c.charset (charsetOf e) hvoid).size (charsetOf e)
        (List.replicate c.chars ()) = c.chars * catalog.maxBytes (charsetOf e) := by
      refine (size_replicate ..).trans ?_
      exact congrArg (c.chars * ·) (if_pos rfl)
    exact hlong (hwide ▸ hsize)

lemma exists_lost_of_not_keepsFootprint {a b : ColumnType} (h : losslessTo catalog a b = true)
    (hloses : ¬ KeepsFootprint catalog a b) :
    ∃ (S : Storage catalog) (v : StoredValue S.Character), S.Stores a v ∧ ¬ S.Stores b v := by
  unfold KeepsFootprint at hloses
  split at hloses
  next m e n f =>
    refine ⟨silent catalog, .bytes (List.replicate m 0), List.length_replicate .., fun hlength => ?_⟩
    exact hloses ((List.length_replicate ..).symm.trans hlength)
  next size e =>
    obtain ⟨c, hc, hloses⟩ : ∃ c, a.capacity? catalog = some c ∧
        ¬ c.FitsRecoded catalog (charsetOf e) size.capacity := by
      simpa using hloses
    obtain ⟨d, hd, hfits⟩ := ColumnType.fits_of_losslessTo h hc
    cases hd
    have htext : c.content = .text := by
      simp only [ColumnType.Capacity.fits, Bool.and_eq_true, decide_eq_true_eq] at hfits
      exact hfits.1.1.1.1
    exact exists_lost_of_not_fitsRecoded hc htext hloses
  next => exact absurd trivial hloses

/-- **What a lossless conversion of strings keeps.** Every value of the first type is one of the
second, whatever the codes of the characters are, exactly when the conversion keeps footprints. -/
theorem stores_of_losslessTo_iff (catalog : Catalog) {a b : ColumnType}
    (h : losslessTo catalog a b = true) :
    (∀ (S : Storage catalog) (v : StoredValue S.Character), S.Stores a v → S.Stores b v) ↔
      KeepsFootprint catalog a b := by
  constructor
  · intro hall
    by_contra hloses
    obtain ⟨S, v, hv, hlost⟩ := exists_lost_of_not_keepsFootprint h hloses
    exact hlost (hall S v hv)
  · intro hkeeps S v hv
    exact stores_of_keepsFootprint h hkeeps hv

/-- Sixty-three characters fit into a short text in any code. -/
theorem stores_of_losslessTo_iff_short :
    losslessTo .builtin (.string false .text 63 ⟨some "latin1", none⟩)
      (.lob .tiny .text ⟨some "utf8mb4", none⟩) = true ∧
    ∀ (S : Storage .builtin) (v : StoredValue S.Character),
      S.Stores (.string false .text 63 ⟨some "latin1", none⟩) v →
        S.Stores (.lob .tiny .text ⟨some "utf8mb4", none⟩) v := by
  have hlossless : losslessTo .builtin (.string false .text 63 ⟨some "latin1", none⟩)
      (.lob .tiny .text ⟨some "utf8mb4", none⟩) = true := by decide +kernel
  refine ⟨hlossless, (stores_of_losslessTo_iff .builtin hlossless).2 fun c hc => ?_⟩
  cases hc
  exact .inr (.inl (by decide +kernel))

/-- The same conversion of a longer type counts as lossless too, although two hundred characters of
one byte each can be any number of bytes up to eight hundred then. -/
theorem exists_lost_recoded :
    losslessTo .builtin (.string false .text 200 ⟨some "latin1", none⟩)
      (.lob .tiny .text ⟨some "utf8mb4", none⟩) = true ∧
    ∃ (S : Storage .builtin) (v : StoredValue S.Character),
      S.Stores (.string false .text 200 ⟨some "latin1", none⟩) v ∧
        ¬ S.Stores (.lob .tiny .text ⟨some "utf8mb4", none⟩) v := by
  refine ⟨by decide +kernel, exists_lost_of_not_fitsRecoded rfl rfl ?_⟩
  rintro (hsame | hfits | ⟨charset, -, hzero⟩)
  · exact absurd hsame (by decide +kernel)
  · exact absurd hfits (by decide +kernel)
  · have hwide := Catalog.one_le_maxBytes_builtin charset
    omega

end Storage

end SchemaDrift
