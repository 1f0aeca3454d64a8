import Mathlib
import SchemaDrift.Proofs.CodedText
import SchemaDrift.Proofs.CountedRows

/-!
What guards count when a column of strings becomes another one. The conditions look at the length of a
value and at the characters that the new character set lacks. What else changes a value goes unnoticed:
bytes added or spaces stripped at its end, bytes that are no text, and texts that get longer in another
code.
-/

namespace SchemaDrift

open ColumnType (charsetOf losslessTo)

/-- The number of characters; every byte is one. -/
def StoredValue.chars {Character : Type} : StoredValue Character → ℕ
  | .text cs => cs.length
  | .bytes bs => bs.length

namespace ColumnType

def IsString : ColumnType → Prop
  | string .. | lob .. => True
  | _ => False

namespace Capacity

def leastBytes (c : Capacity) : ℕ := if c.content = .bytes ∧ c.padded then c.bytes else 0

lemma leastBytes_le (c : Capacity) : c.leastBytes ≤ c.bytes := by
  unfold leastBytes
  split <;> omega

/-- No value but the empty one has at most so many bytes. -/
def NoneWithin (c : Capacity) (n : ℕ) : Prop := c.bytes = 0 ∨ n < max 1 c.leastBytes

/-- The texts of at most so many bytes stay so in the code of another character set. -/
def StaysWithin (catalog : Catalog) (c : Capacity) (charset : String) (n : ℕ) : Prop :=
  Charset.canonical c.charset = Charset.canonical charset ∨
    min c.chars n * catalog.maxBytes charset ≤ n

/-- What the conditions for a new type leave out does not happen. -/
def LossesCounted (catalog : Catalog) (c : Capacity) : ColumnType → Prop
  -- shorter values get bytes added
  | .string padded .bytes n _ => padded → n ≤ c.leastBytes
  | .string padded .text n _ =>
    match c.content with
    -- spaces at the end get stripped
    | .text => padded → c.padded ∨ n = 0 ∨ c.chars = 0
    -- not all bytes are a text
    | .bytes => c.NoneWithin n
  | .lob size .text e =>
    match c.content with
    | .text => c.StaysWithin catalog (charsetOf e) size.capacity
    | .bytes => c.NoneWithin size.capacity
  | _ => True

end Capacity

/-- The conditions for the new type find every value that is lost. -/
def CountsLosses (catalog : Catalog) (a b : ColumnType) : Prop :=
  ∀ c ∈ a.capacity? catalog, c.LossesCounted catalog b

variable {catalog : Catalog} {a b : ColumnType} {c : Capacity}

lemma losses_ne_nil_of_isString (h : b.IsString) : a.losses b ≠ [] := by
  cases b with
  | string _ content | lob _ content => cases content <;> simp [losses]
  | _ => exact h.elim

lemma text_of_capacity? (hc : a.capacity? catalog = some c) (htext : c.content = .text) :
    a.isTextual = true ∧ a.charset = c.charset ∧ a.stripsSpaces = c.padded := by
  cases a with
  | string _ content | lob _ content =>
    cases content <;> cases hc
    · exact ⟨rfl, rfl, rfl⟩
    · cases htext
  | _ => cases hc

end ColumnType

namespace Coding

open ColumnType (Capacity CountsLosses)

variable {catalog : Catalog}

/-- Whether a value in a column of the type meets the condition. The conditions that are not about
strings do not come up here. -/
def Satisfies (S : Coding catalog) (a : ColumnType) (v : StoredValue S.Character) : Condition → Prop
  | .isNotNull => True
  | .moreBytes bound => bound < (S.bytesOf a.charset v).length
  | .moreChars bound => bound < v.chars
  | .changedByCharset target source =>
    match v with
    | .text cs => S.convert source (S.convert target cs) ≠ cs
    | .bytes _ => False
  | _ => False

def Covers (S : Coding catalog) (charset : String) : StoredValue S.Character → Prop
  | .text cs => ∀ c ∈ cs, S.holds charset c
  | .bytes _ => True

/-- Whether the value is too long for the new type or has a character that this lacks. -/
def Exceeds (S : Coding catalog) (a : ColumnType) (v : StoredValue S.Character) : ColumnType → Prop
  | .string _ .bytes n _ => n < (S.bytesOf a.charset v).length
  | .lob size .bytes _ => size.capacity < (S.bytesOf a.charset v).length
  | .string _ .text n e => n < v.chars ∨ ¬ S.Covers (charsetOf e) v
  | .lob size .text e => size.capacity < (S.bytesOf a.charset v).length ∨ ¬ S.Covers (charsetOf e) v
  | _ => False

variable {S : Coding catalog} {a b : ColumnType} {c : Capacity} {v : StoredValue S.Character}
  {cs : List S.Character} {bs : List UInt8} {charset : String} {n : ℕ}

/-! ### What a capacity says of the values -/

lemma stores_iff (hc : a.capacity? catalog = some c) :
    S.Stores a v ↔ S.Admits c v ∧ c.leastBytes ≤ (S.bytesOf a.charset v).length := by
  constructor
  · intro hv
    obtain ⟨d, hd, hadmits⟩ := hv.admits
    cases hc.symm.trans hd
    refine ⟨hadmits, ?_⟩
    cases v with
    | text cs => simp [Capacity.leastBytes, hadmits.1]
    | bytes bs =>
      cases a with
      | string padded content =>
        cases content <;> cases hd
        · exact absurd hv id
        · cases padded
          · exact Nat.zero_le _
          · exact (show bs.length = _ from hv).ge
      | lob _ content => cases content <;> cases hd <;> exact Nat.zero_le _
      | _ => cases hd
  · rintro ⟨hadmits, hleast⟩
    cases v with
    | text cs =>
      obtain ⟨htext, hlength, hsize, hholds⟩ := hadmits
      cases a with
      | string _ content | lob _ content =>
        cases content <;> cases hc
        · exact ⟨‹_›, hholds⟩
        · cases htext
      | _ => cases hc
    | bytes bs =>
      obtain ⟨hbytes, hlength⟩ := hadmits
      cases a with
      | string padded content =>
        cases content <;> cases hc
        · cases hbytes
        · cases padded
          · exact hlength
          · -- padded bytes: as many as the type has, no fewer
            exact hlength.antisymm hleast
      | lob _ content =>
        cases content <;> cases hc
        · cases hbytes
        · exact hlength
      | _ => cases hc

lemma length_bytesOf_le (hc : a.capacity? catalog = some c) (hv : S.Stores a v) :
    (S.bytesOf a.charset v).length ≤ c.bytes := by
  have hadmits := ((stores_iff hc).1 hv).1
  cases v with
  | text cs =>
    obtain ⟨htext, -, hsize, -⟩ := hadmits
    rw [(ColumnType.text_of_capacity? hc htext).2.1]
    exact (length_encode ..).trans_le hsize
  | bytes bs => exact hadmits.2

lemma size_le_of_staysWithin (hstays : c.StaysWithin catalog charset n)
    (hcovers : ∀ x ∈ cs, S.holds charset x) (hadmits : S.Admits c (.text cs))
    (hsize : S.size c.charset cs ≤ n) : S.size charset cs ≤ n := by
  obtain ⟨-, hlength, -, hholds⟩ := hadmits
  rcases hstays with hsame | hfits
  · rwa [← Storage.size_congr hsame]
  · have hshort : cs.length ≤ min c.chars n :=
      le_min hlength ((Storage.length_le_size hholds).trans hsize)
    calc S.size charset cs
        ≤ cs.length * catalog.maxBytes charset := Storage.size_le hcovers
      _ ≤ min c.chars n * catalog.maxBytes charset := Nat.mul_le_mul_right _ hshort
      _ ≤ n := hfits

/-! ### What the conditions look at -/

lemma exists_charsetLoss_iff (hv : S.Stores a v) :
    (∃ d ∈ a.charsetLoss b, S.Satisfies a v d) ↔ ¬ S.Covers b.charset v := by
  obtain ⟨c, hc, hadmits⟩ := hv.admits
  cases v with
  | bytes bs =>
    refine iff_of_false ?_ (not_not.2 trivial)
    rintro ⟨d, hd, hsat⟩
    unfold ColumnType.charsetLoss at hd
    split at hd
    · rw [List.mem_singleton.1 hd] at hsat
      exact hsat
    · cases hd
  | text cs =>
    obtain ⟨htext, -, -, hholds⟩ := hadmits
    obtain ⟨htextual, hcharset, -⟩ := ColumnType.text_of_capacity? hc htext
    rw [← hcharset] at hholds
    by_cases hcovers : Charset.covers a.charset b.charset = true
    · refine iff_of_false ?_ (not_not.2 fun x hx => S.holds_of_covers hcovers (hholds x hx))
      simp [ColumnType.charsetLoss, hcovers]
    · simp only [ColumnType.charsetLoss, htextual, hcovers, Bool.not_false, Bool.and_self, if_true,
        List.mem_singleton, exists_eq_left]
      exact not_congr (convert_convert_eq_self_iff hholds)

lemma exists_loss_iff (hb : b.IsString) (hv : S.Stores a v) :
    (∃ d ∈ a.losses b, S.Satisfies a v d) ↔ S.Exceeds a v b := by
  have hcharset := exists_charsetLoss_iff (b := b) hv
  cases b with
  | string _ content | lob _ content =>
    cases content
    · simp only [ColumnType.losses, List.singleton_append, List.mem_cons, or_and_right, exists_or,
        exists_eq_left]
      exact or_congr Iff.rfl hcharset
    · simp only [ColumnType.losses, List.mem_singleton, exists_eq_left]
      rfl
  | _ => exact hb.elim

lemma not_exceeds_of_losslessTo (h : losslessTo catalog a b = true) (hv : S.Stores a v) :
    ¬ S.Exceeds a v b := by
  obtain ⟨c, hc, hadmits⟩ := hv.admits
  obtain ⟨d, hd, hfits⟩ := ColumnType.fits_of_losslessTo h hc
  simp only [Capacity.fits, Bool.and_eq_true, Bool.or_eq_true, decide_eq_true_eq] at hfits
  obtain ⟨⟨⟨⟨hcontent, -⟩, hcovers⟩, hchars⟩, hbytes⟩ := hfits
  have hmost := (length_bytesOf_le hc hv).trans hbytes
  cases v with
  | text cs =>
    obtain ⟨htext, hlength, -, hholds⟩ := hadmits
    have hcovers := hcovers.resolve_left (by simp [htext])
    have hwide : S.Covers d.charset (.text cs) := fun x hx => S.holds_of_covers hcovers (hholds x hx)
    have hshort := hlength.trans hchars
    rw [htext] at hcontent
    cases b with
    | string _ content | lob _ content =>
      cases content <;> cases hd
      · exact not_or.2 ⟨Nat.not_lt.2 ‹_›, not_not.2 hwide⟩
      · cases hcontent
    | _ => cases hd
  | bytes bs =>
    rw [hadmits.1] at hcontent
    cases b with
    | string _ content | lob _ content =>
      cases content <;> cases hd
      · cases hcontent
      · exact Nat.not_lt.2 hmost
    | _ => cases hd

/-! ### Losses that are found -/

lemma keeps_bytes (hc : a.capacity? catalog = some c) (hv : S.Stores a (.bytes bs))
    (hnone : c.NoneWithin n) (hlength : bs.length ≤ n) (hb : S.Stores b (.text [])) :
    S.Keeps a b (.bytes bs) := by
  obtain ⟨⟨-, hmost⟩, hleast⟩ := (stores_iff hc).1 hv
  have hleast : c.leastBytes ≤ bs.length := hleast
  have hzero : bs.length = 0 := by
    rcases hnone with hzero | hshort <;> omega
  cases List.length_eq_zero_iff.1 hzero
  exact keeps_nil hb

lemma not_endsInSpace_of_stripped (hc : a.capacity? catalog = some c) (hv : S.Reads a (.text cs))
    (hstripped : c.padded = true ∨ n = 0 ∨ c.chars = 0) (hlength : cs.length ≤ n) :
    ¬ S.EndsInSpace (.text cs) := by
  intro hspace
  obtain ⟨htext, hchars, -, -⟩ := ((stores_iff hc).1 hv.1).1
  have hpos : 0 < cs.length := List.length_pos_of_mem (List.mem_of_getLast? hspace)
  rcases hstripped with hpadded | hzero | hzero
  · exact hv.2 ((ColumnType.text_of_capacity? hc htext).2.2.trans hpadded) hspace
  · omega
  · omega

lemma keeps_of_not_exceeds (hcounted : CountsLosses catalog a b) (hb : b.IsString)
    (hv : S.Reads a v) (h : ¬ S.Exceeds a v b) : S.Keeps a b v := by
  obtain ⟨c, hc, hadmits⟩ := hv.1.admits
  have hcounted := hcounted c hc
  have hleast := ((stores_iff hc).1 hv.1).2
  cases b with
  | string padded content n e =>
    cases content with
    | bytes =>
      refine keeps_of_stores_bytesOf ?_
      cases padded with
      | false => exact Nat.not_lt.1 h
      -- Padded bytes keep their length, so the value must have it already.
      | true => exact (Nat.not_lt.1 h).antisymm ((hcounted rfl).trans hleast)
    | text =>
      obtain ⟨hlong, hcovers⟩ := not_or.1 h
      have hlength := Nat.not_lt.1 hlong
      cases v with
      | text cs =>
        simp only [Capacity.LossesCounted, hadmits.1] at hcounted
        refine keeps_text ⟨hlength, not_not.1 hcovers⟩ fun hstrips => ?_
        exact not_endsInSpace_of_stripped hc hv (hcounted hstrips) hlength
      | bytes bs =>
        simp only [Capacity.LossesCounted, hadmits.1] at hcounted
        exact keeps_bytes hc hv.1 hcounted hlength ⟨Nat.zero_le _, List.forall_mem_nil _⟩
  | lob size content e =>
    cases content with
    | bytes => exact keeps_of_stores_bytesOf (Nat.not_lt.1 h)
    | text =>
      obtain ⟨hlong, hcovers⟩ := not_or.1 h
      have hlength := Nat.not_lt.1 hlong
      cases v with
      | text cs =>
        have hcovers := not_not.1 hcovers
        -- The guard measures the text in its old code; the bound is carried to the new one.
        have hsize : S.size c.charset cs ≤ size.capacity := by
          rw [← (ColumnType.text_of_capacity? hc hadmits.1).2.1]
          exact (length_encode ..).symm.trans_le hlength
        simp only [Capacity.LossesCounted, hadmits.1] at hcounted
        have hstays := size_le_of_staysWithin hcounted hcovers hadmits hsize
        exact keeps_text ⟨hstays, hcovers⟩ fun hstrips => absurd hstrips Bool.false_ne_true
      | bytes bs =>
        simp only [Capacity.LossesCounted, hadmits.1] at hcounted
        exact keeps_bytes hc hv.1 hcounted hlength ⟨Nat.zero_le _, List.forall_mem_nil _⟩
  | _ => exact hb.elim

/-! ### Losses that go unnoticed -/

lemma chars_le_bytes (hroom : ¬ catalog.LacksRoom) (hc : a.capacity? catalog = some c) :
    c.chars ≤ c.bytes := by
  cases a with
  | string _ content _ e =>
    cases content <;> cases hc
    · have hpos : catalog.maxBytes (charsetOf e) ≠ 0 := fun hzero => hroom ⟨_, hzero⟩
      exact Nat.le_mul_of_pos_right _ (Nat.pos_of_ne_zero hpos)
    · exact le_rfl
  | lob _ content => cases content <;> cases hc <;> exact le_rfl
  | _ => cases hc

lemma length_of_keeps_padded {e : Encoding} (h : S.Keeps a (.string true .bytes n e) v) :
    (S.bytesOf a.charset v).length = n := by
  obtain ⟨w, ⟨hw, -⟩, hsame⟩ := h
  cases w with
  | text ds => exact hw.elim
  | bytes ds =>
    have hbytes : S.bytesOf a.charset v = ds := by cases v <;> exact hsame
    exact hbytes ▸ hw

lemma exists_text_of_keeps (hb : b.isTextual = true) (h : S.Keeps a b v) :
    ∃ ds, S.Reads b (.text ds) ∧ S.SameContent a b v (.text ds) := by
  obtain ⟨w, hw, hsame⟩ := h
  cases w with
  | text ds => exact ⟨ds, hw, hsame⟩
  | bytes ds =>
    cases b with
    | string _ content | lob _ content =>
      cases content
      · exact hw.1.elim
      · cases hb
    | _ => exact hw.1.elim

section Uniform

variable (hroom : ¬ catalog.LacksRoom) (wide : Option String)

lemma size_uniform (charset : String) (cs : List Bool) :
    (uniform catalog hroom wide).size charset cs = cs.length * uniformWidth catalog wide charset := by
  simp [Storage.size, uniform]

lemma covers_uniform (v : StoredValue Bool) : (uniform catalog hroom wide).Covers charset v := by
  cases v with
  | text cs => exact fun _ _ => trivial
  | bytes bs => trivial

lemma not_mem_encode_uniform (charset : String) (cs : List Bool) :
    0xFF ∉ (uniform catalog hroom wide).encode charset cs := by
  simp only [encode, uniform, List.mem_flatMap, not_exists, not_and]
  intro c _ hbyte
  have hcode := List.eq_of_mem_replicate hbyte
  cases c <;> cases hcode

variable {hroom wide}

lemma stores_uniform {cs : List Bool} (hc : a.capacity? catalog = some c) (htext : c.content = .text)
    (hone : uniformWidth catalog wide c.charset = 1) (hlength : cs.length ≤ c.chars) :
    (uniform catalog hroom wide).Stores a (.text cs) := by
  have hsize : (uniform catalog hroom wide).size c.charset cs ≤ c.bytes := by
    rw [size_uniform, hone, Nat.mul_one]
    exact hlength.trans (chars_le_bytes hroom hc)
  refine (stores_iff hc).2 ⟨⟨htext, hlength, hsize, covers_uniform hroom wide (.text cs)⟩, ?_⟩
  simp [Capacity.leastBytes, htext]

end Uniform

/-- A value of a type that is lost without exceeding the new type. -/
def Unnoticed (S : Coding catalog) (a b : ColumnType) (v : StoredValue S.Character) : Prop :=
  S.Reads a v ∧ ¬ S.Keeps a b v ∧ ¬ S.Exceeds a v b

lemma exists_reads_leastBytes (S : Coding catalog) (hc : a.capacity? catalog = some c) :
    ∃ v, S.Reads a v ∧ (S.bytesOf a.charset v).length = c.leastBytes := by
  cases hcontent : c.content with
  | text =>
    have hzero : c.leastBytes = 0 := by simp [Capacity.leastBytes, hcontent]
    have hadmits : S.Admits c (.text []) := ⟨hcontent, Nat.zero_le _, Nat.zero_le _, List.forall_mem_nil _⟩
    refine ⟨.text [], ⟨(stores_iff hc).2 ⟨hadmits, ?_⟩, fun _ => ?_⟩, hzero.symm⟩
    · exact hzero.trans_le (Nat.zero_le _)
    · simp [EndsInSpace]
  | bytes =>
    have hlength : (List.replicate c.leastBytes (0 : UInt8)).length = c.leastBytes :=
      List.length_replicate ..
    refine ⟨.bytes (List.replicate c.leastBytes 0), ⟨(stores_iff hc).2 ⟨⟨hcontent, ?_⟩, ?_⟩, ?_⟩, hlength⟩
    · exact hlength.trans_le c.leastBytes_le
    · exact hlength.ge
    · exact fun _ => id

lemma exists_unnoticed_padded (S : Coding catalog) {e : Encoding} (hc : a.capacity? catalog = some c)
    (h : ¬ n ≤ c.leastBytes) : ∃ v, S.Unnoticed a (.string true .bytes n e) v := by
  obtain ⟨v, hv, hleast⟩ := exists_reads_leastBytes S hc
  refine ⟨v, hv, fun hkeeps => ?_, ?_⟩
  · have hlength := length_of_keeps_padded hkeeps
    omega
  · simp only [Exceeds]
    omega

lemma exists_unnoticed_space (hroom : ¬ catalog.LacksRoom) {e : Encoding}
    (hc : a.capacity? catalog = some c) (htext : c.content = .text)
    (h : ¬ (c.padded = true ∨ n = 0 ∨ c.chars = 0)) :
    ∃ v, (uniform catalog hroom none).Unnoticed a (.string true .text n e) v := by
  obtain ⟨hpadded, hn, hchars⟩ : ¬ c.padded = true ∧ n ≠ 0 ∧ c.chars ≠ 0 := by
    simpa only [not_or] using h
  have hspace : (uniform catalog hroom none).EndsInSpace (.text [false]) := rfl
  refine ⟨.text [false], ⟨stores_uniform hc htext rfl ?_, fun hstrips => ?_⟩, fun hkeeps => ?_, ?_⟩
  · exact Nat.one_le_iff_ne_zero.2 hchars
  · exact absurd ((ColumnType.text_of_capacity? hc htext).2.2.symm.trans hstrips) hpadded
  · obtain ⟨ds, hds, hsame⟩ := exists_text_of_keeps rfl hkeeps
    cases hsame
    exact hds.2 rfl hspace
  · refine not_or.2 ⟨Nat.not_lt.2 ?_, not_not.2 (covers_uniform hroom none _)⟩
    exact Nat.one_le_iff_ne_zero.2 hn

lemma exists_lost_bytes (hroom : ¬ catalog.LacksRoom) (hc : a.capacity? catalog = some c)
    (hbytes : c.content = .bytes) (hb : b.isTextual = true) (h : ¬ c.NoneWithin n) :
    ∃ bs, (uniform catalog hroom none).Reads a (.bytes bs) ∧
      ¬ (uniform catalog hroom none).Keeps a b (.bytes bs) ∧ bs.length ≤ n := by
  obtain ⟨hnonzero, hwithin⟩ : c.bytes ≠ 0 ∧ max 1 c.leastBytes ≤ n := by
    simpa only [Capacity.NoneWithin, not_or, Nat.not_lt] using h
  have hleast := c.leastBytes_le
  have hlength : (List.replicate (max 1 c.leastBytes) (0xFF : UInt8)).length = max 1 c.leastBytes :=
    List.length_replicate ..
  refine ⟨List.replicate (max 1 c.leastBytes) 0xFF, ⟨?_, fun _ => id⟩, fun hkeeps => ?_, ?_⟩
  · refine (stores_iff hc).2 ⟨⟨hbytes, ?_⟩, ?_⟩
    · omega
    · exact (le_max_right ..).trans_eq hlength.symm
  · obtain ⟨ds, -, hsame⟩ := exists_text_of_keeps hb hkeeps
    have hmem : 0xFF ∈ (uniform catalog hroom none).encode b.charset ds := by
      rw [show (uniform catalog hroom none).encode b.charset ds = _ from hsame]
      exact List.mem_replicate.2 ⟨by omega, rfl⟩
    exact not_mem_encode_uniform hroom none _ _ hmem
  · omega

/-- A text of characters of one byte gets longer when every one becomes as wide as possible. -/
lemma exists_unnoticed_recoded (hroom : ¬ catalog.LacksRoom) {size : LobSize} {e : Encoding}
    (hc : a.capacity? catalog = some c) (htext : c.content = .text)
    (h : ¬ c.StaysWithin catalog (charsetOf e) size.capacity) :
    ∃ v, (uniform catalog hroom (some (Charset.canonical (charsetOf e)))).Unnoticed a
      (.lob size .text e) v := by
  obtain ⟨hother, hlong⟩ : Charset.canonical c.charset ≠ Charset.canonical (charsetOf e) ∧
      size.capacity < min c.chars size.capacity * catalog.maxBytes (charsetOf e) := by
    simpa only [Capacity.StaysWithin, not_or, Nat.not_le] using h
  set wide := some (Charset.canonical (charsetOf e))
  set cs := List.replicate (min c.chars size.capacity) true
  have hlength : cs.length = min c.chars size.capacity := List.length_replicate ..
  have hone : uniformWidth catalog wide c.charset = 1 :=
    if_neg fun heq => hother (Option.some.inj heq).symm
  have hmax : uniformWidth catalog wide (charsetOf e) = catalog.maxBytes (charsetOf e) := if_pos rfl
  refine ⟨.text cs, ⟨stores_uniform hc htext hone (by omega), fun _ hspace => ?_⟩, fun hkeeps => ?_, ?_⟩
  · have hlast := List.mem_of_getLast? hspace
    cases List.eq_of_mem_replicate hlast
  · obtain ⟨ds, hds, hsame⟩ := exists_text_of_keeps rfl hkeeps
    cases hsame
    have hsize := hds.1.1
    rw [size_uniform, hmax, hlength] at hsize
    omega
  · refine not_or.2 ⟨Nat.not_lt.2 ?_, not_not.2 (covers_uniform hroom wide _)⟩
    calc ((uniform catalog hroom wide).bytesOf a.charset (.text cs)).length
        = (uniform catalog hroom wide).size a.charset cs := length_encode ..
      _ = cs.length * uniformWidth catalog wide a.charset := size_uniform ..
      _ = min c.chars size.capacity := by
        rw [(ColumnType.text_of_capacity? hc htext).2.1, hone, Nat.mul_one, hlength]
      _ ≤ size.capacity := min_le_right ..

lemma exists_unnoticed (hroom : ¬ catalog.LacksRoom) (h : ¬ CountsLosses catalog a b) :
    ∃ (S : Coding catalog) (v : StoredValue S.Character), S.Unnoticed a b v := by
  obtain ⟨c, hc, hleft⟩ : ∃ c, a.capacity? catalog = some c ∧ ¬ c.LossesCounted catalog b := by
    simpa [CountsLosses] using h
  unfold Capacity.LossesCounted at hleft
  split at hleft
  next padded n e =>
    obtain ⟨rfl, hshort⟩ := Classical.not_imp.1 hleft
    exact ⟨_, exists_unnoticed_padded (uniform catalog hroom none) hc hshort⟩
  next padded n e =>
    split at hleft
    next htext =>
      obtain ⟨rfl, hstrips⟩ := Classical.not_imp.1 hleft
      exact ⟨_, exists_unnoticed_space hroom hc htext hstrips⟩
    next hbytes =>
      obtain ⟨bs, hv, hlost, hlength⟩ := exists_lost_bytes hroom hc hbytes (b := .string padded .text n e)
        rfl hleft
      exact ⟨_, .bytes bs, hv, hlost, not_or.2 ⟨Nat.not_lt.2 hlength, not_not.2 trivial⟩⟩
  next size e =>
    split at hleft
    next htext => exact ⟨_, exists_unnoticed_recoded hroom hc htext hleft⟩
    next hbytes =>
      obtain ⟨bs, hv, hlost, hlength⟩ := exists_lost_bytes hroom hc hbytes (b := .lob size .text e)
        rfl hleft
      exact ⟨_, .bytes bs, hv, hlost, not_or.2 ⟨Nat.not_lt.2 hlength, not_not.2 trivial⟩⟩
  next => exact absurd trivial hleft

end Coding

namespace Guard

open ColumnType (CountsLosses)

lemma counts_strings_iff {table : TableName} {catalog : Catalog} {before after : Column} {g : Guard}
    (hafter : after.type.IsString)
    (hg : ofModifyColumn table catalog before after = some g) {S : Coding catalog}
    {v : StoredValue S.Character} (hv : S.Stores before.type v) :
    g.Counts (S.Satisfies before.type v) ↔ S.Exceeds before.type v after.type := by
  rw [counts_ofModifyColumn_iff hg id,
    endangeredValues_eq (ColumnType.losses_ne_nil_of_isString hafter), Coding.exists_loss_iff hafter hv]
  refine and_iff_right_of_imp fun hexceeds => Bool.eq_false_iff.2 fun hkept => ?_
  have hlossless := (Bool.and_eq_true_iff.1 hkept).1
  exact Coding.not_exceeds_of_losslessTo hlossless hv hexceeds

/-- **What the guard of a column of strings counts.** When a string type is changed into another one,
the guard counts every value that the new type does not keep, whatever the codes of the characters
are, exactly if the conditions for the new type leave nothing out, or if there are no codes at all. -/
theorem counts_lost_strings_iff (table : TableName) (catalog : Catalog) {before after : Column}
    (hafter : after.type.IsString) {g : Guard}
    (hg : ofModifyColumn table catalog before after = some g) :
    (∀ (S : Coding catalog) (v : StoredValue S.Character), S.Reads before.type v →
        ¬ S.Keeps before.type after.type v → g.Counts (S.Satisfies before.type v)) ↔
      catalog.LacksRoom ∨ CountsLosses catalog before.type after.type := by
  constructor
  · intro hall
    by_contra hnot
    obtain ⟨hroom, hleft⟩ := not_or.1 hnot
    obtain ⟨S, v, hv, hlost, hshort⟩ := Coding.exists_unnoticed hroom hleft
    exact hshort ((counts_strings_iff hafter hg hv.1).1 (hall S v hv hlost))
  · rintro (hroom | hcounted) S v hv hlost
    · exact absurd hroom S.not_lacksRoom
    · refine (counts_strings_iff hafter hg hv.1).2 ?_
      by_contra hshort
      exact hlost (Coding.keeps_of_not_exceeds hcounted hafter hv hshort)

/-- A column gets shorter, in a character set with fewer characters. -/
theorem counts_lost_strings_iff_shorter :
    let before := Column.ofType "c" (.string false .text 20 ⟨some "utf8mb4", none⟩)
    let after := Column.ofType "c" (.string false .text 10 ⟨some "latin1", none⟩)
    after.type.IsString ∧ ∃ g, ofModifyColumn ⟨none, "t"⟩ .builtin before after = some g ∧
      g.sql = "SELECT count(*) FROM t WHERE (CHAR_LENGTH(c) > 10) OR " ++
        "(CONVERT(CONVERT(c USING latin1) USING utf8mb4) <> c)" ∧
      ∀ (S : Coding .builtin) (v : StoredValue S.Character), S.Reads before.type v →
        ¬ S.Keeps before.type after.type v → g.Counts (S.Satisfies before.type v) := by
  intro before after
  obtain ⟨g, hg, hsql⟩ : ∃ g, ofModifyColumn ⟨none, "t"⟩ .builtin before after = some g ∧
      g.sql = "SELECT count(*) FROM t WHERE (CHAR_LENGTH(c) > 10) OR " ++
        "(CONVERT(CONVERT(c USING latin1) USING utf8mb4) <> c)" :=
    ⟨_, rfl, by decide +kernel⟩
  have hafter : after.type.IsString := trivial
  refine ⟨hafter, g, hg, hsql, ?_⟩
  refine (counts_lost_strings_iff ⟨none, "t"⟩ .builtin hafter hg).2 (.inr fun c hc => ?_)
  cases hc
  exact nofun

/-- A space at the end of a text gets lost in a padded column of the same length, and is not counted. -/
theorem not_counts_space :
    let before := Column.ofType "c" (.string false .text 20 .none)
    let after := Column.ofType "c" (.string true .text 20 .none)
    ∃ g, ofModifyColumn ⟨none, "t"⟩ .builtin before after = some g ∧
      g.sql = "SELECT count(*) FROM t WHERE (CHAR_LENGTH(c) > 20)" ∧
      ∃ S : Coding .builtin, S.Reads before.type (.text [S.space]) ∧
        ¬ S.Keeps before.type after.type (.text [S.space]) ∧
        ¬ g.Counts (S.Satisfies before.type (.text [S.space])) := by
  intro before after
  obtain ⟨g, hg, hsql⟩ : ∃ g, ofModifyColumn ⟨none, "t"⟩ .builtin before after = some g ∧
      g.sql = "SELECT count(*) FROM t WHERE (CHAR_LENGTH(c) > 20)" :=
    ⟨_, rfl, by decide +kernel⟩
  have hroom : ¬ Catalog.builtin.LacksRoom := fun ⟨charset, hzero⟩ =>
    absurd (Catalog.one_le_maxBytes_builtin charset) (by omega)
  let S := Coding.uniform .builtin hroom none
  have hstored : S.Stores before.type (.text [S.space]) := ⟨(by decide : 1 ≤ 20), fun _ _ => trivial⟩
  refine ⟨g, hg, hsql, S, ⟨hstored, nofun⟩, fun hkeeps => ?_, fun hcounts => ?_⟩
  · obtain ⟨ds, hds, hsame⟩ := Coding.exists_text_of_keeps rfl hkeeps
    cases hsame
    exact hds.2 rfl rfl
  · have hafter : after.type.IsString := trivial
    rcases (counts_strings_iff hafter hg hstored).1 hcounts with hlong | hlacks
    · exact absurd hlong (by decide : ¬ 20 < 1)
    · exact hlacks fun _ _ => trivial

end Guard

end SchemaDrift
