import Mathlib
import SchemaDrift.Guard.Condition
import SchemaDrift.Proofs.StoredValues

/-!
Texts and their bytes. A coding says which bytes every character takes in every character set, so that a
text can become a byte string and back. A column gives out what it stores, but a padded text without the
spaces at its end. A conversion keeps a value if the new type gives out the same content.
-/

namespace SchemaDrift

open ColumnType (charsetOf)

/-- A storage with the codes of its characters. The bytes of a text determine it. Every character set
has the space, and the character that stands in for those that it lacks. -/
structure Coding (catalog : Catalog) extends Storage catalog where
  code : (charset : String) → Character → List UInt8
  length_code : ∀ (charset : String) (c : Character), (code charset c).length = width charset c
  /-- Two names of one character set stand for the same codes. -/
  code_canonical : ∀ (charset : String) (c : Character),
    code (Charset.canonical charset) c = code charset c
  decodes : ∀ {charset : String} {cs ds : List Character}, (∀ c ∈ cs, holds charset c) →
    (∀ d ∈ ds, holds charset d) → cs.flatMap (code charset) = ds.flatMap (code charset) → cs = ds
  space : Character
  replacement : Character
  holds_space : ∀ charset : String, holds charset space
  holds_replacement : ∀ charset : String, holds charset replacement

/-- Some character set has no room for any character. -/
def Catalog.LacksRoom (catalog : Catalog) : Prop := ∃ charset, catalog.maxBytes charset = 0

/-- Whether spaces at the end of a value get lost. -/
def ColumnType.stripsSpaces : ColumnType → Bool
  | string padded .text _ _ => padded
  | _ => false

namespace Coding

variable {catalog : Catalog}

def encode (S : Coding catalog) (charset : String) (cs : List S.Character) : List UInt8 :=
  cs.flatMap (S.code charset)

open Classical in
/-- The text in a character set, with replacements for the characters that this lacks. -/
noncomputable def convert (S : Coding catalog) (charset : String) (cs : List S.Character) :
    List S.Character :=
  cs.map fun c => if S.holds charset c then c else S.replacement

def EndsInSpace (S : Coding catalog) : StoredValue S.Character → Prop
  | .text cs => cs.getLast? = some S.space
  | .bytes _ => False

/-- Whether a column of the type can give out the value. -/
def Reads (S : Coding catalog) (a : ColumnType) (v : StoredValue S.Character) : Prop :=
  S.Stores a v ∧ (a.stripsSpaces = true → ¬ S.EndsInSpace v)

/-- The same text or the same bytes; a text and a byte string are the same if these are its bytes, in
the character set of the text. -/
def SameContent (S : Coding catalog) (a b : ColumnType) :
    StoredValue S.Character → StoredValue S.Character → Prop
  | .text cs, .text ds => cs = ds
  | .bytes bs, .bytes ds => bs = ds
  | .text cs, .bytes bs => S.encode a.charset cs = bs
  | .bytes bs, .text cs => S.encode b.charset cs = bs

/-- Whether the value keeps its content when its column changes from one type to the other. -/
def Keeps (S : Coding catalog) (a b : ColumnType) (v : StoredValue S.Character) : Prop :=
  ∃ w, S.Reads b w ∧ S.SameContent a b v w

def bytesOf (S : Coding catalog) (charset : String) : StoredValue S.Character → List UInt8
  | .text cs => S.encode charset cs
  | .bytes bs => bs

variable {S : Coding catalog} {a b : ColumnType} {v : StoredValue S.Character}
  {charset target source : String} {cs : List S.Character} {n : ℕ}

/-! ### Bytes -/

lemma length_encode (charset : String) (cs : List S.Character) :
    (S.encode charset cs).length = S.size charset cs := by
  simp only [encode, List.length_flatMap, S.length_code]
  rfl

lemma keeps_of_stores_bytesOf (h : S.Stores b (.bytes (S.bytesOf a.charset v))) : S.Keeps a b v := by
  refine ⟨.bytes (S.bytesOf a.charset v), ⟨h, fun _ => id⟩, ?_⟩
  cases v <;> rfl

lemma keeps_text (h : S.Stores b (.text cs))
    (hspaces : b.stripsSpaces = true → ¬ S.EndsInSpace (.text cs)) : S.Keeps a b (.text cs) :=
  ⟨.text cs, ⟨h, hspaces⟩, rfl⟩

lemma keeps_nil (h : S.Stores b (.text [])) : S.Keeps a b (.bytes []) :=
  ⟨.text [], ⟨h, fun _ => by simp [EndsInSpace]⟩, rfl⟩

/-! ### Characters that a character set lacks -/

lemma convert_eq_self (h : ∀ c ∈ cs, S.holds charset c) : S.convert charset cs = cs := by
  unfold convert
  conv_rhs => rw [← List.map_id cs]
  exact List.map_congr_left fun c hc => if_pos (h c hc)

lemma convert_convert_eq_self_iff (h : ∀ c ∈ cs, S.holds source c) :
    S.convert source (S.convert target cs) = cs ↔ ∀ c ∈ cs, S.holds target c := by
  constructor
  · intro heq c hc
    by_contra hlacks
    unfold convert at heq
    rw [List.map_map] at heq
    conv_rhs at heq => rw [← List.map_id cs]
    -- the replacement for `c` is left alone on the way back, and `c` would be held if it were that
    have hsame := List.map_inj_left.1 heq c hc
    rw [Function.comp_apply, if_neg hlacks, if_pos (S.holds_replacement source), id] at hsame
    exact hlacks (hsame ▸ S.holds_replacement target)
  · intro htarget
    rw [convert_eq_self htarget, convert_eq_self h]

/-! ### A coding for every catalog with room -/

lemma flatMap_injective {α : Type} {code : α → List UInt8} (hn : 0 < n)
    (hlength : ∀ c, (code c).length = n) (hcode : Function.Injective code) :
    Function.Injective (List.flatMap code) := by
  have hne (c : α) : code c ≠ [] := List.ne_nil_of_length_pos ((hlength c).symm ▸ hn)
  intro cs
  induction cs with
  | nil =>
    intro ds h
    cases ds with
    | nil => rfl
    | cons d ds => exact absurd (List.append_eq_nil_iff.1 h.symm).1 (hne d)
  | cons c cs ih =>
    intro ds h
    cases ds with
    | nil => exact absurd (List.append_eq_nil_iff.1 h).1 (hne c)
    | cons d ds =>
      rw [List.flatMap_cons, List.flatMap_cons] at h
      obtain ⟨hhead, htail⟩ := List.append_inj h (by rw [hlength, hlength])
      rw [hcode hhead, ih htail]

/-- One byte for every character, but as many as there can be in the wide character set. -/
def uniformWidth (catalog : Catalog) (wide : Option String) (charset : String) : ℕ :=
  if wide = some (Charset.canonical charset) then catalog.maxBytes charset else 1

section

variable (hroom : ¬ catalog.LacksRoom) {wide : Option String}

include hroom

lemma one_le_uniformWidth : 1 ≤ uniformWidth catalog wide charset := by
  have hpos : catalog.maxBytes charset ≠ 0 := fun hzero => hroom ⟨charset, hzero⟩
  unfold uniformWidth
  split <;> omega

lemma uniformWidth_le : uniformWidth catalog wide charset ≤ catalog.maxBytes charset := by
  have hpos : catalog.maxBytes charset ≠ 0 := fun hzero => hroom ⟨charset, hzero⟩
  unfold uniformWidth
  split <;> omega

end

lemma uniformWidth_canonical (wide : Option String) (charset : String) :
    uniformWidth catalog wide (Charset.canonical charset) = uniformWidth catalog wide charset := by
  rw [uniformWidth, uniformWidth, Charset.canonical_canonical,
    catalog.maxBytes_congr (Charset.canonical_canonical charset)]

lemma flatMap_replicate_injective (hn : 0 < n) : Function.Injective (List.flatMap fun c : Bool =>
    List.replicate n (if c then (0x3F : UInt8) else 0x20)) := by
  refine flatMap_injective hn (fun _ => List.length_replicate ..) fun c d hcode => ?_
  have hbyte := (List.replicate_right_inj hn.ne').1 hcode
  cases c <;> cases d <;> first | rfl | cases hbyte

/-- The space and one other character, which each take the same number of bytes: all of them the code
that the character has in ASCII. -/
def uniform (catalog : Catalog) (hroom : ¬ catalog.LacksRoom) (wide : Option String) :
    Coding catalog where
  Character := Bool
  holds _ _ := True
  width charset _ := uniformWidth catalog wide charset
  code charset c := List.replicate (uniformWidth catalog wide charset) (if c then 0x3F else 0x20)
  space := false
  replacement := true
  holds_of_covers := fun _ h => h
  holds_space _ := trivial
  holds_replacement _ := trivial
  length_code _ _ := List.length_replicate ..
  one_le_width := fun _ => one_le_uniformWidth hroom
  width_le := fun _ => uniformWidth_le hroom
  width_canonical charset _ := uniformWidth_canonical wide charset
  code_canonical charset c := by rw [uniformWidth_canonical]
  decodes := fun _ _ h => flatMap_replicate_injective (one_le_uniformWidth hroom) h

lemma not_lacksRoom (S : Coding catalog) : ¬ catalog.LacksRoom := by
  rintro ⟨charset, hzero⟩
  have hone := S.one_le_width (S.holds_space charset)
  have hmax := S.width_le (S.holds_space charset)
  omega

end Coding

end SchemaDrift
