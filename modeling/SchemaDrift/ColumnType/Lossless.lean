import SchemaDrift.ColumnType

/-!
Lossless conversion: whether a column can change its type with every stored value kept as it is. The
answer is on the safe side. A refusal only means that the stored values have to be looked at.
-/

namespace SchemaDrift.ColumnType

/-- The most members that a set may list. -/
def maxSetMembers : Nat := 64

/-- What a string type can hold. -/
structure Capacity where
  chars : Nat
  bytes : Nat
  content : Content
  padded : Bool
  charset : String

/-- The character set of an encoding, with the server's own where nothing is named. -/
def charsetOf (e : Encoding) : String := e.effectiveCharset?.getD Charset.fallback

/-- The capacity of a string type; bytes are their own character set. -/
def capacity? (catalog : Catalog) : ColumnType → Option Capacity
  | string padded .bytes length _ => some ⟨length, length, .bytes, padded, "binary"⟩
  | string padded .text length e =>
    some ⟨length, length * catalog.maxBytes (charsetOf e), .text, padded, charsetOf e⟩
  | lob size .bytes _ => some ⟨size.capacity, size.capacity, .bytes, false, "binary"⟩
  | lob size .text e => some ⟨size.capacity, size.capacity, .text, false, charsetOf e⟩
  | _ => none

/-- Whether all values of one capacity are values of the other. A padded target adds or strips
padding, which only a padded source is proof against. -/
def Capacity.fits (a b : Capacity) : Bool :=
  a.content = b.content && (!b.padded || a.padded) &&
    (a.content = .bytes || Charset.covers a.charset b.charset) &&
    a.chars ≤ b.chars && a.bytes ≤ b.bytes

/-- The most characters that an exact number takes in decimal. -/
def numberChars? : ColumnType → Option Nat
  | integer size _ flags => some (size.maxChars flags.isUnsigned)
  | decimal precision scale flags =>
    some (precision + (if 0 < scale then 1 else 0) + (if flags.isUnsigned then 0 else 1))
  | _ => none

/-- Negative values stay possible if there were any. -/
def signKept (a b : NumberFlags) : Bool := a.isUnsigned || !b.isUnsigned

/-- Digits before and after the point do not get fewer. -/
def digitsKept (p₁ s₁ p₂ s₂ : Nat) : Bool := s₁ ≤ s₂ && p₁ - s₁ ≤ p₂ - s₂

/-- Whether every integer of the first type is one of the second. -/
def integerFits (a : IntegerSize) (fa : NumberFlags) (b : IntegerSize) (fb : NumberFlags) : Bool :=
  match fa.isUnsigned, fb.isUnsigned with
  | false, true => false
  | true, false => a.bytes < b.bytes
  | _, _ => a.bytes ≤ b.bytes

/-- Whether a column of the first type can become one of the second with every value kept. -/
def losslessTo (catalog : Catalog) (a b : ColumnType) : Bool :=
  a = b ||
  match a, b with
  | integer s₁ _ f₁, integer s₂ _ f₂ => integerFits s₁ f₁ s₂ f₂
  | decimal p₁ s₁ f₁, decimal p₂ s₂ f₂ => signKept f₁ f₂ && digitsKept p₁ s₁ p₂ s₂
  | floating s₁ d₁ f₁, floating s₂ d₂ f₂ =>
    signKept f₁ f₂ && s₁.fits s₂ &&
      match d₁, d₂ with
      | _, none => true
      | none, some _ => false
      | some (p, s), some (p', s') => digitsKept p s p' s'
  | integer .., string _ .text length _ | decimal .., string _ .text length _ =>
    (numberChars? a).any (· ≤ length)
  | integer .., lob _ content _ | decimal .., lob _ content _ => content = .text
  | string .., string .. | string .., lob .. | lob .., string .. | lob .., lob .. =>
    match capacity? catalog a, capacity? catalog b with
    | some c, some d => c.fits d
    | _, _ => false
  | choice k₁ m₁ e₁, choice k₂ m₂ e₂ =>
    (match k₁, k₂ with
      | .set, .enum => false
      | .enum, .set => m₂.length ≤ maxSetMembers
      | _, _ => true) &&
    m₁.all m₂.contains && Charset.covers (charsetOf e₁) (charsetOf e₂)
  | clock k₁ n₁, clock k₂ n₂ => k₁ = k₂ && n₁ ≤ n₂
  | bit n₁, bit n₂ => n₁.getD 1 ≤ n₂.getD 1
  | plain t₁, plain t₂ => t₁ = t₂
  | _, _ => false

@[simp] theorem losslessTo_self (catalog : Catalog) (a : ColumnType) :
    losslessTo catalog a a = true := by
  simp [losslessTo]

end SchemaDrift.ColumnType
