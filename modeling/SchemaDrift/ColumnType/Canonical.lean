import SchemaDrift.ColumnType

/-!
Canonical form of types. Two declarations mean the same column type exactly if their canonical forms
are equal: what a server does not store is dropped, what it adds is written out, and encodings are
resolved against those of the table.
-/

namespace SchemaDrift

/-- The encoding with what it leaves open taken from the table's `defaults`. A collation that its
character set implies is left out; the table's collation counts only under the table's own character
set. -/
def Encoding.canonical (e defaults : Encoding) (catalog : Catalog) : Encoding :=
  let charset := e.effectiveCharset?.orElse fun _ => defaults.effectiveCharset?
  let collation :=
    match e.collation with
    | some c => some (Charset.canonicalCollation c)
    | .none =>
      if charset.isSome && defaults.effectiveCharset? = charset then
        defaults.collation.map Charset.canonicalCollation
      else .none
  let implied :=
    match charset, collation with
    | some cs, some co => catalog.isDefaultCollation cs co
    | _, _ => false
  ⟨charset, if implied then .none else collation⟩

namespace ColumnType

/-- Filling with zeros implies unsigned values. -/
def impliedFlags (f : NumberFlags) : NumberFlags := ⟨f.isUnsigned || f.zerofill, f.zerofill⟩

/-- The canonical form. The width of an integer matters only where zeros fill it up. -/
def canonical (defaults : Encoding) (catalog : Catalog) : ColumnType → ColumnType
  | integer size width flags =>
    integer size (if flags.zerofill then some (width.getD (size.maxChars true)) else none)
      (impliedFlags flags)
  | decimal precision scale flags => decimal precision scale (impliedFlags flags)
  | floating size digits flags => floating size digits (impliedFlags flags)
  | string padded .bytes length _ => string padded .bytes length .none
  | string padded .text length e => string padded .text length (e.canonical defaults catalog)
  | lob size .bytes _ => lob size .bytes .none
  | lob size .text e => lob size .text (e.canonical defaults catalog)
  | choice kind members e => choice kind members (e.canonical defaults catalog)
  | clock kind fraction => clock kind fraction
  | bit length => bit length
  | plain t => plain t

end ColumnType

end SchemaDrift
