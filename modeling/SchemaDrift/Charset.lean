import SchemaDrift.Text.Case
import SchemaDrift.Text.Joined

/-!
Character sets: their names, default collations, width per character, and which of them can hold all
characters of another. A catalog answers these questions for one server; what the server reports
comes before the built-in facts.
-/

namespace SchemaDrift

/-- What is known of one character set. -/
structure CharsetFacts where
  name : String
  /-- The collation of a column that names only the character set. -/
  defaultCollation : String
  /-- The most bytes that one character takes. -/
  maxBytes : Nat
  deriving DecidableEq, Repr

namespace Charset

/-- The name in lower case, with the old name of `utf8mb3` replaced. -/
def canonical (name : String) : String :=
  let n := Text.lower name
  if n = "utf8" then "utf8mb3" else n

/-- A collation's name in lower case, with the old name of its character set replaced. -/
def canonicalCollation (collation : String) : String :=
  let n := Text.lower collation
  match Text.afterStart? "utf8_".toList n.toList with
  | some rest => "utf8mb3_" ++ String.ofList rest
  | none => n

/-- The character set of a collation: the part of its name before the first underscore. -/
def ofCollation (collation : String) : String :=
  let n := canonicalCollation collation
  match Text.cutFirst '_' n.toList with
  | some (charset, _) => canonical (String.ofList charset)
  | none => n

/-- The character set that holds where none is named. -/
def fallback : String := "utf8mb4"

/-- The character sets that hold every character. -/
def fullUnicode : List String := ["utf8mb4", "utf16", "utf16le", "utf32", "gb18030"]

/-- The character sets that hold the basic multilingual plane and no more. -/
def basicPlane : List String := ["utf8mb3", "ucs2"]

/-- Whether every character of `source` is also one of `target`. A set of bytes is covered by itself
alone; among the other sets only the containments listed here are relied on. -/
def covers (source target : String) : Bool :=
  let a := canonical source
  let b := canonical target
  if a = b then true
  else if a = "binary" || b = "binary" then false
  else if a = "ascii" then true
  else if fullUnicode.contains b then true
  else if basicPlane.contains b then a = "latin1" || basicPlane.contains a
  else false

/-- The character sets of a server that reports nothing. -/
def builtin : List CharsetFacts := [
  ⟨"armscii8", "armscii8_general_ci", 1⟩,
  ⟨"ascii", "ascii_general_ci", 1⟩,
  ⟨"big5", "big5_chinese_ci", 2⟩,
  ⟨"binary", "binary", 1⟩,
  ⟨"cp1250", "cp1250_general_ci", 1⟩,
  ⟨"cp1251", "cp1251_general_ci", 1⟩,
  ⟨"cp1256", "cp1256_general_ci", 1⟩,
  ⟨"cp1257", "cp1257_general_ci", 1⟩,
  ⟨"cp850", "cp850_general_ci", 1⟩,
  ⟨"cp852", "cp852_general_ci", 1⟩,
  ⟨"cp866", "cp866_general_ci", 1⟩,
  ⟨"cp932", "cp932_japanese_ci", 2⟩,
  ⟨"dec8", "dec8_swedish_ci", 1⟩,
  ⟨"eucjpms", "eucjpms_japanese_ci", 3⟩,
  ⟨"euckr", "euckr_korean_ci", 2⟩,
  ⟨"gb18030", "gb18030_chinese_ci", 4⟩,
  ⟨"gb2312", "gb2312_chinese_ci", 2⟩,
  ⟨"gbk", "gbk_chinese_ci", 2⟩,
  ⟨"geostd8", "geostd8_general_ci", 1⟩,
  ⟨"greek", "greek_general_ci", 1⟩,
  ⟨"hebrew", "hebrew_general_ci", 1⟩,
  ⟨"hp8", "hp8_english_ci", 1⟩,
  ⟨"keybcs2", "keybcs2_general_ci", 1⟩,
  ⟨"koi8r", "koi8r_general_ci", 1⟩,
  ⟨"koi8u", "koi8u_general_ci", 1⟩,
  ⟨"latin1", "latin1_swedish_ci", 1⟩,
  ⟨"latin2", "latin2_general_ci", 1⟩,
  ⟨"latin5", "latin5_turkish_ci", 1⟩,
  ⟨"latin7", "latin7_general_ci", 1⟩,
  ⟨"macce", "macce_general_ci", 1⟩,
  ⟨"macroman", "macroman_general_ci", 1⟩,
  ⟨"sjis", "sjis_japanese_ci", 2⟩,
  ⟨"swe7", "swe7_swedish_ci", 1⟩,
  ⟨"tis620", "tis620_thai_ci", 1⟩,
  ⟨"ucs2", "ucs2_general_ci", 2⟩,
  ⟨"ujis", "ujis_japanese_ci", 3⟩,
  ⟨"utf16", "utf16_general_ci", 4⟩,
  ⟨"utf16le", "utf16le_general_ci", 4⟩,
  ⟨"utf32", "utf32_general_ci", 4⟩,
  ⟨"utf8mb3", "utf8mb3_general_ci", 3⟩,
  ⟨"utf8mb4", "utf8mb4_0900_ai_ci", 4⟩]

end Charset

/-- The character sets of a server: those that it reported, the latest first. -/
structure Catalog where
  reported : List CharsetFacts
  deriving DecidableEq, Repr

namespace Catalog

/-- The catalog with the built-in facts alone. -/
def builtin : Catalog := ⟨[]⟩

/-- The catalog of the reported rows: name, default collation, bytes per character. -/
def ofReport (rows : List (String × String × Nat)) : Catalog :=
  ⟨(rows.map fun (name, collation, maxBytes) =>
    ⟨Charset.canonical name, Charset.canonicalCollation collation, maxBytes⟩).reverse⟩

/-- The facts of a character set; a later report overrides an earlier one, and any report the
built-in facts. -/
def find? (c : Catalog) (charset : String) : Option CharsetFacts :=
  (c.reported ++ Charset.builtin).find? fun f => f.name = Charset.canonical charset

/-- The most bytes per character; an unknown character set counts as four bytes wide. -/
def maxBytes (c : Catalog) (charset : String) : Nat :=
  match c.find? charset with
  | some f => f.maxBytes
  | none => 4

/-- Whether the collation is the one that the character set implies. -/
def isDefaultCollation (c : Catalog) (charset collation : String) : Bool :=
  (c.find? charset).any fun f => f.defaultCollation = Charset.canonicalCollation collation

end Catalog

end SchemaDrift
