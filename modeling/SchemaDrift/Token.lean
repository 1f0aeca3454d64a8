import SchemaDrift.Text.Case
import SchemaDrift.Text.Joined

/-!
Tokens of a statement. A token remembers the text that spells it and the blanks and comments before
it, so that a run of tokens gives back the text it was read from. Words are not told apart from
keywords here: whether a word is one depends on where it stands.
-/

namespace SchemaDrift

/-- Number of bytes of a text in UTF-8. -/
def Text.byteSize : List Char → Nat
  | [] => 0
  | c :: cs => c.utf8Size + Text.byteSize cs

theorem Text.byteSize_append (as bs : List Char) :
    Text.byteSize (as ++ bs) = Text.byteSize as + Text.byteSize bs := by
  induction as with
  | nil => simp [Text.byteSize]
  | cons a as ih => simp [Text.byteSize, ih, Nat.add_assoc]

inductive Malformed where
  | identifier
  | string
  | literal
  deriving DecidableEq, Repr

def Malformed.message : Malformed → String
  | .identifier => "unterminated quoted identifier"
  | .string => "unterminated string literal"
  | .literal => "unterminated bit or hex literal"

inductive Lexeme where
  /-- An identifier or keyword without quotes. -/
  | word (text : String)
  /-- An identifier in back quotes, unquoted. -/
  | quotedName (name : String)
  /-- A string in single or double quotes, unescaped. -/
  | string (value : String)
  /-- An unsigned number as written. -/
  | number (text : String)
  /-- A bit or hex literal as written. -/
  | literal (text : String)
  | openParen
  | closeParen
  | comma
  | dot
  | equals
  | atSign
  | semicolon
  | star
  /-- Any other single character. -/
  | other (c : Char)
  | malformed (reason : Malformed)
  /-- The end of the text. -/
  | ending
  deriving DecidableEq, Repr

namespace Lexeme

/-- The characters that are tokens by themselves. -/
def ofPunctuation? (c : Char) : Option Lexeme :=
  if c = '(' then some .openParen
  else if c = ')' then some .closeParen
  else if c = ',' then some .comma
  else if c = '.' then some .dot
  else if c = '=' then some .equals
  else if c = '@' then some .atSign
  else if c = ';' then some .semicolon
  else if c = '*' then some .star
  else none

/-- The text of a token in messages. -/
def shown : Lexeme → String
  | word t | number t | literal t => t
  | quotedName n => "`" ++ String.ofList (Text.doubled '\x60' n.toList) ++ "`"
  | string v => "'" ++ String.ofList (Text.doubled '\x27' v.toList) ++ "'"
  | openParen => "("
  | closeParen => ")"
  | comma => ","
  | dot => "."
  | equals => "="
  | atSign => "@"
  | semicolon => ";"
  | star => "*"
  | other c => String.singleton c
  | malformed r => "<" ++ r.message ++ ">"
  | ending => "end of statement"

/-- Whether the token is the unquoted word `w`, in any letter case. -/
def isWord (w : String) : Lexeme → Bool
  | word t => Text.sameName t w
  | _ => false

end Lexeme

/-- The words that the grammars branch on. -/
def keywords : List String := [
  "CREATE", "ALTER", "GRANT", "REVOKE", "INSERT", "REPLACE", "TABLE", "USER", "TEMPORARY",
  "IF", "NOT", "EXISTS",
  "NULL", "DEFAULT", "AUTO_INCREMENT", "COMMENT", "ON", "UPDATE", "CHARACTER", "CHARSET", "SET",
  "COLLATE", "UNSIGNED", "SIGNED", "ZEROFILL",
  "PRIMARY", "KEY", "INDEX", "UNIQUE", "FULLTEXT", "SPATIAL", "USING", "ASC", "DESC",
  "CONSTRAINT", "FOREIGN", "CHECK", "REFERENCES",
  "TO", "FROM", "WITH", "OPTION", "ALL", "PRIVILEGES",
  "IDENTIFIED", "REQUIRE", "NONE", "SSL", "X509", "CIPHER", "ISSUER", "SUBJECT", "AND",
  "BINARY", "VARYING", "PRECISION", "NATIONAL", "LONG",
  "LIKE", "AS"]

structure Span where
  start : Nat
  stop : Nat
  deriving DecidableEq, Repr, Inhabited

structure Token where
  /-- The blanks and comments before the token. -/
  gap : List Char
  /-- The token as written. -/
  text : List Char
  lexeme : Lexeme
  /-- Bytes before the token's text. -/
  start : Nat
  deriving DecidableEq, Repr

namespace Token

def span (t : Token) : Span := ⟨t.start, t.start + Text.byteSize t.text⟩

/-- The keyword that the token spells, if it is an unquoted word. -/
def keyword? (t : Token) : Option String :=
  match t.lexeme with
  | .word w => keywords.find? fun k => Text.upper w == k
  | _ => none

/-- The text that the tokens were read from. -/
def spelling (ts : List Token) : List Char := ts.flatMap fun t => t.gap ++ t.text

end Token

end SchemaDrift
