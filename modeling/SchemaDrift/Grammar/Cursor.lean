import SchemaDrift.Grammar.Fault
import SchemaDrift.Token.Scan

/-!
A place among the tokens of a statement, and the steps that all grammars are made of. A step looks
at the next tokens, takes some of them, or fails at a token. The token that marks the end is never
taken.
-/

namespace SchemaDrift

/-- A place among tokens: those behind it, the latest first, and those ahead. -/
structure Cursor where
  behind : List Token
  ahead : List Token
  deriving DecidableEq, Repr

namespace Cursor

/-- Before the first token of a text. -/
def ofText (text : String) : Cursor := ⟨[], tokens text⟩

/-- The `n`-th token ahead; past the last one there is the end. -/
def lexemeAt (c : Cursor) (n : Nat) : Lexeme :=
  match c.ahead[n]? with
  | some t => t.lexeme
  | none => .ending

/-- Past the next `n` tokens. -/
def move (c : Cursor) (n : Nat) : Cursor := ⟨(c.ahead.take n).reverse ++ c.behind, c.ahead.drop n⟩

/-- Past the next token, if that is not the end. -/
def advance (c : Cursor) : Cursor :=
  match c.ahead with
  | [] => c
  | t :: rest => if t.lexeme = .ending then c else ⟨t :: c.behind, rest⟩

/-- Whether the words stand ahead, in any letter case. -/
def hasWords (c : Cursor) (words : List String) : Bool :=
  (words.zip (List.range words.length)).all fun (w, n) => (c.lexemeAt n).isWord w

/-- The fault that something else had to stand at the cursor. -/
def expected (c : Cursor) (what : String) : ReadingFault := ⟨.expected what, c.ahead⟩

/-- A fault at the token `back` places behind the cursor. -/
def fault (c : Cursor) (cause : FaultCause) (back : Nat) : ReadingFault :=
  ⟨cause, (c.behind.take back).reverse ++ c.ahead⟩

/-- The tokens between two places of one text, the second of which is not before the first. -/
def tokensTo (c d : Cursor) : List Token := c.ahead.take (c.ahead.length - d.ahead.length)

end Cursor

/-- The text of tokens from the first one's own text on. -/
def Token.slice : List Token → List Char
  | [] => []
  | t :: ts => t.text ++ Token.spelling ts

abbrev Parse := StateT Cursor (Except ReadingFault)

namespace Parse

/-- Fails: something else had to stand here. -/
def expected {α : Type} (what : String) : Parse α := fun c => .error (c.expected what)

/-- Fails at the token `back` places behind. -/
def fault {α : Type} (cause : FaultCause) (back : Nat) : Parse α :=
  fun c => .error (c.fault cause back)

/-- The next token, which stays. -/
def next : Parse Lexeme := fun c => .ok (c.lexemeAt 0, c)

/-- Takes the next token. -/
def advance : Parse Unit := fun c => .ok ((), c.advance)

/-- Takes the next token if it is the given one. -/
def accept (l : Lexeme) : Parse Bool := fun c =>
  if c.lexemeAt 0 = l then .ok (true, c.advance) else .ok (false, c)

def expect (l : Lexeme) (what : String) : Parse Unit := fun c =>
  if c.lexemeAt 0 = l then .ok ((), c.advance) else .error (c.expected what)

/-- Takes the words if all of them stand ahead. -/
def acceptWords (words : List String) : Parse Bool := fun c =>
  if c.hasWords words then .ok (true, c.move words.length) else .ok (false, c)

def acceptWord (word : String) : Parse Bool := acceptWords [word]

/-- Takes a word; `what` names it in the fault. -/
def expectWord (word : String) (what : String) : Parse Unit := fun c =>
  if c.hasWords [word] then .ok ((), c.move 1) else .error (c.expected what)

/-- Takes a keyword. -/
def keyword (word : String) : Parse Unit := expectWord word word

/-- Whether the next token is the word, which stays. -/
def atWord (word : String) : Parse Bool := fun c => .ok (c.hasWords [word], c)

/-- The next token in upper case, if it is an unquoted word. -/
def upperWord? : Parse (Option String) := fun c =>
  match c.lexemeAt 0 with
  | .word w => .ok (some (Text.upper w), c)
  | _ => .ok (none, c)

/-- Takes a token that `f` reads. -/
def taking {α : Type} (f : Lexeme → Option α) (what : String) : Parse α := fun c =>
  match f (c.lexemeAt 0) with
  | some a => .ok (a, c.advance)
  | none => .error (c.expected what)

/-- A bare or back-quoted name. -/
def identifier : String → Parse String := taking fun
  | .word n | .quotedName n => some n
  | _ => none

def string : String → Parse String := taking fun
  | .string s => some s
  | _ => none

/-- An unsigned number without fraction and exponent. -/
def number : String → Parse Nat := taking fun
  | .number n => Text.readNat Text.max32 n.toList
  | _ => none

/-- Any value that is a single token. -/
def value : String → Parse String := taking fun
  | .word v | .number v | .string v | .quotedName v | .literal v => some v
  | _ => none

/-- A name in an account. -/
def accountPart : String → Parse String := taking fun
  | .string s | .quotedName s | .word s => some s
  | _ => none

/-! ### Repetition -/

/-- Items with commas between them. After an item that takes no token the list ends; no grammar has
such items. -/
def separated {α : Type} (item : Parse α) : Parse (List α) := fun c =>
  match item c with
  | .error e => .error e
  | .ok (x, c₁) =>
    if c₁.lexemeAt 0 = .comma then
      let c₂ := c₁.advance
      if c₂.ahead.length < c.ahead.length then
        match separated item c₂ with
        | .error e => .error e
        | .ok (xs, c₃) => .ok (x :: xs, c₃)
      else .ok ([x], c₂)
    else .ok ([x], c₁)
termination_by c => c.ahead.length

/-- Repeats a step until it has nothing more to add. A step that takes no token is the last one. -/
def repeated {σ : Type} (step : σ → Parse (Option σ)) (s : σ) : Parse σ := fun c =>
  match step s c with
  | .error e => .error e
  | .ok (none, c₁) => .ok (s, c₁)
  | .ok (some s₁, c₁) =>
    if c₁.ahead.length < c.ahead.length then repeated step s₁ c₁ else .ok (s₁, c₁)
termination_by c => c.ahead.length

/-! ### Groups -/

/-- Cuts the tokens at the parenthesis that closes the `depth`-th open one: the tokens before it, it,
and the rest. -/
def closing : (depth : Nat) → List Token → Option (List Token × Token × List Token)
  | _, [] => none
  | depth, t :: rest =>
    let deeper (d : Nat) := (closing d rest).map fun (inner, close, rest) => (t :: inner, close, rest)
    match t.lexeme, depth with
    | .ending, _ => none
    | .openParen, d => deeper (d + 1)
    | .closeParen, 0 => some ([], t, rest)
    | .closeParen, d + 1 => deeper d
    | _, d => deeper d

/-- A group in parentheses; its result is the text between them. -/
def balanced : Parse String := do
  expect .openParen "`(`"
  let c ← get
  match closing 0 c.ahead with
  | some (inner, close, rest) =>
    set (⟨close :: inner.reverse ++ c.behind, rest⟩ : Cursor)
    return String.ofList (Text.trim (Token.spelling inner ++ close.gap))
  | none => fun _ => .error ⟨.expected "`)`", c.ahead.dropWhile (·.lexeme ≠ .ending)⟩

/-- Takes a token or a group, unless a comma, a closing parenthesis or the end comes next. -/
def skipPart (_ : Unit) : Parse (Option Unit) := do
  match ← next with
  | .comma | .closeParen | .ending => return none
  | .openParen => let _ ← balanced; return some ()
  | _ => advance; return some ()

/-- Takes all tokens of a definition that started at the cursor `start`; its result is their
text. -/
def restOfDefinition (start : Cursor) : Parse String := do
  repeated skipPart ()
  return String.ofList (Text.trim (Token.slice (start.tokensTo (← get))))

/-- The number in `( n )`. -/
def parenthesizedNumber (what : String) : Parse Nat := do
  expect .openParen "`(`"
  let n ← number what
  expect .closeParen "`)`"
  return n

/-- The number in `( n )`, if there is a parenthesis. -/
def optionalNumber (what : String) : Parse (Option Nat) := do
  if (← next) = .openParen then return some (← parenthesizedNumber what) else return none

/-! ### The end -/

/-- Whether the statement ends here. -/
def atEnd : Parse Bool := do
  let l ← next
  return l = .ending || l = .semicolon

/-- Takes the end of the statement, before which one semicolon may stand. -/
def ending : Parse Unit := do
  let _ ← accept .semicolon
  if (← next) = .ending then return () else expected "end of statement"

/-- Takes all tokens up to the end of the statement or a semicolon. -/
def skipToEnd : Parse Unit := fun c =>
  let rest := c.ahead.dropWhile fun t => t.lexeme ≠ .ending && t.lexeme ≠ .semicolon
  .ok ((), c.move (c.ahead.length - rest.length))

end Parse

end SchemaDrift
