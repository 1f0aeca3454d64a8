import SchemaDrift.Sql

/-!
Keys of a table, and the names that a server gives to those without one.
-/

namespace SchemaDrift

inductive KeyKind where
  | primary
  | unique
  | plain
  | fulltext
  | spatial
  deriving DecidableEq, Repr

def KeyKind.sql : KeyKind → String
  | primary => "PRIMARY KEY"
  | unique => "UNIQUE KEY"
  | plain => "KEY"
  | fulltext => "FULLTEXT KEY"
  | spatial => "SPATIAL KEY"

/-- One part of a key: a column, or the start of one, or an expression. -/
structure KeyPart where
  /-- The column's name, or the expression as written. -/
  name : String
  isExpression : Bool
  /-- How much of the column counts. -/
  length? : Option Nat
  descending : Bool
  deriving DecidableEq, Repr

namespace KeyPart

def ofColumn (name : String) : KeyPart := ⟨name, false, none, false⟩

def sql (p : KeyPart) : String :=
  (if p.isExpression then "(" ++ p.name ++ ")" else Sql.name p.name) ++
  (match p.length? with
    | some n => "(" ++ Text.decimal n ++ ")"
    | none => "") ++
  (if p.descending then " DESC" else "")

/-- Equality up to the letter case of the name. -/
def same (p q : KeyPart) : Bool :=
  Text.sameName p.name q.name && p.length? = q.length? && p.descending = q.descending &&
    p.isExpression = q.isExpression

end KeyPart

structure Key where
  kind : KeyKind
  name? : Option String
  parts : List KeyPart
  /-- The index structure, where one is asked for. -/
  method? : Option String
  comment? : Option String
  deriving DecidableEq, Repr

namespace Key

/-- A key without name and attributes. -/
def ofParts (kind : KeyKind) (parts : List KeyPart) : Key := ⟨kind, none, parts, none, none⟩

/-- The key as a declaration writes it; a primary key has no name of its own. -/
def sql (k : Key) : String :=
  k.kind.sql ++ " " ++
  (match k.name? with
    | some n => if k.kind = .primary then "" else Sql.name n ++ " "
    | none => "") ++
  "(" ++ Text.joined ", " (k.parts.map KeyPart.sql) ++ ")" ++
  (match k.method? with
    | some m => " USING " ++ m
    | none => "") ++
  (match k.comment? with
    | some text => " COMMENT " ++ Sql.string text
    | none => "")

/-- Equality of all but the names. An absent comment is an empty one. -/
def sameDefinition (a b : Key) : Bool :=
  a.kind = b.kind && a.parts.length = b.parts.length &&
    (a.parts.zip b.parts).all (fun (p, q) => p.same q) &&
    a.method?.map Text.upper = b.method?.map Text.upper &&
    a.comment?.getD "" = b.comment?.getD ""

/-- Gives a name to a key that can have one. -/
def withName (name : String) (k : Key) : Key :=
  if k.kind = .primary then k else { k with name? := some name }

/-! ### Names given by the server -/

/-- The name under which keys of the primary kind are known. -/
def primaryName : String := "PRIMARY"

/-- The names that the keys carry themselves, in lower case. -/
def ownNames (ks : List Key) : List String :=
  (ks.filter (·.kind ≠ .primary)).filterMap fun k => k.name?.map Text.lower

/-- The `n`-th name to try for a key: its base, then the base with a number from 2 on. -/
def candidate (base : String) : Nat → String
  | 0 => base
  | n + 1 => base ++ "_" ++ Text.decimal (n + 2)

/-- The first candidate from the `n`-th on that is not taken, among the next `tries`. -/
def firstFree (taken : List String) (base : String) : (tries n : Nat) → String
  | 0, n => candidate base n
  | tries + 1, n =>
    if taken.contains (Text.lower (candidate base n)) then firstFree taken base tries (n + 1)
    else candidate base n

/-- The name of an unnamed key: its first part's, numbered if that is taken. One of as many
candidates as there are taken names, and one more, is free. -/
def freshName (taken : List String) (k : Key) : String :=
  let base := match k.parts with
    | [] => "key"
    | p :: _ => p.name
  firstFree taken base taken.length 0

/-- The keys with the names by which the server knows them. -/
def named (taken : List String) : List Key → List (String × Key)
  | [] => []
  | k :: ks =>
    if k.kind = .primary then (primaryName, k) :: named taken ks
    else match k.name? with
      | some n => (n, k) :: named taken ks
      | none =>
        let n := freshName taken k
        (n, k) :: named (Text.lower n :: taken) ks

end Key

end SchemaDrift
