/-!
Joining texts with a separator, cutting at one, and replacing one text by another.
-/

namespace SchemaDrift.Text

/-- The texts in order, with the separator between any two neighbours. -/
def joined (separator : String) : List String → String
  | [] => ""
  | [s] => s
  | s :: t :: rest => s ++ separator ++ joined separator (t :: rest)

/-- The texts before and after the first occurrence of `c`. -/
def cutFirst (c : Char) (cs : List Char) : Option (List Char × List Char) :=
  match cs.dropWhile (· != c) with
  | [] => none
  | _ :: rest => some (cs.takeWhile (· != c), rest)

/-- The texts before and after the last occurrence of `c`. -/
def cutLast (c : Char) (cs : List Char) : Option (List Char × List Char) :=
  (cutFirst c cs.reverse).map fun (back, front) => (front.reverse, back.reverse)

/-- The rest of `cs` after `start`, if it starts so. -/
def afterStart? : (start cs : List Char) → Option (List Char)
  | [], cs => some cs
  | _ :: _, [] => none
  | p :: ps, c :: cs => if p = c then afterStart? ps cs else none

def startsWith (start s : String) : Bool := (afterStart? start.toList s.toList).isSome

/-- Writes the character `c` twice wherever it stands. -/
def doubled (c : Char) (cs : List Char) : List Char :=
  cs.flatMap fun d => if d = c then [c, c] else [d]

/-- Reads two neighbouring `c` as one, from the left. -/
def undoubled (c : Char) : List Char → List Char
  | [] => []
  | [d] => [d]
  | d :: e :: rest => if d = c && e = c then c :: undoubled c rest else d :: undoubled c (e :: rest)

end SchemaDrift.Text
