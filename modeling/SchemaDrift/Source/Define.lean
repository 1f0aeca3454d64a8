import SchemaDrift.Ordered.Map
import SchemaDrift.Text.Blank
import SchemaDrift.Text.Joined

/-!
Substitutions: a name in braces after a dollar sign stands for the value that is defined for it.
What a value contains is not substituted again.
-/

namespace SchemaDrift

/-- Values by name. -/
abbrev Defines := OrderedMap String String

namespace Defines

/-! ### Definitions as arguments -/

/-- A definition as name, equals sign and value; blanks around the name do not count. -/
def ofArgument? (argument : String) : Option (String × String) :=
  (Text.cutFirst '=' argument.toList).map fun (name, value) =>
    (String.ofList (Text.trim name), String.ofList value)

def refusal (argument : String) : String := "expected NAME=VALUE, got `" ++ argument ++ "`"

/-! ### Placeholders -/

def isNameStart (c : Char) : Bool := c.isAlpha || c = '_'

def isNameChar (c : Char) : Bool := c.isAlphanum || c = '_'

/-- The name that follows an opening brace, and what follows its closing one. -/
def name? : List Char → Option (String × List Char)
  | [] => none
  | c :: cs =>
    if isNameStart c then
      match cs.dropWhile isNameChar with
      | '\x7d' :: rest => some (String.ofList (c :: cs.takeWhile isNameChar), rest)
      | _ => none
    else none

theorem length_of_name? {cs rest : List Char} {name : String} (h : name? cs = some (name, rest)) :
    rest.length < cs.length := by
  cases cs with
  | nil => simp [name?] at h
  | cons c cs =>
    rw [name?] at h
    split at h
    · split at h
      · rename_i r hr
        obtain ⟨rfl, rfl⟩ : _ ∧ r = rest := by simpa using h
        have := (List.dropWhile_sublist isNameChar (l := cs)).length_le
        simp [hr] at this
        simp
        omega
      · contradiction
    · contradiction

/-- The placeholder at the start of a text: its value, and what follows it. A name without a value
makes no placeholder. -/
def placeholder? (ds : Defines) : List Char → Option (String × List Char)
  | '$' :: '\x7b' :: cs =>
    (name? cs).bind fun (name, rest) => (ds.get? name).map fun value => (value, rest)
  | _ => none

theorem length_of_placeholder? {ds : Defines} {cs rest : List Char} {value : String}
    (h : placeholder? ds cs = some (value, rest)) : rest.length < cs.length := by
  unfold placeholder? at h
  split at h
  · simp only [Option.bind_eq_some_iff, Option.map_eq_some_iff, Prod.exists] at h
    obtain ⟨name, r, hn, v, hv, heq⟩ := h
    obtain ⟨rfl, rfl⟩ : v = value ∧ r = rest := by simpa using heq
    have := length_of_name? hn
    simp only [List.length_cons]
    omega
  · contradiction

/-- Replaces the placeholders from left to right. -/
def substituteChars (ds : Defines) (cs : List Char) : List Char :=
  match _found : placeholder? ds cs with
  | some (value, rest) => value.toList ++ substituteChars ds rest
  | none =>
    match cs with
    | [] => []
    | c :: cs => c :: substituteChars ds cs
termination_by cs.length
decreasing_by
  · exact length_of_placeholder? _found
  · simp

def substitute (ds : Defines) (text : String) : String :=
  String.ofList (substituteChars ds text.toList)

end Defines

end SchemaDrift
