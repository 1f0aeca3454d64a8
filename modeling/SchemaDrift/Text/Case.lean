/-!
Letter case. Names and words are compared without regard to the case of the 26 ASCII letters; every
other character stands for itself.
-/

namespace SchemaDrift.Text

def lower (s : String) : String := String.ofList (s.toList.map Char.toLower)

/-- The text with its ASCII letters in upper case. -/
def upper (s : String) : String := String.ofList (s.toList.map Char.toUpper)

/-- Equality up to the case of ASCII letters. -/
def sameName (a b : String) : Bool := lower a == lower b

@[simp] theorem sameName_self (a : String) : sameName a a = true := by simp [sameName]

theorem sameName_iff {a b : String} : sameName a b = true ↔ lower a = lower b := by
  simp [sameName]

theorem sameName_comm (a b : String) : sameName a b = sameName b a := by
  rw [Bool.eq_iff_iff, sameName_iff, sameName_iff]; exact eq_comm

end SchemaDrift.Text
