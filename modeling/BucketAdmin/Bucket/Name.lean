import BucketAdmin.Text.Utf8

/-!
# Bucket names

A bucket name is a text of 1 to 100 bytes made of ASCII letters, digits, and the characters `-`,
`_`, `.` and `%`. Names are ordered by their bytes.
-/

namespace BucketAdmin.Bucket

/-- The longest name, in bytes. -/
def maxNameLength : Nat := 100

/-- A character that a bucket name may hold. -/
def isNameChar (c : Char) : Bool :=
  c.isAlphanum || c == '-' || c == '_' || c == '.' || c == '%'

/-- The rule for bucket names. -/
structure ValidName (text : String) : Prop where
  nonempty : text ≠ ""
  length_le : (Utf8.encode text).length ≤ maxNameLength
  chars : text.toList.all isNameChar = true

/-- The name of a bucket. -/
structure Name where
  text : String
  valid : ValidName text
  deriving DecidableEq

/-- Why a text is not a bucket name. -/
inductive NameFault where
  | empty
  | tooLong (text : String)
  | badCharacters (text : String)
  deriving DecidableEq, Repr

namespace NameFault

/-- The words for a fault of a name. -/
def message : NameFault → String
  | .empty => "Invalid bucket name: empty name"
  | .tooLong text =>
    s!"Invalid bucket name: '{text}' is longer than {maxNameLength} characters"
  | .badCharacters text => s!"Invalid bucket name: invalid characters in '{text}'"

end NameFault

namespace Name

/-- The name that a text is, its length checked before its characters. -/
def ofString (text : String) : Except NameFault Name :=
  if h₁ : text = "" then .error .empty
  else if h₂ : maxNameLength < (Utf8.encode text).length then .error (.tooLong text)
  else if h₃ : text.toList.all isNameChar = true then
    .ok ⟨text, h₁, Nat.le_of_not_lt h₂, h₃⟩
  else .error (.badCharacters text)

/-- The bytes of a name. -/
def bytes (n : Name) : Bytes := Utf8.encode n.text

instance : LT Name where
  lt a b := a.bytes < b.bytes

instance (a b : Name) : Decidable (a < b) :=
  inferInstanceAs (Decidable (a.bytes < b.bytes))

/-- Names in ascending order. -/
def sort (names : List Name) : List Name :=
  names.mergeSort fun a b => !decide (b < a)

/-- A name is read back from its own text. -/
theorem ofString_text (n : Name) : ofString n.text = .ok n := by
  have h := n.valid
  simp [ofString, h.nonempty, Nat.not_lt.mpr h.length_le, h.chars]

/-- Reading a name succeeds only with the name that the text is. -/
theorem text_of_ofString {text : String} {n : Name} (h : ofString text = .ok n) :
    n.text = text := by
  unfold ofString at h
  split at h
  · cases h
  · split at h
    · cases h
    · split at h
      · cases h; rfl
      · cases h

end Name

end BucketAdmin.Bucket
