/-!
# UTF-8

Text travels as bytes. `encode` writes a string. `segments` reads bytes as characters and maximal
ill-formed stretches; the strict reading `decode?` and the lossy reading `lossy` are two views of
it.
-/

namespace BucketAdmin

/-- Undecoded content of a body or of a stored record. -/
abbrev Bytes := List UInt8

namespace Utf8

/-- The bytes of a string. -/
def encode (s : String) : Bytes :=
  s.toList.flatMap String.utf8EncodeChar

/-- Where a reader stands between two bytes. -/
inductive State where
  /-- No character is begun. -/
  | between
  /-- A character is begun: `owed` more bytes, the next one from `low` to `high`, after the leading
  bits `value`. -/
  | within (owed : Nat) (low high : UInt8) (value : Nat)
  deriving DecidableEq, Repr

/-- What has been read so far, latest segment first. -/
structure Reading where
  segments : List (Option Char)
  state : State

namespace Reading

/-- Nothing read yet. -/
def start : Reading := ⟨[], .between⟩

/-- Read `b` as the first byte of a character. -/
def lead (done : List (Option Char)) (b : UInt8) : Reading :=
  if b ≤ 0x7F then ⟨some (Char.ofNat b.toNat) :: done, .between⟩
  else if b < 0xC2 then ⟨none :: done, .between⟩
  else if b ≤ 0xDF then ⟨done, .within 1 0x80 0xBF (b.toNat - 0xC0)⟩
  else if b = 0xE0 then ⟨done, .within 2 0xA0 0xBF 0⟩
  else if b = 0xED then ⟨done, .within 2 0x80 0x9F 0xD⟩
  else if b ≤ 0xEF then ⟨done, .within 2 0x80 0xBF (b.toNat - 0xE0)⟩
  else if b = 0xF0 then ⟨done, .within 3 0x90 0xBF 0⟩
  else if b ≤ 0xF3 then ⟨done, .within 3 0x80 0xBF (b.toNat - 0xF0)⟩
  else if b = 0xF4 then ⟨done, .within 3 0x80 0x8F 4⟩
  else ⟨none :: done, .between⟩

/-- Read one byte. A byte that cannot continue the character begun ends it as an ill-formed segment
and is read again as a first byte. -/
def push (r : Reading) (b : UInt8) : Reading :=
  match r.state with
  | .between => lead r.segments b
  | .within owed low high value =>
    if low ≤ b ∧ b ≤ high then
      let value := value * 64 + (b.toNat - 0x80)
      if owed ≤ 1 then ⟨some (Char.ofNat value) :: r.segments, .between⟩
      else ⟨r.segments, .within (owed - 1) 0x80 0xBF value⟩
    else lead (none :: r.segments) b

/-- All segments in order; a character cut off by the end is ill-formed. -/
def finish (r : Reading) : List (Option Char) :=
  match r.state with
  | .between => r.segments.reverse
  | .within .. => (none :: r.segments).reverse

end Reading

/-- The characters of a byte sequence, `none` for each maximal ill-formed stretch. -/
def segments (bs : Bytes) : List (Option Char) :=
  (bs.foldl Reading.push Reading.start).finish

/-- The text of a byte sequence that is UTF-8 throughout. -/
def decode? (bs : Bytes) : Option String :=
  let parts := segments bs
  if parts.all Option.isSome then some (String.ofList (parts.filterMap id)) else none

/-- The text of any byte sequence, with one U+FFFD for each ill-formed stretch. -/
def lossy (bs : Bytes) : String :=
  String.ofList ((segments bs).map (·.getD '\uFFFD'))

end Utf8

end BucketAdmin
