import BucketAdmin.Text.Utf8

/-!
# JSON tokens

`tokens` cuts a byte sequence into JSON tokens. Numbers and strings are kept as written. The last
token is `stray` when the bytes stop being JSON: nothing after the first lexical fault is read.

The scanner takes one byte at a time, so it is a fold over the bytes.
-/

namespace BucketAdmin.Json

/-- A lexical unit of JSON. -/
inductive Token where
  | openList
  | closeList
  | openMap
  | closeMap
  | comma
  | colon
  | null
  | bool (b : Bool)
  /-- A number, as written. -/
  | number (raw : Bytes)
  /-- A string, as written between its quotes. -/
  | string (raw : Bytes)
  /-- Bytes that begin no token, or break one off. -/
  | stray
  deriving DecidableEq, Repr

/-- Space, tab, line feed or carriage return. -/
def isSpace (b : UInt8) : Bool := b == 0x20 || b == 0x09 || b == 0x0A || b == 0x0D

/-- An ASCII digit. -/
def isDigit (b : UInt8) : Bool := 0x30 ≤ b && b ≤ 0x39

/-- An ASCII hexadecimal digit of either case. -/
def isHex (b : UInt8) : Bool :=
  isDigit b || (0x41 ≤ b && b ≤ 0x46) || (0x61 ≤ b && b ≤ 0x66)

/-- How far a number has been read. -/
inductive Part where
  /-- After the minus sign. -/
  | sign
  /-- After a leading zero. -/
  | zero
  /-- In the digits before a point or an exponent. -/
  | whole
  /-- After the point. -/
  | point
  /-- In the digits after the point. -/
  | fraction
  /-- After the letter of the exponent. -/
  | mark
  /-- After the sign of the exponent. -/
  | markSign
  /-- In the digits of the exponent. -/
  | exponent
  deriving DecidableEq, Repr

namespace Part

/-- What a byte does to the number being read. -/
inductive Effect where
  | extend (part : Part)
  | finish
  | refuse
  deriving DecidableEq, Repr

/-- A number may end here. -/
def isFinal : Part → Bool
  | zero | whole | fraction | exponent => true
  | sign | point | mark | markSign => false

/-- The byte that opens an exponent. -/
def isMark (b : UInt8) : Bool := b == 0x65 || b == 0x45

/-- The effect of a byte. A digit after a leading zero spoils the number. -/
def next (p : Part) (b : UInt8) : Effect :=
  match p with
  | sign => if b = 0x30 then .extend zero else if isDigit b then .extend whole else .refuse
  | zero =>
    if b = 0x2E then .extend point else if isMark b then .extend mark
    else if isDigit b then .refuse else .finish
  | whole =>
    if isDigit b then .extend whole else if b = 0x2E then .extend point
    else if isMark b then .extend mark else .finish
  | point => if isDigit b then .extend fraction else .refuse
  | fraction =>
    if isDigit b then .extend fraction else if isMark b then .extend mark else .finish
  | mark =>
    if isDigit b then .extend exponent else if b = 0x2B || b = 0x2D then .extend markSign
    else .refuse
  | markSign => if isDigit b then .extend exponent else .refuse
  | exponent => if isDigit b then .extend exponent else .finish

end Part

/-- How far an escape inside a string has been read. -/
inductive Escape where
  /-- Not in an escape. -/
  | none
  /-- After the backslash. -/
  | begun
  /-- So many hexadecimal digits are due. -/
  | hex (due : Nat)
  deriving DecidableEq, Repr

namespace Escape

/-- The letters that may follow a backslash, `u` apart. -/
def isShort (b : UInt8) : Bool :=
  b == 0x22 || b == 0x5C || b == 0x2F || b == 0x62 || b == 0x66 || b == 0x6E ||
    b == 0x72 || b == 0x74

/-- The state after a byte that does not end the string; `none` refuses the byte. -/
def next (e : Escape) (b : UInt8) : Option Escape :=
  match e with
  | none => if b = 0x5C then some begun else if b < 0x20 then Option.none else some none
  | begun =>
    if b = 0x75 then some (hex 4) else if isShort b then some none else Option.none
  | hex due =>
    if isHex b then some (if due ≤ 1 then none else hex (due - 1)) else Option.none

end Escape

namespace Token

/-- What the scanner is in the middle of. -/
inductive Mode where
  | between
  /-- A word, with the letters still due. -/
  | word (due : Bytes) (token : Token)
  /-- A number, with its bytes so far, latest first. -/
  | number (part : Part) (raw : Bytes)
  /-- A string, with its bytes so far, latest first. -/
  | string (escape : Escape) (raw : Bytes)
  /-- A fault was met. -/
  | stuck
  deriving DecidableEq, Repr

/-- The tokens so far, latest first, and what comes next. -/
structure Scanner where
  done : List Token
  mode : Mode

namespace Scanner

/-- Nothing scanned yet. -/
def start : Scanner := ⟨[], .between⟩

/-- The scanner after a lexical fault. -/
def fail (done : List Token) : Scanner := ⟨.stray :: done, .stuck⟩

/-- Scan a byte that stands between tokens. -/
def begin (done : List Token) (b : UInt8) : Scanner :=
  if isSpace b then ⟨done, .between⟩
  else if b = 0x22 then ⟨done, .string .none []⟩
  else if b = 0x2C then ⟨.comma :: done, .between⟩
  else if b = 0x3A then ⟨.colon :: done, .between⟩
  else if b = 0x7B then ⟨.openMap :: done, .between⟩
  else if b = 0x7D then ⟨.closeMap :: done, .between⟩
  else if b = 0x5B then ⟨.openList :: done, .between⟩
  else if b = 0x5D then ⟨.closeList :: done, .between⟩
  else if b = 0x2D then ⟨done, .number .sign [b]⟩
  else if b = 0x30 then ⟨done, .number .zero [b]⟩
  else if isDigit b then ⟨done, .number .whole [b]⟩
  else if b = 0x6E then ⟨done, .word [0x75, 0x6C, 0x6C] .null⟩
  else if b = 0x74 then ⟨done, .word [0x72, 0x75, 0x65] (.bool true)⟩
  else if b = 0x66 then ⟨done, .word [0x61, 0x6C, 0x73, 0x65] (.bool false)⟩
  else fail done

/-- Scan one byte. -/
def push (s : Scanner) (b : UInt8) : Scanner :=
  match s.mode with
  | .between => begin s.done b
  | .word (c :: due) token =>
    if b = c then
      if due.isEmpty then ⟨token :: s.done, .between⟩ else ⟨s.done, .word due token⟩
    else fail s.done
  | .word [] token => begin (token :: s.done) b
  | .number part raw =>
    match part.next b with
    | .extend part => ⟨s.done, .number part (b :: raw)⟩
    | .finish => begin (.number raw.reverse :: s.done) b
    | .refuse => fail s.done
  | .string escape raw =>
    if escape = .none ∧ b = 0x22 then ⟨.string raw.reverse :: s.done, .between⟩
    else
      match escape.next b with
      | some escape => ⟨s.done, .string escape (b :: raw)⟩
      | none => fail s.done
  | .stuck => s

/-- The tokens once all bytes are scanned. -/
def finish (s : Scanner) : List Token :=
  match s.mode with
  | .between | .stuck => s.done.reverse
  | .word [] token => (token :: s.done).reverse
  | .number part raw =>
    ((if part.isFinal then .number raw.reverse else .stray) :: s.done).reverse
  | .word (_ :: _) _ | .string .. => (.stray :: s.done).reverse

end Scanner

end Token

/-- The tokens of a byte sequence, up to the first lexical fault. -/
def tokens (bs : Bytes) : List Token :=
  (bs.foldl Token.Scanner.push Token.Scanner.start).finish

end BucketAdmin.Json
