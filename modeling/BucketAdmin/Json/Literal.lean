import BucketAdmin.Decimal.Binary64
import BucketAdmin.Json.Token

/-!
# JSON literals

The meaning of numbers and strings as written, and the written form of strings and whole numbers. An
integer literal that fits 64 bits, signed or unsigned, is an integer; minus zero, a fraction, an
exponent or a larger magnitude makes a floating point number.
-/

namespace BucketAdmin.Json

/-- The value of a number literal. -/
inductive Number where
  | integer (n : Int)
  | float (negative : Bool) (magnitude : Binary64)
  deriving DecidableEq, Repr

namespace Number

/-- The value of an ASCII digit. -/
def digit (b : UInt8) : Nat := b.toNat - 0x30

/-- The leading digits that fit 64 bits after `n`, as one number with `n`, and the digits left
over. -/
def fitting (n : Nat) : Bytes → Nat × Bytes
  | [] => (n, [])
  | d :: ds =>
    let m := 10 * n + digit d
    if m < UInt64.size then fitting m ds else (n, d :: ds)

/-- The value of exponent digits, stopping at a bound past every finite number. -/
def exponentOf (ds : Bytes) : Nat :=
  ds.foldl (fun n d => min (10 * n + digit d) 2147483647) 0

/-- The exponent written after its letter. -/
def signedExponent : Bytes → Int
  | 0x2D :: ds => -(exponentOf ds : Int)
  | 0x2B :: ds => exponentOf ds
  | ds => exponentOf ds

/-- The float with the given digits before and after the point. Digits past those that fit 64 bits
count as zeros. -/
def floatOf (negative : Bool) (whole fraction : Bytes) (exponent : Int) : Option Number :=
  let (n, dropped) := fitting 0 whole
  let (significand, unused) := fitting n fraction
  let places : Int := (fraction.length - unused.length : Nat)
  (Binary64.ofDecimal significand (dropped.length - places + exponent)).map (.float negative)

/-- The largest magnitude of a negative integer, half of what 64 bits count. -/
def maxNegative : Nat := UInt64.size / 2

/-- The value of a number literal, `none` when it is too large to be finite. -/
def read? (raw : Bytes) : Option Number :=
  let negative := raw.head? == some 0x2D
  let body := if negative then raw.drop 1 else raw
  let whole := body.takeWhile isDigit
  let (n, dropped) := fitting 0 whole
  match body.dropWhile isDigit with
  | [] =>
    if ¬dropped.isEmpty then floatOf negative whole [] 0
    else if ¬negative then some (.integer n)
    else if 0 < n ∧ n ≤ maxNegative then some (.integer (-(n : Int)))
    else (Binary64.ofRatio n 1).map (.float true)
  | 0x2E :: rest =>
    let fraction := rest.takeWhile isDigit
    match rest.dropWhile isDigit with
    | [] => floatOf negative whole fraction 0
    | _ :: ds => floatOf negative whole fraction (signedExponent ds)
  | _ :: ds => floatOf negative whole [] (signedExponent ds)

end Number

/-- The value of a hexadecimal digit of either case. -/
def hexDigit? (b : UInt8) : Option Nat :=
  if isDigit b then some (b.toNat - 0x30)
  else if 0x41 ≤ b ∧ b ≤ 0x46 then some (b.toNat - 0x41 + 10)
  else if 0x61 ≤ b ∧ b ≤ 0x66 then some (b.toNat - 0x61 + 10)
  else none

/-- The value of four hexadecimal digits. -/
def hexUnit? (a b c d : UInt8) : Option Nat := do
  return ((← hexDigit? a) * 16 + (← hexDigit? b)) * 256 + (← hexDigit? c) * 16 + (← hexDigit? d)

/-- The byte that a short escape stands for. -/
def shortEscape? (b : UInt8) : Option UInt8 :=
  if b = 0x22 ∨ b = 0x5C ∨ b = 0x2F then some b
  else if b = 0x62 then some 0x08
  else if b = 0x66 then some 0x0C
  else if b = 0x6E then some 0x0A
  else if b = 0x72 then some 0x0D
  else if b = 0x74 then some 0x09
  else none

/-- A code unit that opens a surrogate pair. -/
def isHighSurrogate (n : Nat) : Bool := 0xD800 ≤ n && n ≤ 0xDBFF

/-- A code unit that closes a surrogate pair. -/
def isLowSurrogate (n : Nat) : Bool := 0xDC00 ≤ n && n ≤ 0xDFFF

/-- The character of a surrogate pair. -/
def pairChar (high low : Nat) : Char :=
  Char.ofNat (0x10000 + (high - 0xD800) * 0x400 + (low - 0xDC00))

/-- Resolve the escapes of a string, latest byte first onto `done`. A surrogate has to be one half
of a pair. -/
def unescape (done : Bytes) : Bytes → Option Bytes
  | [] => some done.reverse
  | b :: rest =>
    if b ≠ 0x5C then unescape (b :: done) rest
    else
      match rest with
      | [] => none
      | e :: rest =>
        if e ≠ 0x75 then
          match shortEscape? e with
          | some c => unescape (c :: done) rest
          | none => none
        else
          match rest with
          | h₁ :: h₂ :: h₃ :: h₄ :: rest =>
            match hexUnit? h₁ h₂ h₃ h₄ with
            | none => none
            | some n =>
              if isLowSurrogate n then none
              else if ¬isHighSurrogate n then
                unescape ((String.utf8EncodeChar (Char.ofNat n)).reverse ++ done) rest
              else
                match rest with
                | 0x5C :: 0x75 :: l₁ :: l₂ :: l₃ :: l₄ :: rest =>
                  match hexUnit? l₁ l₂ l₃ l₄ with
                  | none => none
                  | some m =>
                    if isLowSurrogate m then
                      unescape ((String.utf8EncodeChar (pairChar n m)).reverse ++ done) rest
                    else none
                | _ => none
          | _ => none

/-- The text of a string literal, `none` when it is not Unicode text. -/
def unquote? (raw : Bytes) : Option String := (unescape [] raw).bind Utf8.decode?

/-- The digit for a value below 16, in lower case. -/
def hexByte (n : Nat) : UInt8 := if n < 10 then (0x30 + n).toUInt8 else (0x61 + n - 10).toUInt8

/-- A character inside a string literal. The quote, the backslash and the control characters below
U+0020 are escaped, all else is written as it is. -/
def quoteChar (c : Char) : Bytes :=
  if c = '"' then [0x5C, 0x22]
  else if c = '\\' then [0x5C, 0x5C]
  else if c = '\x08' then [0x5C, 0x62]
  else if c = '\x0c' then [0x5C, 0x66]
  else if c = '\n' then [0x5C, 0x6E]
  else if c = '\r' then [0x5C, 0x72]
  else if c = '\t' then [0x5C, 0x74]
  else if c.toNat < 0x20 then
    [0x5C, 0x75, 0x30, 0x30, hexByte (c.toNat / 16), hexByte (c.toNat % 16)]
  else String.utf8EncodeChar c

/-- The string literal of a text, without its quotes. -/
def quote (s : String) : Bytes := s.toList.flatMap quoteChar

/-- The number literal of a natural number. -/
def numeral (n : Nat) : Bytes := (Nat.toDigits 10 n).map fun c => c.toNat.toUInt8

end BucketAdmin.Json
