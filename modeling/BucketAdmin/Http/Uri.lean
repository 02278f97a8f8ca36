import BucketAdmin.Text.Utf8

/-!
# URIs

A URI is an optional scheme with an authority, and a path with an optional query; a fragment is cut
off. A text with no scheme is a path when it starts with a slash, and otherwise an authority and
nothing else.
-/

namespace BucketAdmin.Http

/-- A URI in its parts. -/
structure Uri where
  scheme : Option String
  authority : Option String
  path : String
  query : Option String
  deriving DecidableEq, Repr

/-- Why a text is no URI. -/
inductive UriFault where
  | tooLong
  | illFormed
  deriving DecidableEq, Repr

/-- The words for a text that is no URI. -/
def UriFault.message : UriFault → String
  | .tooLong => "uri too long"
  | .illFormed => "invalid uri"

namespace Uri

/-- The longest URI, in bytes. -/
def maxLength : Nat := 65534

/-- The longest scheme. -/
def maxSchemeLength : Nat := 64

/-- The most colons in one part of an authority. -/
def maxColons : Nat := 8

/-- A character of a scheme. -/
def isSchemeChar (c : Char) : Bool :=
  c.isAlphanum || c == '+' || c == '-' || c == '.' || c == '~'

/-- A character that ends an authority. -/
def endsAuthority (c : Char) : Bool := c == '/' || c == '?' || c == '#'

/-- A character of an authority that has no role of its own there. -/
def isAuthorityChar (c : Char) : Bool :=
  c.isAlphanum || "!$&'()*+,-.;=_~".toList.contains c

/-- A character of a path, as version 1 of the `http` crate has it: the control character 0x7F is
none, and every character beyond ASCII is one. -/
def isPathChar (c : Char) : Bool :=
  let n := c.toNat
  n == 0x21 || n == 0x22 || (0x24 ≤ n && n ≤ 0x3B) || n == 0x3D || (0x40 ≤ n && n ≤ 0x5F) ||
    (0x61 ≤ n && n ≤ 0x7E) || 0x80 ≤ n

/-- A character of a query, in the same version. -/
def isQueryChar (c : Char) : Bool :=
  let n := c.toNat
  n == 0x21 || (0x24 ≤ n && n ≤ 0x3B) || n == 0x3D || (0x3F ≤ n && n ≤ 0x7E) || 0x80 ≤ n

/-- What has been seen of an authority. -/
structure Sighting where
  colons : Nat := 0
  opened : Bool := false
  closed : Bool := false
  percent : Bool := false
  /-- The last character is an at sign. -/
  endsInAt : Bool := false

namespace Sighting

/-- See one more character. Colons and percent signs before an at sign or inside brackets are
forgotten once these are passed. -/
def next (s : Sighting) (c : Char) : Option Sighting :=
  if c = ':' then
    if maxColons ≤ s.colons then none
    else some { s with colons := s.colons + 1, endsInAt := false }
  else if c = '[' then
    if s.percent || s.opened then none else some { s with opened := true, endsInAt := false }
  else if c = ']' then
    if !s.opened || s.closed then none
    else some { s with closed := true, colons := 0, percent := false, endsInAt := false }
  else if c = '@' then some { s with colons := 0, percent := false, endsInAt := true }
  else if c = '%' then some { s with percent := true, endsInAt := false }
  else if isAuthorityChar c then some { s with endsInAt := false }
  else none

/-- The authority may end here. -/
def accepts (s : Sighting) : Bool :=
  s.opened == s.closed && s.colons ≤ 1 && !s.endsInAt && !s.percent

end Sighting

/-- The characters form an authority, perhaps an empty one. -/
def isAuthority (cs : List Char) : Bool :=
  match cs.foldlM Sighting.next {} with
  | some s => s.accepts
  | none => false

/-- The scheme at the start of a text and what follows its `://`. The schemes `http` and `https` are
read in any case. -/
def splitScheme (cs : List Char) : Except UriFault (Option String × List Char) :=
  let scheme := cs.takeWhile isSchemeChar
  match "://".toList.isPrefixOf? (cs.dropWhile isSchemeChar) with
  | none => .ok (none, cs)
  | some rest =>
    let lower := String.ofList (scheme.map Char.toLower)
    if lower = "http" ∨ lower = "https" then .ok (some lower, rest)
    else if maxSchemeLength < scheme.length then .error .illFormed
    else .ok (some (String.ofList scheme), rest)

/-- The path and the query of a text that starts after an authority. -/
def pathAndQuery (cs : List Char) : Except UriFault (String × Option String) :=
  let cs := cs.takeWhile (· ≠ '#')
  let path := cs.takeWhile (· ≠ '?')
  let query := (cs.dropWhile (· ≠ '?')).tail?
  if path.all isPathChar ∧ (query.getD []).all isQueryChar then
    .ok (if path.isEmpty then "/" else String.ofList path, query.map String.ofList)
  else .error .illFormed

/-- The URI that a text is. -/
def parse (text : String) : Except UriFault Uri :=
  let cs := text.toList
  if maxLength < (Utf8.encode text).length then .error .tooLong
  else if text = "" then .error .illFormed
  else if text = "*" then .ok ⟨none, none, "*", none⟩
  else if cs.head? = some '/' then do
    let (path, query) ← pathAndQuery cs
    .ok ⟨none, none, path, query⟩
  else do
    let (scheme, rest) ← splitScheme cs
    let authority := rest.takeWhile fun c => !endsAuthority c
    let rest := rest.dropWhile fun c => !endsAuthority c
    if !isAuthority authority || authority.isEmpty then .error .illFormed
    else
      match scheme with
      | none =>
        if rest.isEmpty then .ok ⟨none, some (String.ofList authority), "", none⟩
        else .error .illFormed
      | some scheme => do
        let (path, query) ← pathAndQuery rest
        .ok ⟨some scheme, some (String.ofList authority), path, query⟩

end Uri

end BucketAdmin.Http
