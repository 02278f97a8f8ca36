import BucketAdmin.Text.Numeral

/-!
# Server versions

A version is three numbers. It is read from the start of a release text such as
`4.5.0-2601-enterprise`: the text before the first hyphen, cut at its points, gives up to three
numbers, and numbers left out count as zero.
-/

namespace BucketAdmin.Cluster

/-- A release version. -/
structure Version where
  major : UInt32
  minor : UInt32
  patch : UInt32
  deriving DecidableEq, Repr

/-- One of the three numbers of a version. -/
inductive Component where
  | major
  | minor
  | patch
  deriving DecidableEq, Repr

/-- The name of a component. -/
def Component.text : Component → String
  | .major => "major"
  | .minor => "minor"
  | .patch => "patch"

/-- A release text whose `component` is no number below `2 ^ 32`. -/
structure VersionFault where
  component : Component
  raw : String
  deriving DecidableEq, Repr

/-- The words for a fault of a version. -/
def VersionFault.message (f : VersionFault) : String :=
  s!"Invalid server version: bad {f.component.text} component in '{f.raw}'"

/-- The text before the first `sep`, and the text after it if there is one. -/
def cutAt (sep : Char) (cs : List Char) : List Char × Option (List Char) :=
  (cs.takeWhile (· ≠ sep), (cs.dropWhile (· ≠ sep)).tail?)

namespace Version

/-- The next component of a release text and what follows it. A component left out is zero. -/
def component (raw : String) (which : Component) :
    Option (List Char) → Except VersionFault (UInt32 × Option (List Char))
  | none => .ok (0, none)
  | some cs =>
    let (part, rest) := cutAt '.' cs
    match Numeral.read? UInt32.size part with
    | some n => .ok (UInt32.ofNat n, rest)
    | none => .error ⟨which, raw⟩

/-- The version at the start of a release text. -/
def parse (raw : String) : Except VersionFault Version := do
  let release := (cutAt '-' raw.toList).1
  let (major, rest) ← component raw .major (some release)
  let (minor, rest) ← component raw .minor rest
  let (patch, _) ← component raw .patch rest
  return ⟨major, minor, patch⟩

/-- The text of a version. -/
def text (v : Version) : String := s!"{v.major}.{v.minor}.{v.patch}"

/-- Versions compare by their major, then minor, then patch numbers. -/
instance : Ord Version where
  compare a b :=
    (compare a.major b.major).then ((compare a.minor b.minor).then (compare a.patch b.patch))

/-- The lesser of two versions. -/
def least (a b : Version) : Version := if compare b a = .lt then b else a

/-- Versions in ascending order. -/
def sort (versions : List Version) : List Version :=
  versions.mergeSort fun a b => (compare a b).isLE

end Version

end BucketAdmin.Cluster
