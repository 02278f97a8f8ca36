import BucketAdmin.Bucket.Stored

/-!
# The wire document of a bucket

Settings travel as JSON with a required name and quota and seven further fields that have defaults.
A document is read before any of its bounds are checked.
-/

namespace BucketAdmin.Bucket

open Json

/-- A bucket as it travels. -/
structure Document where
  name : String
  kind : Kind
  quotaMb : UInt64
  replicas : UInt8
  indexReplicas : Bool
  auth : Auth
  password : String
  port : UInt16
  flushEnabled : Bool
  deriving DecidableEq

namespace Document

/-- The layout of a wire document. -/
def layout : Record where
  name := "BucketDocument"
  fields := [
    .required "name" Value.text,
    .optional "bucketType" Kind.reader,
    .required "ramQuotaMB" Value.uint64,
    .optional "replicaNumber" Value.uint8,
    .optional "replicaIndex" Value.flag,
    .optional "authType" Auth.reader,
    .optional "saslPassword" Value.text,
    .optional "proxyPort" Value.uint16,
    .optional "flushEnabled" Value.flag]

/-- A document as a JSON value. -/
def json (d : Document) : Value :=
  .ofMembers [
    ("name", .ofText d.name),
    ("bucketType", .ofText d.kind.text),
    ("ramQuotaMB", .ofNat d.quotaMb.toNat),
    ("replicaNumber", .ofNat d.replicas.toNat),
    ("replicaIndex", .bool d.indexReplicas),
    ("authType", .ofText d.auth.text),
    ("saslPassword", .ofText d.password),
    ("proxyPort", .ofNat d.port.toNat),
    ("flushEnabled", .bool d.flushEnabled)]

/-- A document from a JSON value. -/
def reader : Reader Document := fun v => do
  let slots ← layout.read v
  return {
    name := ← slots.get "name" Value.text
    kind := ← slots.getD "bucketType" Kind.reader .default
    quotaMb := ← slots.get "ramQuotaMB" Value.uint64
    replicas := ← slots.getD "replicaNumber" Value.uint8 0
    indexReplicas := ← slots.getD "replicaIndex" Value.flag false
    auth := ← slots.getD "authType" Auth.reader .none
    password := ← slots.getD "saslPassword" Value.text ""
    port := ← slots.getD "proxyPort" Value.uint16 0
    flushEnabled := ← slots.getD "flushEnabled" Value.flag false }

/-- The document of settings. -/
def ofSettings (s : Settings) : Document where
  name := s.name.text
  kind := s.kind
  quotaMb := s.quotaMb
  replicas := s.replicas
  indexReplicas := s.indexReplicas
  auth := s.auth
  password := s.password
  port := s.port
  flushEnabled := s.flushEnabled

end Document

/-- Why a document that can be read describes no settings. -/
inductive DocumentFault where
  | name (fault : NameFault)
  | settings (fault : SettingsFault)
  deriving DecidableEq

/-- The words for a fault of a document. -/
def DocumentFault.message : DocumentFault → String
  | .name f => f.message
  | .settings f => f.message

namespace Document

/-- The settings that a document describes. Its name is checked first; what it says about
authentication is left aside. -/
def toSettings (d : Document) : Except DocumentFault Settings := do
  let name ← (Name.ofString d.name).mapError .name
  let s : Settings := {
    name := name
    kind := d.kind
    quotaMb := d.quotaMb
    port := d.port
    password := d.password
    replicas := d.replicas
    indexReplicas := d.indexReplicas
    flushEnabled := d.flushEnabled }
  s.validate.mapError .settings

end Document

end BucketAdmin.Bucket
