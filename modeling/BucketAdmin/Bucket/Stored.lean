import BucketAdmin.Bucket.Settings
import BucketAdmin.Json.Record
import BucketAdmin.Json.Writer

/-!
# The stored form of settings

The registry keeps settings as JSON with all eight fields present. Reading checks the name as it is
met and leaves the other bounds alone.
-/

namespace BucketAdmin.Bucket

open Json

/-- A bucket name inside a document. -/
def Name.reader : Reader Name := fun v => do
  match Name.ofString (← v.text) with
  | .ok n => .ok n
  | .error f => .error (.refused f.message)

/-- A kind of bucket inside a document. -/
def Kind.reader : Reader Kind := Value.variant Kind.named

/-- A way to authenticate inside a document. -/
def Auth.reader : Reader Auth := Value.variant Auth.named

namespace Settings

/-- The layout of the stored form. -/
def storedLayout : Record where
  name := "BucketSettings"
  fields := [
    .required "name" Name.reader,
    .required "bucket_type" Kind.reader,
    .required "quota_mb" Value.uint64,
    .required "port" Value.uint16,
    .required "password" Value.text,
    .required "replicas" Value.uint8,
    .required "index_replicas" Value.flag,
    .required "flush_enabled" Value.flag]

/-- The stored form as a JSON value. -/
def stored (s : Settings) : Value :=
  .ofMembers [
    ("name", .ofText s.name.text),
    ("bucket_type", .ofText s.kind.text),
    ("quota_mb", .ofNat s.quotaMb.toNat),
    ("port", .ofNat s.port.toNat),
    ("password", .ofText s.password),
    ("replicas", .ofNat s.replicas.toNat),
    ("index_replicas", .bool s.indexReplicas),
    ("flush_enabled", .bool s.flushEnabled)]

/-- Settings from the stored form. -/
def ofStored : Reader Settings := fun v => do
  let slots ← storedLayout.read v
  return {
    name := ← slots.get "name" Name.reader
    kind := ← slots.get "bucket_type" Kind.reader
    quotaMb := ← slots.get "quota_mb" Value.uint64
    port := ← slots.get "port" Value.uint16
    password := ← slots.get "password" Value.text
    replicas := ← slots.get "replicas" Value.uint8
    indexReplicas := ← slots.get "index_replicas" Value.flag
    flushEnabled := ← slots.get "flush_enabled" Value.flag }

/-- The record that keeps settings. -/
def toRecord (s : Settings) : Bytes := s.stored.render

/-- The settings that a record keeps. -/
def ofRecord (bs : Bytes) : Except Fault Settings := Json.read ofStored bs

end Settings

end BucketAdmin.Bucket
