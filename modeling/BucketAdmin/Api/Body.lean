import BucketAdmin.Api.Fault
import BucketAdmin.Cluster.Info

/-!
# Bodies

The JSON bodies of requests and responses. A body over the size limit is refused before it is read.
-/

namespace BucketAdmin.Api

open Bucket (Settings Document)
open Cluster (Info)

/-- Read a body of at most the largest size. -/
def readBody {α : Type} (reader : Json.Reader α) (body : Bytes) : Except Fault α :=
  if maxBodySize < body.length then .error (.bodyTooLarge body.length)
  else (Json.read reader body).mapError fun f => .malformedBody (.json f)

/-- The settings that a document describes, as the content of a body. -/
def settingsOf (d : Document) : Except Fault Settings :=
  d.toSettings.mapError fun f => .malformedBody (.document f)

/-- The body that carries settings. -/
def encodeSettings (s : Settings) : Bytes := (Document.ofSettings s).json.render

/-- The settings in a body. -/
def decodeSettings (body : Bytes) : Except Fault Settings := do
  settingsOf (← readBody Document.reader body)

/-- The body that carries a list of settings. -/
def encodeBucketList (buckets : List Settings) : Bytes :=
  (Json.Value.ofList (buckets.map fun s => (Document.ofSettings s).json)).render

/-- The list of settings in a body. The whole list is read before any of its entries is checked. -/
def decodeBucketList (body : Bytes) : Except Fault (List Settings) := do
  (← readBody (Json.Value.list Document.reader) body).mapM settingsOf

/-- The body that carries a snapshot. -/
def encodeInfo (i : Info) : Bytes := i.json.render

/-- The snapshot in a body. -/
def decodeInfo (body : Bytes) : Except Fault Info := readBody Info.reader body

/-- The layout of an error body. -/
def errorLayout : Json.Record where
  name := "ErrorBody"
  fields := [.required "error" Json.Value.text]

/-- The message inside an error body. -/
def errorReader : Json.Reader String := fun v => do
  (← errorLayout.read v).get "error" Json.Value.text

/-- The body that carries an error message. -/
def encodeError (message : String) : Bytes :=
  (Json.Value.ofMembers [("error", .ofText message)]).render

/-- The message in a body, if it is an error body. -/
def decodeError? (body : Bytes) : Option String := (readBody errorReader body).toOption

end BucketAdmin.Api
