import BucketAdmin.Text.Utf8

/-!
# Web messages

The requests and responses that pass over a connection.
-/

namespace BucketAdmin.Http

/-- The media type of JSON bodies. -/
def jsonType : String := "application/json"

/-- A request as the other side sees it. -/
structure Request where
  method : String
  path : String
  query : Option String := none
  contentType : Option String := none
  userAgent : Option String := none
  body : Bytes := []
  deriving DecidableEq

/-- A response as the other side sees it. -/
structure Response where
  code : UInt16
  contentType : Option String := none
  server : Option String := none
  body : Bytes := []
  deriving DecidableEq

/-- The party at the other end of a connection: it answers each request and changes its state. -/
abbrev Peer (σ : Type) := Request → σ → Response × σ

end BucketAdmin.Http
