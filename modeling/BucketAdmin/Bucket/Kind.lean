/-!
# Kinds of buckets and of authentication
-/

namespace BucketAdmin.Bucket

/-- The storage model of a bucket. -/
inductive Kind where
  /-- Kept on disk and replicated. -/
  | couchbase
  /-- Kept in memory and replicated. -/
  | ephemeral
  /-- A cache in memory, never replicated. -/
  | memcached
  deriving DecidableEq, Repr

namespace Kind

/-- The kind of a bucket for which none is asked. -/
def default : Kind := .couchbase

/-- Items survive the restart of a node. -/
def isPersistent : Kind → Bool
  | .couchbase => true
  | .ephemeral | .memcached => false

/-- The name of a kind. -/
def text : Kind → String
  | .couchbase => "couchbase"
  | .ephemeral => "ephemeral"
  | .memcached => "memcached"

/-- All kinds, by name. -/
def named : List (String × Kind) :=
  [.couchbase, .ephemeral, .memcached].map fun k => (k.text, k)

end Kind

/-- How clients prove who they are. -/
inductive Auth where
  | none
  | sasl
  deriving DecidableEq, Repr

namespace Auth

/-- The name of a way to authenticate. -/
def text : Auth → String
  | .none => "none"
  | .sasl => "sasl"

/-- All ways to authenticate, by name. -/
def named : List (String × Auth) :=
  [.none, .sasl].map fun a => (a.text, a)

end Auth

end BucketAdmin.Bucket
