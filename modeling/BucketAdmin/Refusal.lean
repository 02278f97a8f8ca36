import BucketAdmin.Bucket.Settings
import BucketAdmin.Cluster.Version
import BucketAdmin.Json.Fault

/-!
# Refusals

Why a value cannot be made or an operation on the registry is not done. A store that fails is not
among the causes: the store is taken not to fail, nor the lock on its writes to be poisoned.
-/

namespace BucketAdmin

/-- The cause of a refusal. -/
inductive Refusal where
  | name (fault : Bucket.NameFault)
  | settings (fault : Bucket.SettingsFault)
  | version (fault : Cluster.VersionFault)
  | bucketExists (name : Bucket.Name)
  | bucketMissing (name : Bucket.Name)
  /-- A record or a document that does not read as what it should hold. -/
  | undecodable (fault : Json.Fault)
  deriving DecidableEq

/-- The words for a refusal. -/
def Refusal.message : Refusal → String
  | .name f => f.message
  | .settings f => f.message
  | .version f => f.message
  | .bucketExists n => s!"Bucket already exists: {n.text}"
  | .bucketMissing n => s!"Bucket not found: {n.text}"
  | .undecodable f => s!"Serialization error: {f.message}"

end BucketAdmin
