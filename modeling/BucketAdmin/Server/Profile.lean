import BucketAdmin.Cluster.Info
import BucketAdmin.Registry.Buckets

/-!
# The profile of a node

What the serving node tells about itself, and the snapshot it makes of itself and the registry. The
disk space that is taken is what the storage engine says it is, and no more is known of it here than
that it is a number of bytes.
-/

namespace BucketAdmin.Server

open Cluster (Info Node Totals)

/-- The fixed description of the serving node. -/
structure Profile where
  hostname : String := "127.0.0.1:8091"
  version : String := "7.2.0-0000-community"
  ramTotalMb : UInt64 := 4096
  diskTotalMb : UInt64 := 65536
  services : List String := ["kv"]
  deriving DecidableEq, Repr

/-- The bytes of a megabyte. -/
def bytesPerMb : Nat := 1024 * 1024

/-- Megabytes as bytes, if they fit 64 bits. -/
def toBytes (mb : UInt64) : Except Refusal UInt64 :=
  let bytes := mb.toNat * bytesPerMb
  if bytes < UInt64.size then .ok (UInt64.ofNat bytes)
  else .error (.settings (.bytesTooLarge mb))

/-- The snapshot of a node and its registry, of which the storage engine says that it takes this
much disk space. -/
def Profile.snapshot (p : Profile) (diskSpace : UInt64) (st : Registry.Store) :
    Except Refusal Info := do
  let used ← toBytes (UInt64.ofNat (← Registry.quotaUsedMb st))
  let ramTotal ← toBytes p.ramTotalMb
  let diskTotal ← toBytes p.diskTotalMb
  let node : Node := {
    hostname := p.hostname
    version := p.version
    status := .healthy
    services := p.services }
  let storage : Totals := {
    ramTotal := ramTotal
    ramUsed := used
    ramQuotaTotal := ramTotal
    ramQuotaUsed := used
    diskTotal := diskTotal
    diskUsed := diskSpace }
  return ⟨[node], storage⟩

end BucketAdmin.Server
