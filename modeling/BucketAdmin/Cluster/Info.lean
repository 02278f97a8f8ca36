import BucketAdmin.Cluster.Version
import BucketAdmin.Json.Record
import BucketAdmin.Json.Writer

/-!
# Cluster snapshots

What a server tells about its nodes and its storage, with its JSON form.
-/

namespace BucketAdmin.Cluster

open Json

/-- The health of a node. -/
inductive NodeStatus where
  | healthy
  | warmup
  | unhealthy
  deriving DecidableEq, Repr

namespace NodeStatus

/-- The name of a status. -/
def text : NodeStatus → String
  | .healthy => "healthy"
  | .warmup => "warmup"
  | .unhealthy => "unhealthy"

/-- All statuses, by name. -/
def named : List (String × NodeStatus) :=
  [.healthy, .warmup, .unhealthy].map fun s => (s.text, s)

/-- A status inside a document. -/
def reader : Reader NodeStatus := Value.variant named

end NodeStatus

/-- One server of the cluster. -/
structure Node where
  hostname : String
  version : String
  status : NodeStatus
  services : List String
  deriving DecidableEq, Repr

namespace Node

/-- The layout of a node. -/
def layout : Record where
  name := "NodeInfo"
  fields := [
    .required "hostname" Value.text,
    .required "version" Value.text,
    .required "status" NodeStatus.reader,
    .required "services" (Value.list Value.text)]

/-- A node as a JSON value. -/
def json (n : Node) : Value :=
  .ofMembers [
    ("hostname", .ofText n.hostname),
    ("version", .ofText n.version),
    ("status", .ofText n.status.text),
    ("services", .ofList (n.services.map .ofText))]

/-- A node from a JSON value. -/
def reader : Reader Node := fun v => do
  let slots ← layout.read v
  return {
    hostname := ← slots.get "hostname" Value.text
    version := ← slots.get "version" Value.text
    status := ← slots.get "status" NodeStatus.reader
    services := ← slots.get "services" (Value.list Value.text) }

end Node

/-- Storage of the whole cluster, in bytes. -/
structure Totals where
  ramTotal : UInt64
  ramUsed : UInt64
  ramQuotaTotal : UInt64
  ramQuotaUsed : UInt64
  diskTotal : UInt64
  diskUsed : UInt64
  deriving DecidableEq, Repr

namespace Totals

/-- The layout of storage totals. -/
def layout : Record where
  name := "StorageTotals"
  fields := [
    .required "ram_total" Value.uint64,
    .required "ram_used" Value.uint64,
    .required "ram_quota_total" Value.uint64,
    .required "ram_quota_used" Value.uint64,
    .required "disk_total" Value.uint64,
    .required "disk_used" Value.uint64]

/-- Storage totals as a JSON value. -/
def json (t : Totals) : Value :=
  .ofMembers [
    ("ram_total", .ofNat t.ramTotal.toNat),
    ("ram_used", .ofNat t.ramUsed.toNat),
    ("ram_quota_total", .ofNat t.ramQuotaTotal.toNat),
    ("ram_quota_used", .ofNat t.ramQuotaUsed.toNat),
    ("disk_total", .ofNat t.diskTotal.toNat),
    ("disk_used", .ofNat t.diskUsed.toNat)]

/-- Storage totals from a JSON value. -/
def reader : Reader Totals := fun v => do
  let slots ← layout.read v
  return {
    ramTotal := ← slots.get "ram_total" Value.uint64
    ramUsed := ← slots.get "ram_used" Value.uint64
    ramQuotaTotal := ← slots.get "ram_quota_total" Value.uint64
    ramQuotaUsed := ← slots.get "ram_quota_used" Value.uint64
    diskTotal := ← slots.get "disk_total" Value.uint64
    diskUsed := ← slots.get "disk_used" Value.uint64 }

end Totals

/-- A snapshot of the cluster. -/
structure Info where
  nodes : List Node
  storage : Totals
  deriving DecidableEq, Repr

namespace Info

/-- The layout of a snapshot. -/
def layout : Record where
  name := "ClusterInfo"
  fields := [
    .required "nodes" (Value.list Node.reader),
    .required "storage" Totals.reader]

/-- A snapshot as a JSON value. -/
def json (i : Info) : Value :=
  .ofMembers [("nodes", .ofList (i.nodes.map Node.json)), ("storage", i.storage.json)]

/-- A snapshot from a JSON value. -/
def reader : Reader Info := fun v => do
  let slots ← layout.read v
  return {
    nodes := ← slots.get "nodes" (Value.list Node.reader)
    storage := ← slots.get "storage" Totals.reader }

/-- The healthy nodes, in order. -/
def healthyNodes (i : Info) : List Node :=
  i.nodes.filter (·.status == .healthy)

/-- The lowest version of any node, nodes without a readable version left aside. -/
def minVersion (i : Info) : Option Version :=
  match i.nodes.filterMap fun n => (Version.parse n.version).toOption with
  | [] => none
  | v :: vs => some (vs.foldl Version.least v)

end Info

namespace Version

/-- The layout of a version as a record. -/
def layout : Record where
  name := "ServerVersion"
  fields := [
    .required "major" Value.uint32,
    .required "minor" Value.uint32,
    .required "patch" Value.uint32]

/-- A version as a JSON value. -/
def json (v : Version) : Value :=
  .ofMembers [
    ("major", .ofNat v.major.toNat),
    ("minor", .ofNat v.minor.toNat),
    ("patch", .ofNat v.patch.toNat)]

/-- A version from a JSON value. -/
def reader : Reader Version := fun v => do
  let slots ← layout.read v
  return {
    major := ← slots.get "major" Value.uint32
    minor := ← slots.get "minor" Value.uint32
    patch := ← slots.get "patch" Value.uint32 }

end Version

end BucketAdmin.Cluster
