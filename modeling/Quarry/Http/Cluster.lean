/-
# Accounts of the cluster

The service shows itself as a cluster of one node.

* `rootJson` — what it is. `healthJson` — how it is. `catalogJson` — the indices it has.
-/
import Quarry.Json.Basic
import Quarry.Text.Digits

namespace Quarry.Http

open Quarry.Text

/-- The name of the cluster, and of its one node. -/
def clusterName : String := "sqlsearch"

/-- The version that is stated, by which clients choose how to talk. -/
def versionJson : Json :=
  .object [
    ("number", .string "7.10.2"),
    ("build_flavor", .string "oss"),
    ("build_type", .string "sqlite"),
    ("build_snapshot", .bool false),
    ("lucene_version", .string "8.7.0"),
    ("minimum_wire_compatibility_version", .string "6.8.0"),
    ("minimum_index_compatibility_version", .string "6.0.0-beta1")]

/-- The account of what the service is. -/
def rootJson : Json :=
  .object [
    ("name", .string clusterName),
    ("cluster_name", .string clusterName),
    ("cluster_uuid", .string (clusterName ++ "-single-node")),
    ("version", versionJson),
    ("tagline", .string "You Know, for Search")]

/-- The account of the health of a cluster with some number of indices. -/
def healthJson (indices : Nat) : Json :=
  .object [
    ("cluster_name", .string clusterName),
    ("status", .string "green"),
    ("timed_out", .bool false),
    ("number_of_nodes", .ofNat 1),
    ("number_of_data_nodes", .ofNat 1),
    ("active_primary_shards", .ofNat indices),
    ("active_shards", .ofNat indices),
    ("relocating_shards", .ofNat 0),
    ("initializing_shards", .ofNat 0),
    ("unassigned_shards", .ofNat 0),
    ("number_of_pending_tasks", .ofNat 0),
    ("active_shards_percent_as_number", .ofFloat 100)]

/-- The account of an index with some number of documents. -/
def catalogEntry (index : String × Nat) : Json :=
  .object [
    ("health", .string "green"),
    ("status", .string "open"),
    ("index", .string index.1),
    ("pri", .string "1"),
    ("rep", .string "0"),
    ("docs.count", .string (Digits.ofNat index.2)),
    ("docs.deleted", .string "0")]

/-- The account of all indices. -/
def catalogJson (indices : List (String × Nat)) : Json := .array (indices.map catalogEntry)

end Quarry.Http
