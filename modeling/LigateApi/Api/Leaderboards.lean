import LigateApi.Api.ActiveAddresses
import LigateApi.Lib.Buckets
import LigateApi.Lib.Ranking
import Mathlib.Data.String.Basic

/-!
# Leaderboards

`GET /v1/stats/top-attesters` and `…/top-schema-owners` rank addresses by the number of their rows,
`…/top-attestor-sets` ranks the sets by a column, and `…/top-holders` ranks the addresses of the
summaries by what the chain answers for their balance. A leaderboard is ordered by the number, and
where two are equal by the text.
-/

namespace LigateApi.Api.Stats

open Lib Queries
open Indexer hiding TxRow SchemaRow

structure TopAddressRank where
  rank : Nat
  address : String
  count : Int
  deriving DecidableEq, Repr

structure LeaderboardResponse where
  window : String
  rows : List TopAddressRank
  deriving DecidableEq, Repr

/-- The rows of a query, with their ranks from 1 on. -/
def ranked (rows : List (String × Int)) : LeaderboardResponse where
  window := "all-time"
  rows := rows.mapIdx fun i r => { rank := i + 1, address := r.1, count := r.2 }

/-- The query with its error's context. -/
def leaderboard (context : String) (query : Db → List (String × Int)) (pg : PgPool) :
    Computed LeaderboardResponse :=
  match pg with
  | .error _ => .err context
  | .ok db => .ok (ranked (query db))

/-- `ORDER BY number DESC, name ASC LIMIT n` -/
def topNamed (postgres : Postgres) (rows : List (String × Int)) (n : UInt32) :
    List (String × Int) :=
  Ranking.best (Ranking.groupKey postgres.collation.sortKey) rows n.toNat

/-- `SELECT group, COUNT(*)::BIGINT … GROUP BY group` -/
def groupCounts {R : Type} (group : R → String) (rows : List R) : List (String × Int) :=
  (Buckets.groupCount group rows).map fun g => (g.1, (g.2 : Int))

/-- `compute_top_attesters` -/
def computeTopAttesters (postgres : Postgres) (pg : PgPool) (n : UInt32) :
    Computed LeaderboardResponse :=
  leaderboard "top-attesters query"
    (fun db => topNamed postgres (groupCounts AttestationRow.submitter db.attestations) n) pg

/-- `compute_top_schema_owners` -/
def computeTopSchemaOwners (postgres : Postgres) (pg : PgPool) (n : UInt32) :
    Computed LeaderboardResponse :=
  leaderboard "top-schema-owners query"
    (fun db => topNamed postgres (groupCounts Indexer.SchemaRow.owner db.schemas) n) pg

/-- `SELECT id, schema_count … WHERE schema_count > 0` -/
def boundSets (db : Db) : List (String × Int) :=
  (db.attestorSets.filter fun r => 0 < r.schemaCount.toInt).map fun r => (r.id, r.schemaCount.toInt)

/-- `compute_top_attestor_sets`: the denormalised column, not a count of rows. -/
def computeTopAttestorSets (postgres : Postgres) (pg : PgPool) (n : UInt32) :
    Computed LeaderboardResponse :=
  leaderboard "top-attestor-sets query" (fun db => topNamed postgres (boundSets db) n) pg

/-! ## Holders -/

structure TopHolder where
  rank : Nat
  address : String
  /-- The balance in decimal. -/
  balanceNano : String
  deriving DecidableEq, Repr

structure TopHoldersResponse where
  source : String
  holders : List TopHolder
  deriving DecidableEq, Repr

/-- The addresses with a balance; one whose query fails is skipped. -/
def withBalance (balance : String → Option Nat) (addresses : List String) : List (String × Nat) :=
  addresses.filterMap fun addr => (balance addr).map fun bal => (addr, bal)

/-- `compute_top_holders`: at most 1000 addresses are asked for. The sort is stable. -/
def computeTopHolders (balance : String → Option Nat) (pg : PgPool) (n : UInt32) :
    Computed TopHoldersResponse :=
  match pg with
  | .error _ => .err "address-summary list"
  | .ok db =>
    let addresses := (db.addressSummaries.take 1000).map AddressSummaryRow.address
    let sorted := (withBalance balance addresses).insertionSort fun a b => b.2 ≤ a.2
    .ok {
      source := "chain"
      holders := (sorted.take n.toNat).mapIdx fun i h =>
        { rank := i + 1, address := h.1, balanceNano := toString h.2 } }

end LigateApi.Api.Stats
