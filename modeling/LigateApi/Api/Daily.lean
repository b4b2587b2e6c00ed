import LigateApi.Api.ActiveAddresses
import LigateApi.Api.Stats
import Mathlib.Data.String.Basic

/-!
# Daily series

New wallets, attestations and transactions per UTC day over the last days. Days without a row have
no point. The transactions are grouped by kind and outcome as well, and dated by the slot they are
joined with. Columns hold milliseconds, instants are microseconds.
-/

namespace LigateApi.Api.Stats

open Lib Queries
open Indexer hiding TxRow SchemaRow

structure DailyPoint where
  date : String
  count : Nat
  deriving DecidableEq, Repr

/-- `NewWalletsDailyResponse`, `AttestationsDailyResponse` -/
structure DailyResponse where
  days : UInt32
  points : List DailyPoint
  deriving DecidableEq, Repr

/-- `SELECT DATE_TRUNC('day', stamp) AS day, COUNT(*) … WHERE stamp >= $1 GROUP BY day ORDER BY day
ASC`; `format` is `day.format("%Y-%m-%d")`, and a `NULL` is not selected. -/
def computeDaily (context : String) (stamps : Db → List Int) (format : Int → String) (pg : PgPool)
    (days : UInt32) (now : Int) : Computed DailyResponse :=
  match pg with
  | .error _ => .err context
  | .ok db =>
    let since := windowStart now days
    let rows := Buckets.groupCount dayOf ((stamps db).filter fun t => since ≤ t)
    .ok { days, points := rows.map fun r => { date := format r.1, count := r.2 } }

/-- `address_summaries.first_seen_timestamp` -/
def firstSeenStamps (db : Db) : List Int :=
  db.addressSummaries.filterMap fun r => r.firstSeenTimestamp.map fun t => 1000 * t

/-- `attestations.submitted_at_timestamp` -/
def submittedStamps (db : Db) : List Int := db.attestations.map fun r => 1000 * r.submittedAtTimestamp

/-- `compute_new_wallets_daily` -/
def computeNewWalletsDaily : (Int → String) → PgPool → UInt32 → Int → Computed DailyResponse :=
  computeDaily "daily new-wallets bucket" firstSeenStamps

/-- `compute_attestations_daily` -/
def computeAttestationsDaily : (Int → String) → PgPool → UInt32 → Int → Computed DailyResponse :=
  computeDaily "daily attestations bucket" submittedStamps

/-! ## Transactions -/

structure TxRatePoint where
  date : String
  kind : String
  outcome : String
  count : Nat
  deriving DecidableEq, Repr

structure TxRateDailyResponse where
  days : UInt32
  points : List TxRatePoint
  deriving DecidableEq, Repr

/-- The columns of `transactions t JOIN slots s ON s.height = t.slot` that are read. -/
structure RateRow where
  stamp : Int
  kind : String
  outcome : String

def rateRows (db : Db) : List RateRow :=
  Table.join Indexer.TxRow.slot SlotRow.height
    (fun t s => { stamp := 1000 * s.timestamp, kind := t.kind, outcome := t.outcome })
    db.transactions db.slots

/-- What the rows are grouped by. -/
structure RateGroup where
  day : Int
  kind : String
  outcome : String
  deriving DecidableEq, Repr

def RateRow.group (r : RateRow) : RateGroup :=
  { day := dayOf r.stamp, kind := r.kind, outcome := r.outcome }

/-- `ORDER BY day ASC, t.kind ASC, t.outcome ASC` -/
def RateGroup.order (postgres : Postgres) (g : RateGroup) :
    Int ×ₗ postgres.collation.SortKey ×ₗ postgres.collation.SortKey :=
  toLex (g.day, toLex (postgres.collation.sortKey g.kind, postgres.collation.sortKey g.outcome))

/-- The groups of the rows from an instant on, in their order. -/
def rateGroups (postgres : Postgres) (since : Int) (db : Db) : List (RateGroup × Nat) :=
  let rows := (rateRows db).filter fun r => since ≤ r.stamp
  let groups := (rows.map RateRow.group).dedup
  let counted := groups.map fun g => (g, rows.countP fun r => r.group = g)
  counted.insertionSort fun a b => a.1.order postgres ≤ b.1.order postgres

/-- `compute_tx_rate_daily` -/
def computeTxRateDaily (postgres : Postgres) (format : Int → String) (pg : PgPool) (days : UInt32)
    (now : Int) : Computed TxRateDailyResponse :=
  match pg with
  | .error _ => .err "daily tx-rate bucket"
  | .ok db =>
    .ok {
      days
      points := (rateGroups postgres (windowStart now days) db).map fun g =>
        { date := format g.1.day, kind := g.1.kind, outcome := g.1.outcome, count := g.2 } }

end LigateApi.Api.Stats
