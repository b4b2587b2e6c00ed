import LigateApi.Api.Queries
import LigateApi.Drip.BotDrip
import LigateApi.Lib.Buckets

/-!
# Statistics

`GET /v1/stats/drips-daily`: the faucet's drips per UTC day, by source. The web drips are read off the
indexer's `transactions`, the bot drips off `bot_drips`; both are grouped by day in Postgres and
merged in an ordered map keyed by the day's text. Instants are microseconds since the Unix epoch, a
day is their quotient by 86400 seconds.
-/

namespace LigateApi.Api.Stats

open Lib Queries

/-- What the endpoint reads: the transactions with the instant they were indexed at, and the bot's
table. -/
structure StatsDb where
  transactions : List (Indexer.TxRow × Int)
  botDrips : List Drip.BotDripRow

structure DripsDailyPoint where
  date : String
  web : Nat
  bot : Nat
  total : Nat
  deriving DecidableEq, Repr

structure DripsDailyResponse where
  days : UInt32
  faucetAddress : String
  points : List DripsDailyPoint
  deriving DecidableEq, Repr

/-- `params.days.unwrap_or(30).min(90)` -/
def dripsDailyDays (days : Option UInt32) : UInt32 := min (days.getD 30) 90

/-- `DATE_TRUNC('day', t)`, as the number of the day. -/
def dayOf (t : Int) : Int := t / 86400000000

/-- `Utc::now() - Duration::days(days)` -/
def windowStart (now : Int) (days : UInt32) : Int := now - days.toNat * 86400000000

/-- The instants of `transactions WHERE sender = $1 AND kind = 'transfer' AND indexed_at >= $2` -/
def faucetTransfers (faucetAddr : String) (since : Int) (db : StatsDb) : List Int :=
  (db.transactions.filter fun r =>
    r.1.sender = some faucetAddr ∧ r.1.kind = "transfer" ∧ since ≤ r.2).map Prod.snd

/-- The instants of `bot_drips WHERE dripped_at >= $1` -/
def botStamps (since : Int) (db : StatsDb) : List Int :=
  (db.botDrips.filter fun r => since ≤ (r.drippedAt : Int)).map fun r => (r.drippedAt : Int)

/-- The two loops that merge the groups; `format` is `day.format("%Y-%m-%d")`. -/
def mergeByDay (format : Int → String) (webRows botRows : List (Int × Nat)) :
    Std.TreeMap String (Nat × Nat) :=
  let byDay : Std.TreeMap String (Nat × Nat) :=
    webRows.foldl (fun m r => m.alter (format r.1) fun e => some (r.2, (e.getD (0, 0)).2)) ∅
  botRows.foldl (fun m r => m.alter (format r.1) fun e => some ((e.getD (0, 0)).1, r.2)) byDay

def dripsDailyPoint (e : String × Nat × Nat) : DripsDailyPoint :=
  { date := e.1, web := e.2.1, bot := e.2.2, total := e.2.1 + e.2.2 }

/-- `compute_drips_daily` at the instant `now`. -/
def computeDripsDaily (format : Int → String) (pool : Except SqlxError StatsDb) (days : UInt32)
    (faucetAddr : String) (now : Int) : Except SqlxError DripsDailyResponse := do
  let db ← pool
  let since := windowStart now days
  let webRows := Buckets.groupCount dayOf (faucetTransfers faucetAddr since db)
  let botRows := Buckets.groupCount dayOf (botStamps since db)
  return { days, faucetAddress := faucetAddr,
           points := (mergeByDay format webRows botRows).toList.map dripsDailyPoint }

end LigateApi.Api.Stats
