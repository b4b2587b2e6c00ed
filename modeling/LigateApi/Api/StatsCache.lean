import LigateApi.Api.ActiveAddresses
import LigateApi.Api.Stats

/-!
# The cache of the statistics

Every handler under `/v1/stats` looks up its key in `StatsCache` first and computes on a miss
(`serve`); what it computed is put under the key and never evicted. The keys are constants, constants
with a clamped number, or, for active addresses, the caller's window as it was spelled. What the
computations over the database and the chain return is the oracle `Computations`; the one of active
addresses is spelled out. Instants of the cache are nanoseconds on a monotonic clock.
-/

namespace LigateApi.Api.Stats

open Lib Queries

/-! ## `StatsCache` -/

structure CacheEntry where
  key : String
  putAt : Nat
  body : String
  deriving DecidableEq, Repr

/-- `StatsCache`: a map, with at most one entry under a key. -/
structure StatsCache where
  inner : List CacheEntry
  unique : (inner.map CacheEntry.key).Nodup

namespace StatsCache

/-- `StatsCache::new` -/
def new : StatsCache := ⟨[], List.nodup_nil⟩

/-- `get_fresh` at the instant `now`. -/
def getFresh (cache : StatsCache) (now : Nat) (key : String) (ttl : Nat) : Option String :=
  (Table.lookup CacheEntry.key key cache.inner).bind fun entry =>
    if now - entry.putAt < ttl then some entry.body else none

/-- `put` at the instant `now`. -/
def put (cache : StatsCache) (now : Nat) (key value : String) : StatsCache where
  inner := Table.upsert CacheEntry.key ⟨key, now, value⟩ (fun _ => ⟨key, now, value⟩) cache.inner
  unique := Table.nodup_put cache.unique

end StatsCache

/-! ## Replies -/

/-- How a request ends. -/
inductive Reply
  | ok (body : String) (maxAgeSecs : UInt32)
  | error (body : String)
  | panicked
  deriving DecidableEq, Repr

/-- `error_response`: quotation marks in the message become apostrophes. -/
def errorResponse (message : String) : Reply :=
  .error ("\x7b\"error\":\"" ++
    message.map (fun c => if c = Char.ofNat 34 then Char.ofNat 39 else c) ++ "\"\x7d")

def defaultTtl : Nat := 30 * 10 ^ 9

def nextBlockEtaTtl : Nat := 5 * 10 ^ 9

def ttlStatsDefaultSecs : UInt32 := 30

def ttlStatsTotalsSecs : UInt32 := 10

def ttlStatsNextBlockEtaSecs : UInt32 := 5

/-! ## Requests -/

/-- What the other computations return, serialised. -/
structure Computations where
  totals : Computed String
  observedFinality : Computed String
  estimatedFinality : String
  nextBlockEta : Computed String
  newWalletsDaily : UInt32 → Computed String
  attestationsDaily : UInt32 → Computed String
  txRateDaily : UInt32 → Computed String
  dripsDaily : UInt32 → String → Computed String
  topHolders : UInt32 → Computed String
  topAttesters : UInt32 → Computed String
  topSchemaOwners : UInt32 → Computed String
  topAttestorSets : UInt32 → Computed String

/-- The surroundings of one request: the monotonic clock when the cache is read and when it is
written, the calendar clock in between, the database, and what is computed from it. -/
structure Moment where
  arrived : Nat
  computed : Nat
  utcNow : Int
  pg : PgPool
  computations : Computations

structure StatsEnv where
  faucetAddress : String
  /-- `to_rfc3339_opts(SecondsFormat::Secs, true)` -/
  rfc3339 : Int → String
  /-- `serde_json::to_string` -/
  toJson : ActiveAddressesResponse → String

inductive StatsRequest
  | totals
  | finality
  | nextBlockEta
  | activeAddresses (window : Option String)
  | newWalletsDaily (days : Option UInt32)
  | attestationsDaily (days : Option UInt32)
  | txRateDaily (days : Option UInt32)
  | dripsDaily (days : Option UInt32)
  | topHolders (n : Option UInt32)
  | topAttesters (n : Option UInt32)
  | topSchemaOwners (n : Option UInt32)
  | topAttestorSets (n : Option UInt32)

/-! ## Handlers -/

def Computed.map {α β : Type} (f : α → β) : Computed α → Computed β
  | .ok a => .ok (f a)
  | .err message => .err message
  | .panicked message => .panicked message

/-- The common body of the handlers. -/
def serve (key : String) (ttl : Nat) (maxAgeSecs : UInt32) (m : Moment) (compute : Computed String)
    (cache : StatsCache) : Reply × StatsCache :=
  match cache.getFresh m.arrived key ttl with
  | some cached => (.ok cached maxAgeSecs, cache)
  | none =>
    match compute with
    | .ok body => (.ok body maxAgeSecs, cache.put m.computed key body)
    | .err message => (errorResponse message, cache)
    | .panicked _ => (.panicked, cache)

def totals (m : Moment) : StatsCache → Reply × StatsCache :=
  serve "totals" defaultTtl ttlStatsTotalsSecs m m.computations.totals

/-- `finality`: a failed sampling falls back to the estimate. -/
def finality (m : Moment) : StatsCache → Reply × StatsCache :=
  serve "finality" defaultTtl ttlStatsDefaultSecs m <|
    match m.computations.observedFinality with
    | .ok body => .ok body
    | .err _ => .ok m.computations.estimatedFinality
    | .panicked message => .panicked message

def nextBlockEta (m : Moment) : StatsCache → Reply × StatsCache :=
  serve "next-block-eta" nextBlockEtaTtl ttlStatsNextBlockEtaSecs m m.computations.nextBlockEta

/-- `format!("active-addresses:{window}")` -/
def activeAddressesKey (window : String) : String := "active-addresses:" ++ window

/-- `active_addresses`: a window that does not parse never reaches the cache. -/
def activeAddresses (env : StatsEnv) (window : Option String) (m : Moment) (cache : StatsCache) :
    Reply × StatsCache :=
  let window := window.getD "24h"
  match parseInterval window with
  | .error message => (errorResponse message, cache)
  | .ok interval =>
    serve (activeAddressesKey window) defaultTtl ttlStatsDefaultSecs m
      ((computeActiveAddresses env.rfc3339 m.pg window interval m.utcNow).map env.toJson) cache

/-- A key of a clamped number. -/
def numberKey (name : String) (n : UInt32) : String := name ++ ":" ++ toString n.toNat

/-- A handler of one number with a default and a cap. -/
def serveClamped (name : String) (default cap : UInt32) (compute : UInt32 → Computed String)
    (n : Option UInt32) (m : Moment) : StatsCache → Reply × StatsCache :=
  let n := min (n.getD default) cap
  serve (numberKey name n) defaultTtl ttlStatsDefaultSecs m (compute n)

def newWalletsDaily (days : Option UInt32) (m : Moment) : StatsCache → Reply × StatsCache :=
  serveClamped "new-wallets-daily" 7 90 m.computations.newWalletsDaily days m

def attestationsDaily (days : Option UInt32) (m : Moment) : StatsCache → Reply × StatsCache :=
  serveClamped "attestations-daily" 30 90 m.computations.attestationsDaily days m

def txRateDaily (days : Option UInt32) (m : Moment) : StatsCache → Reply × StatsCache :=
  serveClamped "tx-rate-daily" 7 90 m.computations.txRateDaily days m

/-- `drips_daily`: the key also names the faucet. -/
def dripsDaily (env : StatsEnv) (days : Option UInt32) (m : Moment) :
    StatsCache → Reply × StatsCache :=
  let days := dripsDailyDays days
  serve (numberKey ("drips-daily:" ++ env.faucetAddress) days) defaultTtl ttlStatsDefaultSecs m
    (m.computations.dripsDaily days env.faucetAddress)

def topHolders (n : Option UInt32) (m : Moment) : StatsCache → Reply × StatsCache :=
  serveClamped "top-holders" 10 100 m.computations.topHolders n m

def topAttesters (n : Option UInt32) (m : Moment) : StatsCache → Reply × StatsCache :=
  serveClamped "top-attesters" 10 100 m.computations.topAttesters n m

def topSchemaOwners (n : Option UInt32) (m : Moment) : StatsCache → Reply × StatsCache :=
  serveClamped "top-schema-owners" 10 100 m.computations.topSchemaOwners n m

def topAttestorSets (n : Option UInt32) (m : Moment) : StatsCache → Reply × StatsCache :=
  serveClamped "top-attestor-sets" 10 100 m.computations.topAttestorSets n m

/-- The routes under `/v1/stats`. -/
def handle (env : StatsEnv) : StatsRequest → Moment → StatsCache → Reply × StatsCache
  | .totals => totals
  | .finality => finality
  | .nextBlockEta => nextBlockEta
  | .activeAddresses window => activeAddresses env window
  | .newWalletsDaily days => newWalletsDaily days
  | .attestationsDaily days => attestationsDaily days
  | .txRateDaily days => txRateDaily days
  | .dripsDaily days => dripsDaily env days
  | .topHolders n => topHolders n
  | .topAttesters n => topAttesters n
  | .topSchemaOwners n => topSchemaOwners n
  | .topAttestorSets n => topAttestorSets n

/-- The cache after one request. -/
def statsStep (env : StatsEnv) (cache : StatsCache) (e : StatsRequest × Moment) :
    Option StatsCache := some (handle env e.1 e.2 cache).2

end LigateApi.Api.Stats
