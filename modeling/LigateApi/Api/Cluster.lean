import LigateApi.Indexer.Client
import Mathlib.Data.UInt

/-!
# The cluster's topology

`GET /v1/cluster/nodes` asks the chain for its nodes, takes the private addresses out, sums their
state up in one word (`transform`), and keeps the answer for five seconds; what it could not fetch
is answered as `unknown` and not kept. `serde_json`, which reads the chain's body and writes the
public one, and the names of the status codes are the environment `ClusterEnv`. Instants of the
cache are nanoseconds on a monotonic clock.
-/

namespace LigateApi.Api.Cluster

open Indexer.Client (UrlApi NodeClient)

/-! ## Shapes -/

structure ChainClusterNode where
  nodeId : String
  /-- Private, `host:port`. -/
  address : String
  isLeader : Bool
  lastHeartbeatAgeMs : Int64
  deriving DecidableEq, Repr

structure ChainClusterTopology where
  nodes : List ChainClusterNode
  leaderNodeId : Option String
  leaderAcquiredAtEpochMs : Option Int64
  generatedAtEpochMs : Int64
  deriving DecidableEq, Repr

structure ClusterNode where
  nodeId : String
  isLeader : Bool
  lastHeartbeatAgeMs : Int64
  deriving DecidableEq, Repr

inductive ClusterHealth
  | healthy | degraded | leaderless | unknown
  deriving DecidableEq, Repr

structure ClusterTopology where
  nodes : List ClusterNode
  leaderNodeId : Option String
  leaderAcquiredAtEpochMs : Option Int64
  generatedAtEpochMs : Int64
  clusterHealth : ClusterHealth
  deriving DecidableEq, Repr

/-! ## `NodeClient::cluster_nodes` -/

/-- What a GET comes back with. -/
inductive HttpAnswer
  | unreachable
  | response (status : Nat) (body : String)
  deriving DecidableEq, Repr

inductive IndexerError
  | nodeUnreachable
  | nodeBadShape (url : String) (source : String)
  deriving DecidableEq, Repr

structure ClusterEnv where
  urlApi : UrlApi
  chainRpc : String
  /-- `serde_json::from_slice::<ChainClusterTopology>` -/
  fromSlice : String → Except String ChainClusterTopology
  /-- `serde_json::to_string(&topology)` -/
  toJson : ClusterTopology → Except String String
  /-- `StatusCode::canonical_reason` -/
  canonicalReason : Nat → Option String

/-- `StatusCode::is_success` -/
def isSuccess (status : Nat) : Bool := 200 ≤ status && status < 300

/-- `StatusCode` as it is displayed: the number with its reason. -/
def ClusterEnv.displayStatus (env : ClusterEnv) (status : Nat) : String :=
  toString status ++ " " ++ (env.canonicalReason status).getD "<unknown status code>"

/-- `NodeClient::cluster_nodes`, given what the GET of its URL came back with. -/
def clusterNodes (env : ClusterEnv) (url : String) :
    HttpAnswer → Except IndexerError ChainClusterTopology
  | .unreachable => .error .nodeUnreachable
  | .response status body =>
    if isSuccess status then (env.fromSlice body).mapError (.nodeBadShape url)
    else .error (.nodeBadShape url ("chain returned HTTP " ++ env.displayStatus status ++
      " for /v1/cluster/nodes (check CHAIN_CLUSTER_AUTH_TOKEN env var and Caddy auth gate)"))

/-! ## The public shape -/

/-- `HEARTBEAT_FRESHNESS_MS` -/
def heartbeatFreshnessMs : Int64 := 2000

def ChainClusterNode.strip (n : ChainClusterNode) : ClusterNode :=
  { nodeId := n.nodeId, isLeader := n.isLeader, lastHeartbeatAgeMs := n.lastHeartbeatAgeMs }

/-- `transform` -/
def transform (chain : ChainClusterTopology) (nowUnixMs : Int64) : ClusterTopology :=
  let nodes := chain.nodes.map ChainClusterNode.strip
  let clusterHealth :=
    if chain.leaderNodeId.isNone then .leaderless
    else if nodes.any fun n => heartbeatFreshnessMs < n.lastHeartbeatAgeMs then .degraded
    else .healthy
  { nodes, leaderNodeId := chain.leaderNodeId,
    leaderAcquiredAtEpochMs := chain.leaderAcquiredAtEpochMs, generatedAtEpochMs := nowUnixMs,
    clusterHealth }

/-- `unknown_topology` -/
def unknownTopology (nowUnixMs : Int64) : ClusterTopology where
  nodes := []
  leaderNodeId := none
  leaderAcquiredAtEpochMs := none
  generatedAtEpochMs := nowUnixMs
  clusterHealth := .unknown

/-- The calendar clock and the chain during one request. -/
structure ClusterMoment where
  /-- The milliseconds since the Unix epoch, none before it. -/
  sinceEpoch : Option Nat
  answer : HttpAnswer
  deriving DecidableEq, Repr

/-- Milliseconds that do not fit are zero. -/
def nowUnixMs (m : ClusterMoment) : Int64 :=
  let ms := m.sinceEpoch.getD 0
  if ms < 2 ^ 63 then Int64.ofNat ms else 0

/-- `fetch_and_transform`; none where the join of the path panics. -/
def fetchAndTransform (env : ClusterEnv) (m : ClusterMoment) : Option ClusterTopology :=
  match NodeClient.new env.urlApi env.chainRpc with
  | .error _ => some (unknownTopology (nowUnixMs m))
  | .ok client =>
    match client.url env.urlApi "v1/cluster/nodes" with
    | .error _ => none
    | .ok url =>
      match clusterNodes env url m.answer with
      | .error _ => some (unknownTopology (nowUnixMs m))
      | .ok chain => some (transform chain (nowUnixMs m))

/-! ## The handler -/

/-- `CACHE_TTL` -/
def cacheTtl : Nat := 5 * 10 ^ 9

def cacheControlMaxAgeSecs : UInt32 := 5

def unknownCacheMaxAgeSecs : UInt32 := 10

structure Reply where
  status : Nat
  maxAgeSecs : Option UInt32
  body : String
  deriving DecidableEq, Repr

def cachedJson (body : String) (maxAgeSecs : UInt32) (status : Nat) : Reply :=
  { status, maxAgeSecs := some maxAgeSecs, body }

/-- The reply to a topology, and whether its body is kept. -/
def render (env : ClusterEnv) (topology : ClusterTopology) : Reply × Bool :=
  match env.toJson topology with
  | .error _ => ({ status := 500, maxAgeSecs := none, body := "serialization error" }, false)
  | .ok body =>
    let unknown := decide (topology.clusterHealth = .unknown)
    let maxAgeSecs := if unknown then unknownCacheMaxAgeSecs else cacheControlMaxAgeSecs
    let status := if unknown then 503 else 200
    (cachedJson body maxAgeSecs status, !unknown)

/-- `ClusterCache`: one body with the instant it was put at. -/
abbrev ClusterCache := Option (Nat × String)

/-- `get_fresh` -/
def ClusterCache.getFresh (cache : ClusterCache) (now : Nat) : Option String :=
  cache.bind fun e => if now - e.1 < cacheTtl then some e.2 else none

/-- `put` -/
def ClusterCache.put (_ : ClusterCache) (now : Nat) (body : String) : ClusterCache :=
  some (now, body)

/-- What a miss computes: a reply and whether its body is kept, unless it panics. -/
def computeNodes (env : ClusterEnv) (m : ClusterMoment) : Option (Reply × Bool) :=
  (fetchAndTransform env m).map (render env)

/-- `nodes`: the cache is read at one instant and written at another. -/
def nodes (env : ClusterEnv) (m : ClusterMoment) (arrived finished : Nat) (cache : ClusterCache) :
    Option Reply × ClusterCache :=
  match cache.getFresh arrived with
  | some cached => (some (cachedJson cached cacheControlMaxAgeSecs 200), cache)
  | none =>
    match computeNodes env m with
    | none => (none, cache)
    | some (reply, kept) => (some reply, if kept then cache.put finished reply.body else cache)

end LigateApi.Api.Cluster
