import LigateApi.Api.Cluster
import LigateApi.Lib.Cache

/-!
# What the cluster's topology is answered with

Any number of requests runs beside each other over the one-entry cache. Each reply is told by one
fetch: its own, or the latest one that succeeded before it arrived, less than five seconds ago; the
body of a 200 is the public form of what the chain answered there, a 503 is never served from the
cache; and no private address shows: rewriting the addresses in the chain's answers changes no
reply of the run (`nodes_served`).
-/

namespace LigateApi.Api.Cluster

open Lib Lib.Run

variable {env : ClusterEnv}

/-! ## Requests beside each other -/

def clusterStore : Cache.Store ClusterCache Unit String where
  get cache _ := cache
  put cache now _ body := cache.put now body
  get_put_self _ _ _ _ := rfl
  get_put_of_ne _ _ _ _ _ hne := absurd rfl hne

def clusterPolicy (env : ClusterEnv) :
    Cache.Policy Unit Unit ClusterMoment (Option (Reply × Bool)) String where
  key _ := some ()
  ttl _ := cacheTtl
  compute _ m := computeNodes env m
  kept computed := computed.bind fun (reply, kept) => if kept then some reply.body else none

/-- How a request ends, once it has: with a reply, or a panic. -/
def ending : Option (String ⊕ Option (Reply × Bool)) → Option (Option Reply)
  | none => none
  | some (.inl body) => some (some (cachedJson body cacheControlMaxAgeSecs 200))
  | some (.inr computed) => some (computed.map Prod.fst)

abbrev ClusterRequest := Cache.Request Unit ClusterMoment String

def endingOf (env : ClusterEnv) (p : ClusterRequest) : Option (Option Reply) :=
  ending (p.answer (clusterPolicy env))

def clusterStep (env : ClusterEnv) := Cache.step clusterStore (clusterPolicy env)

def idleCluster : Cache.State ClusterCache Unit ClusterMoment String := ⟨0, none, []⟩

variable {s : Cache.State ClusterCache Unit ClusterMoment String} {m : ClusterMoment}
  {es : List (Cache.Event Unit ClusterMoment)} {p q : ClusterRequest} {reply : Reply}

theorem fresh_eq (cache : ClusterCache) (now : Nat) :
    Cache.fresh clusterStore (clusterPolicy env) cache () now = cache.getFresh now := rfl

theorem keep_eq (cache : ClusterCache) (now : Nat) :
    Cache.keep clusterStore (clusterPolicy env) cache () now m =
      match computeNodes env m with
      | none => cache
      | some (reply, kept) => if kept then cache.put now reply.body else cache := by
  simp only [Cache.keep, clusterPolicy]
  cases computeNodes env m with
  | none => rfl
  | some r =>
    obtain ⟨reply, kept⟩ := r
    cases kept <;> rfl

/-- The handler on its own is a run of its two steps. -/
theorem nodes_run {arrived finished : Nat} (harr : s.clock ≤ arrived) (hfin : arrived ≤ finished) :
    ∃ es s' p, exec (clusterStep env) s es = some s' ∧
      s'.store = (nodes env m arrived finished s.store).2 ∧ s'.pool = s.pool ++ [p] ∧
      endingOf env p = some (nodes env m arrived finished s.store).1 := by
  obtain ⟨es, s', p, hrun, hstore, hpool, -, hanswer⟩ :
      ∃ es s' p, exec (clusterStep env) s es = some s' ∧ s'.store =
          (Cache.serve clusterStore (clusterPolicy env) s.store () arrived finished m).2 ∧
        s'.pool = s.pool ++ [p] ∧ p.ask = () ∧ p.answer (clusterPolicy env) =
          some (Cache.serve clusterStore (clusterPolicy env) s.store () arrived finished m).1 :=
    Cache.serve_run () m harr hfin
  refine ⟨es, s', p, hrun, ?_, hpool, ?_⟩
  · rw [hstore, Cache.serve, nodes, fresh_eq, keep_eq]
    cases s.store.getFresh arrived with
    | some body => rfl
    | none => cases computeNodes env m <;> rfl
  · rw [endingOf, hanswer, Cache.serve, nodes, fresh_eq]
    cases s.store.getFresh arrived with
    | some body => rfl
    | none =>
      simp only [ending, clusterPolicy]
      cases computeNodes env m <;> rfl

/-! ## Replies -/

/-- The chain was asked in this moment, and answered so. -/
def Found (env : ClusterEnv) (m : ClusterMoment) (chain : ChainClusterTopology) : Prop :=
  ∃ client url, Indexer.Client.NodeClient.new env.urlApi env.chainRpc = .ok client ∧
    client.url env.urlApi "v1/cluster/nodes" = .ok url ∧ clusterNodes env url m.answer = .ok chain

theorem clusterHealth_transform (chain : ChainClusterTopology) (now : Int64) :
    (transform chain now).clusterHealth ≠ .unknown := by
  simp only [transform]
  split
  · nofun
  · split <;> nofun

theorem fetchAndTransform_cases {topology : ClusterTopology}
    (h : fetchAndTransform env m = some topology) :
    (∃ chain, Found env m chain ∧ topology = transform chain (nowUnixMs m)) ∨
      (∀ chain, ¬ Found env m chain) ∧ topology = unknownTopology (nowUnixMs m) := by
  unfold fetchAndTransform at h
  cases hclient : Indexer.Client.NodeClient.new env.urlApi env.chainRpc with
  | error e =>
    simp only [hclient, Option.some.injEq] at h
    refine .inr ⟨?_, h.symm⟩
    rintro chain ⟨client, url, hc, -⟩
    rw [hclient] at hc
    cases hc
  | ok client =>
    cases hurl : client.url env.urlApi "v1/cluster/nodes" with
    | error e =>
      simp only [hclient, hurl] at h
      cases h
    | ok url =>
      cases hnodes : clusterNodes env url m.answer with
      | error e =>
        simp only [hclient, hurl, hnodes, Option.some.injEq] at h
        refine .inr ⟨?_, h.symm⟩
        rintro chain ⟨client', url', hc, hu, hn⟩
        rw [hclient] at hc
        cases hc
        rw [hurl] at hu
        cases hu
        rw [hnodes] at hn
        cases hn
      | ok chain =>
        simp only [hclient, hurl, hnodes, Option.some.injEq] at h
        exact .inl ⟨chain, ⟨client, url, hclient, hurl, hnodes⟩, h.symm⟩

/-- The body the topology is rendered to is kept exactly if the chain was found. -/
theorem render_cases {topology : ClusterTopology} {kept : Bool}
    (h : render env topology = (reply, kept)) :
    (reply.status = 500 ∧ kept = false) ∨
      ∃ body, env.toJson topology = .ok body ∧
        ((topology.clusterHealth = .unknown ∧ kept = false ∧
            reply = cachedJson body unknownCacheMaxAgeSecs 503) ∨
          (topology.clusterHealth ≠ .unknown ∧ kept = true ∧
            reply = cachedJson body cacheControlMaxAgeSecs 200)) := by
  unfold render at h
  cases hjson : env.toJson topology with
  | error e =>
    rw [hjson] at h
    cases h
    exact .inl ⟨rfl, rfl⟩
  | ok body =>
    rw [hjson] at h
    refine .inr ⟨body, rfl, ?_⟩
    by_cases hu : topology.clusterHealth = .unknown
    · simp only [hu, decide_true, if_true, Bool.not_true, Prod.mk.injEq] at h
      exact .inl ⟨hu, h.2.symm, h.1.symm⟩
    · simp only [hu, decide_false, Bool.false_eq_true, if_false, Bool.not_false, Prod.mk.injEq] at h
      exact .inr ⟨hu, h.2.symm, h.1.symm⟩

/-- The request found the chain to be so, and rendered it to the body at the instant `t`. -/
def Rendered (env : ClusterEnv) (q : ClusterRequest) (t : Nat) (body : String) : Prop :=
  ∃ m chain, q.phase = .computed t m ∧ Found env m chain ∧
    env.toJson (transform chain (nowUnixMs m)) = .ok body

theorem fetchAndTransform_found {chain : ChainClusterTopology} (h : Found env m chain) :
    fetchAndTransform env m = some (transform chain (nowUnixMs m)) := by
  obtain ⟨client, url, hclient, hurl, hnodes⟩ := h
  simp only [fetchAndTransform, hclient, hurl, hnodes]

/-- What one computation ends in. -/
theorem computeNodes_cases {kept : Bool} (h : computeNodes env m = some (reply, kept)) :
    (reply.status = 500 ∧ kept = false) ∨
      ((∀ chain, ¬ Found env m chain) ∧ kept = false ∧ ∃ body,
        env.toJson (unknownTopology (nowUnixMs m)) = .ok body ∧
          reply = cachedJson body unknownCacheMaxAgeSecs 503) ∨
      ∃ chain body, Found env m chain ∧ kept = true ∧
        env.toJson (transform chain (nowUnixMs m)) = .ok body ∧
          reply = cachedJson body cacheControlMaxAgeSecs 200 := by
  simp only [computeNodes, Option.map_eq_some_iff] at h
  obtain ⟨topology, htop, hrender⟩ := h
  rcases render_cases hrender with h500 | ⟨body, hjson, hbody⟩
  · exact .inl h500
  · rcases fetchAndTransform_cases htop with ⟨chain, hfound, rfl⟩ | ⟨hnone, rfl⟩
    · rcases hbody with ⟨hu, -⟩ | ⟨-, hkept, hreply⟩
      · exact absurd hu (clusterHealth_transform chain _)
      · exact .inr (.inr ⟨chain, body, hfound, hkept, hjson, hreply⟩)
    · rcases hbody with ⟨-, hkept, hreply⟩ | ⟨hu, -⟩
      · exact .inr (.inl ⟨hnone, hkept, body, hjson, hreply⟩)
      · exact absurd rfl hu

theorem keeps_iff {t : Nat} {body : String} :
    q.Keeps (clusterPolicy env) () t body ↔ Rendered env q t body := by
  constructor
  · rintro ⟨m, hphase, -, hkept⟩
    simp only [clusterPolicy, Option.bind_eq_some_iff] at hkept
    obtain ⟨⟨reply, kept⟩, hcompute, hbody⟩ := hkept
    rcases computeNodes_cases hcompute with ⟨-, rfl⟩ | ⟨-, rfl, -⟩ |
      ⟨chain, b, hfound, rfl, hjson, rfl⟩
    · cases hbody
    · cases hbody
    · cases hbody
      exact ⟨m, chain, hphase, hfound, hjson⟩
  · rintro ⟨m, chain, hphase, hfound, hjson⟩
    refine ⟨m, hphase, rfl, ?_⟩
    have hcompute : computeNodes env m =
        some (cachedJson body cacheControlMaxAgeSecs 200, true) := by
      have hhealth := clusterHealth_transform chain (nowUnixMs m)
      simp only [computeNodes, fetchAndTransform_found hfound, Option.map_some, render, hjson,
        hhealth, decide_false, Bool.false_eq_true, if_false, Bool.not_false]
    simp only [clusterPolicy, hcompute, Option.bind_some, if_true, cachedJson]

/-- A reply is told by one fetch. -/
structure Served (env : ClusterEnv) (pool : List ClusterRequest) (p : ClusterRequest)
    (reply : Reply) : Prop where
  status : reply.status = 200 ∨ reply.status = 503 ∨ reply.status = 500
  /-- The chain was found, by this request or by the latest one before it, not long ago. -/
  found : reply.status = 200 → reply.maxAgeSecs = some 5 ∧
    ∃ q ∈ pool, ∃ t, Rendered env q t reply.body ∧
      (q = p ∨ t ≤ p.arrived ∧ p.arrived < t + cacheTtl ∧
        ∀ q' ∈ pool, ∀ t' body', Rendered env q' t' body' → t' ≤ t ∨ p.arrived ≤ t')
  /-- The request itself did not find the chain. -/
  unknown : reply.status = 503 → reply.maxAgeSecs = some 10 ∧
    ∃ t m, p.phase = .computed t m ∧ (∀ chain, ¬ Found env m chain) ∧
      env.toJson (unknownTopology (nowUnixMs m)) = .ok reply.body
  /-- The chain is asked only when no body is fresh. -/
  spared : ∀ t m, p.phase = .computed t m → ∀ q ∈ pool, ∀ t' body', Rendered env q t' body' →
    t' + cacheTtl ≤ p.arrived ∨ p.arrived ≤ t'

theorem served_of_coherent {pool : List ClusterRequest}
    (h : Cache.Coherent (clusterPolicy env) pool) (hp : p ∈ pool)
    (hreply : endingOf env p = some (some reply)) : Served env pool p reply := by
  have hspared : ∀ t m, p.phase = .computed t m → ∀ q ∈ pool, ∀ t' body',
      Rendered env q t' body' → t' + cacheTtl ≤ p.arrived ∨ p.arrived ≤ t' := by
    intro t m hphase q hq t' body' hr
    have hnohit : ∀ b, p.phase ≠ .hit b := by
      rw [hphase]
      nofun
    exact h.miss p hp hnohit q hq () t' body' rfl (keeps_iff.2 hr)
  cases hphase : p.phase with
  | computing =>
    simp only [endingOf, Cache.Request.answer, hphase, ending] at hreply
    cases hreply
  | hit body =>
    simp only [endingOf, Cache.Request.answer, hphase, ending, Option.some.injEq] at hreply
    subst hreply
    obtain ⟨_, t, ha⟩ := h.hit p hp body hphase
    obtain ⟨q, hq, hkept⟩ := ha.kept
    refine ⟨.inl rfl, fun _ => ⟨rfl, q, hq, t, keeps_iff.1 hkept, .inr ⟨ha.before, ha.fresh, ?_⟩⟩,
      (fun h503 => by cases h503), hspared⟩
    intro q' hq' t' body' hr
    exact ha.latest q' hq' t' body' (keeps_iff.2 hr)
  | computed t m =>
    simp only [endingOf, Cache.Request.answer, hphase, ending, Option.some.injEq,
      Option.map_eq_some_iff, Prod.exists, exists_and_right, exists_eq_right] at hreply
    obtain ⟨kept, hcompute⟩ := hreply
    rcases computeNodes_cases hcompute with ⟨h500, -⟩ | ⟨hnone, -, body, hjson, rfl⟩ |
      ⟨chain, body, hfound, -, hjson, rfl⟩
    · refine ⟨.inr (.inr h500), fun h200 => ?_, fun h503 => ?_, hspared⟩
      · rw [h500] at h200
        cases h200
      · rw [h500] at h503
        cases h503
    · exact ⟨.inr (.inl rfl), (fun h200 => by cases h200),
        fun _ => ⟨rfl, t, m, hphase, hnone, hjson⟩, hspared⟩
    · exact ⟨.inl rfl, fun _ => ⟨rfl, p, hp, t, ⟨m, chain, hphase, hfound, hjson⟩, .inl rfl⟩,
        (fun h503 => by cases h503), hspared⟩

/-! ## Addresses -/

/-- What of a topology is public. -/
def publicOf (chain : ChainClusterTopology) : List ClusterNode × Option String × Option Int64 :=
  (chain.nodes.map ChainClusterNode.strip, chain.leaderNodeId, chain.leaderAcquiredAtEpochMs)

theorem transform_congr {chain chain' : ChainClusterTopology} {now : Int64}
    (h : publicOf chain = publicOf chain') : transform chain now = transform chain' now := by
  simp only [publicOf, Prod.mk.injEq] at h
  obtain ⟨hnodes, hleader, hacquired⟩ := h
  simp only [transform, hnodes, hleader, hacquired]

/-- A rewriting of the chain's bodies that leaves what is public of them. -/
def AddressesOnly (env : ClusterEnv) (f : String → String) : Prop :=
  ∀ body, (env.fromSlice (f body)).toOption.map publicOf =
    (env.fromSlice body).toOption.map publicOf

def HttpAnswer.rewrite (f : String → String) : HttpAnswer → HttpAnswer
  | .unreachable => .unreachable
  | .response status body => .response status (f body)

def ClusterMoment.rewrite (f : String → String) (m : ClusterMoment) : ClusterMoment :=
  { m with answer := m.answer.rewrite f }

theorem clusterNodes_rewrite {f : String → String} (hf : AddressesOnly env f) (url : String)
    (answer : HttpAnswer) : (clusterNodes env url (answer.rewrite f)).toOption.map publicOf =
      (clusterNodes env url answer).toOption.map publicOf := by
  cases answer with
  | unreachable => rfl
  | response status body =>
    have hbody := hf body
    simp only [clusterNodes, HttpAnswer.rewrite]
    split
    · cases h : env.fromSlice body <;> cases h' : env.fromSlice (f body) <;>
        simp_all [Except.toOption, Except.mapError]
    · rfl

theorem computeNodes_rewrite {f : String → String} (hf : AddressesOnly env f) (m : ClusterMoment) :
    computeNodes env (m.rewrite f) = computeNodes env m := by
  have hfetch : fetchAndTransform env (m.rewrite f) = fetchAndTransform env m := by
    have hnow : nowUnixMs (m.rewrite f) = nowUnixMs m := rfl
    simp only [fetchAndTransform, hnow]
    split
    · rfl
    · split
      · rfl
      · rename_i url _
        have hpublic := clusterNodes_rewrite hf url m.answer
        simp only [ClusterMoment.rewrite]
        cases hn : clusterNodes env url m.answer with
        | error e =>
          cases hn' : clusterNodes env url (m.answer.rewrite f) with
          | error e' => rfl
          | ok chain' =>
            rw [hn, hn'] at hpublic
            cases hpublic
        | ok chain =>
          cases hn' : clusterNodes env url (m.answer.rewrite f) with
          | error e' =>
            rw [hn, hn'] at hpublic
            cases hpublic
          | ok chain' =>
            rw [hn, hn'] at hpublic
            simp only [transform_congr (Option.some.inj hpublic)]
  rw [computeNodes, hfetch, computeNodes]

/-- **The topology is served as it was found**, and no address shows. -/
theorem nodes_served (hrun : exec (clusterStep env) idleCluster es = some s) :
    (∀ p ∈ s.pool, ∀ reply, endingOf env p = some (some reply) → Served env s.pool p reply) ∧
      ∀ f, AddressesOnly env f → ∃ s',
        exec (clusterStep env) idleCluster (es.map (Cache.Event.mapWorld (.rewrite f))) = some s' ∧
          s'.pool.map (endingOf env) = s.pool.map (endingOf env) := by
  refine ⟨fun p hp reply hreply => ?_, fun f hf => ?_⟩
  · exact served_of_coherent (Cache.coherent_run (fun _ => rfl) hrun) hp hreply
  · obtain ⟨hrun', hsame⟩ := Cache.exec_mapWorld
      (fun _ m => computeNodes_rewrite hf m) hrun
    have hending : endingOf env = ending ∘ Cache.Request.answer (clusterPolicy env) := rfl
    exact ⟨_, hrun', by rw [hending, ← List.map_map, ← List.map_map, hsame]⟩

/-- Two nodes under private addresses. -/
def pairTopology (subnet : String) : ChainClusterTopology where
  nodes := [⟨"sequencer-1", subnet ++ ".1:12346", true, 40⟩,
    ⟨"sequencer-2", subnet ++ ".2:12346", false, 2500⟩]
  leaderNodeId := some "sequencer-1"
  leaderAcquiredAtEpochMs := some 1767225600000
  generatedAtEpochMs := 1767225600100

/-- The chain's body is the subnet, the public one the names of the nodes. -/
def pairEnv : ClusterEnv where
  urlApi := { parse := .ok, join := fun base path => .ok (base ++ path) }
  chainRpc := "http://10.0.0.9:12346"
  fromSlice subnet := .ok (pairTopology subnet)
  toJson topology := .ok (String.join (topology.nodes.map ClusterNode.nodeId))
  canonicalReason status := if status = 200 then some "OK" else none

/-- A second request finds what the first has put, a third comes too late and finds nobody. -/
def pairRun : List (Cache.Event Unit ClusterMoment) :=
  [.arrive () 0, .finish 0 1 ⟨some 1767225600200, .response 200 "10.0.0"⟩, .arrive () 2,
    .arrive () 5000000001, .finish 2 5000000002 ⟨some 1767225605200, .unreachable⟩]

theorem nodes_served_pair : ∃ s, exec (clusterStep pairEnv) idleCluster pairRun = some s ∧
    s.pool.map (endingOf pairEnv) =
      [some (some ⟨200, some 5, "sequencer-1sequencer-2"⟩),
        some (some ⟨200, some 5, "sequencer-1sequencer-2"⟩), some (some ⟨503, some 10, ""⟩)] ∧
    (∀ p ∈ s.pool, ∀ reply, endingOf pairEnv p = some (some reply) →
      Served pairEnv s.pool p reply) ∧
    ∃ s', exec (clusterStep pairEnv) idleCluster
        (pairRun.map (Cache.Event.mapWorld (.rewrite fun _ => "192.168.7"))) = some s' ∧
      s'.pool.map (endingOf pairEnv) = s.pool.map (endingOf pairEnv) := by
  obtain ⟨s, hrun, hreplies⟩ : ∃ s, exec (clusterStep pairEnv) idleCluster pairRun = some s ∧
      s.pool.map (endingOf pairEnv) =
        [some (some ⟨200, some 5, "sequencer-1sequencer-2"⟩),
          some (some ⟨200, some 5, "sequencer-1sequencer-2"⟩), some (some ⟨503, some 10, ""⟩)] :=
    ⟨_, rfl, by decide⟩
  obtain ⟨hserved, hhidden⟩ := nodes_served hrun
  exact ⟨s, hrun, hreplies, hserved, hhidden (fun _ => "192.168.7") fun _ => rfl⟩

end LigateApi.Api.Cluster
