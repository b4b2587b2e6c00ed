import LigateApi.Api.Verify.StatsCache
import LigateApi.Lib.Cache
import Std.Data.String.ToNat

/-!
# What the statistics are answered with

The handlers under `/v1/stats` run beside each other, and between the look-up of one and what it
puts lie others. Each is a `Job`: a key, a time to live and a computation; jobs of one key are the
same (`job_of_key`), whatever the windows and the faucet are called. So over every interleaving a
body is what the request's own endpoint computed, for its own parameters: in this request, or in the
latest one that put it before this one arrived, less than the time to live ago. And a request only
computes when there is no such body (`served_was_computed`).
-/

namespace LigateApi.Api.Stats

open Lib Lib.Run Queries

/-! ## Jobs -/

/-- What a handler looks up, and computes on a miss. -/
structure Job where
  key : String
  ttl : Nat
  maxAgeSecs : UInt32
  compute : Moment → Computed String

def clampedJob (name : String) (default cap : UInt32)
    (compute : Moment → UInt32 → Computed String) (n : Option UInt32) : Job :=
  let n := min (n.getD default) cap
  { key := numberKey name n, ttl := defaultTtl, maxAgeSecs := ttlStatsDefaultSecs,
    compute := fun m => compute m n }

/-- The job of a request, or the text it is refused with. -/
def job (env : StatsEnv) : StatsRequest → Except String Job
  | .totals => .ok {
      key := "totals", ttl := defaultTtl, maxAgeSecs := ttlStatsTotalsSecs,
      compute := fun m => m.computations.totals }
  | .finality => .ok {
      key := "finality", ttl := defaultTtl, maxAgeSecs := ttlStatsDefaultSecs,
      compute := fun m =>
        match m.computations.observedFinality with
        | .ok body => .ok body
        | .err _ => .ok m.computations.estimatedFinality
        | .panicked message => .panicked message }
  | .nextBlockEta => .ok {
      key := "next-block-eta", ttl := nextBlockEtaTtl, maxAgeSecs := ttlStatsNextBlockEtaSecs,
      compute := fun m => m.computations.nextBlockEta }
  | .activeAddresses window =>
    let window := window.getD "24h"
    (parseInterval window).map fun interval => {
      key := activeAddressesKey window, ttl := defaultTtl, maxAgeSecs := ttlStatsDefaultSecs,
      compute := fun m =>
        (computeActiveAddresses env.rfc3339 m.pg window interval m.utcNow).map env.toJson }
  | .newWalletsDaily days =>
    .ok (clampedJob "new-wallets-daily" 7 90 (fun m => m.computations.newWalletsDaily) days)
  | .attestationsDaily days =>
    .ok (clampedJob "attestations-daily" 30 90 (fun m => m.computations.attestationsDaily) days)
  | .txRateDaily days =>
    .ok (clampedJob "tx-rate-daily" 7 90 (fun m => m.computations.txRateDaily) days)
  | .dripsDaily days =>
    .ok (clampedJob ("drips-daily:" ++ env.faucetAddress) 30 90
      (fun m days => m.computations.dripsDaily days env.faucetAddress) days)
  | .topHolders n => .ok (clampedJob "top-holders" 10 100 (fun m => m.computations.topHolders) n)
  | .topAttesters n =>
    .ok (clampedJob "top-attesters" 10 100 (fun m => m.computations.topAttesters) n)
  | .topSchemaOwners n =>
    .ok (clampedJob "top-schema-owners" 10 100 (fun m => m.computations.topSchemaOwners) n)
  | .topAttestorSets n =>
    .ok (clampedJob "top-attestor-sets" 10 100 (fun m => m.computations.topAttestorSets) n)

variable {env : StatsEnv} {r r' : StatsRequest} {j j' : Job}

/-- A handler serves its job. -/
theorem handle_eq (m : Moment) (cache : StatsCache) :
    handle env r m cache =
      match job env r with
      | .ok j => serve j.key j.ttl j.maxAgeSecs m (j.compute m) cache
      | .error message => (errorResponse message, cache) := by
  cases r with
  | activeAddresses window =>
    simp only [handle, activeAddresses, job]
    cases parseInterval (window.getD "24h") <;> rfl
  | _ => rfl

/-! ## Keys -/

/-- The part of a key before the first colon. -/
def endpointOf (key : String) : List Char := key.toList.takeWhile (· ≠ ':')

theorem endpointOf_append {name rest : String} (h : ':' ∉ name.toList) :
    endpointOf (name ++ ":" ++ rest) = name.toList := by
  simp only [endpointOf, String.toList_append]
  have hcolon : (":" : String).toList = [':'] := rfl
  rw [hcolon, List.append_assoc, List.takeWhile_append_of_pos]
  · simp
  · intro c hc
    simp only [ne_eq, decide_eq_true_eq]
    rintro rfl
    exact h hc

theorem numberKey_inj {name : String} {n n' : UInt32} (h : numberKey name n = numberKey name n') :
    n = n' := by
  have hlist := congrArg String.toList h
  simp only [numberKey, String.toList_append, List.append_assoc, List.append_cancel_left_eq]
    at hlist
  have hrepr : Nat.repr n.toNat = Nat.repr n'.toNat := String.toList_inj.1 hlist
  exact UInt32.toNat_inj.1 (Nat.repr_inj.1 hrepr)

theorem clampedJob_of_key {name : String} {default cap : UInt32}
    {compute : Moment → UInt32 → Computed String} {n n' : Option UInt32}
    (h : (clampedJob name default cap compute n).key = (clampedJob name default cap compute n').key) :
    clampedJob name default cap compute n = clampedJob name default cap compute n' := by
  unfold clampedJob
  simp only
  rw [numberKey_inj h]

/-- The path of the endpoint. -/
def StatsRequest.endpoint : StatsRequest → String
  | .totals => "totals"
  | .finality => "finality"
  | .nextBlockEta => "next-block-eta"
  | .activeAddresses _ => "active-addresses"
  | .newWalletsDaily _ => "new-wallets-daily"
  | .attestationsDaily _ => "attestations-daily"
  | .txRateDaily _ => "tx-rate-daily"
  | .dripsDaily _ => "drips-daily"
  | .topHolders _ => "top-holders"
  | .topAttesters _ => "top-attesters"
  | .topSchemaOwners _ => "top-schema-owners"
  | .topAttestorSets _ => "top-attestor-sets"

/-- The key of a job tells its endpoint. -/
theorem endpointOf_key (h : job env r = .ok j) : endpointOf j.key = r.endpoint.toList := by
  have hclamped : ∀ {name : String} {default cap : UInt32}
      {compute : Moment → UInt32 → Computed String} {n : Option UInt32}, ':' ∉ name.toList →
      endpointOf (clampedJob name default cap compute n).key = name.toList :=
    fun hname => endpointOf_append hname
  cases r with
  | totals | finality | nextBlockEta =>
    cases h
    decide
  | activeAddresses window =>
    simp only [job] at h
    cases hparse : parseInterval (window.getD "24h") with
    | error message =>
      rw [hparse] at h
      cases h
    | ok interval =>
      rw [hparse] at h
      cases h
      have hkey : activeAddressesKey (window.getD "24h") =
          "active-addresses" ++ ":" ++ window.getD "24h" := rfl
      exact (congrArg endpointOf hkey).trans (endpointOf_append (by decide))
  | dripsDaily days =>
    cases h
    have hkey : ∀ n : UInt32, numberKey ("drips-daily:" ++ env.faucetAddress) n =
        "drips-daily" ++ ":" ++ (env.faucetAddress ++ ":" ++ toString n.toNat) := by
      intro n
      have hname : ("drips-daily:" : String) = "drips-daily" ++ ":" := by decide
      rw [numberKey, hname, String.append_assoc, String.append_assoc, String.append_assoc,
        String.append_assoc, String.append_assoc]
    exact (congrArg endpointOf (hkey _)).trans (endpointOf_append (by decide))
  | newWalletsDaily n | attestationsDaily n | txRateDaily n | topHolders n | topAttesters n
  | topSchemaOwners n | topAttestorSets n =>
    cases h
    exact hclamped (by decide)

/-- **One key, one job.** -/
theorem job_of_key (h : job env r = .ok j) (h' : job env r' = .ok j') (hkey : j.key = j'.key) :
    j = j' := by
  have hname : r.endpoint = r'.endpoint := by
    rw [← String.toList_inj, ← endpointOf_key h, ← endpointOf_key h', hkey]
  have hclamped : ∀ {name : String} {default cap : UInt32}
      {compute : Moment → UInt32 → Computed String} {n n' : Option UInt32},
      clampedJob name default cap compute n = j → clampedJob name default cap compute n' = j' →
      j = j' := by
    rintro name default cap compute n n' rfl rfl
    exact clampedJob_of_key hkey
  -- of 144 pairs the twelve of one endpoint are left
  cases r <;> cases r' <;> try (simp [StatsRequest.endpoint] at hname; done)
  case totals.totals | finality.finality | nextBlockEta.nextBlockEta =>
    exact Except.ok.inj (h.symm.trans h')
  case activeAddresses.activeAddresses window window' =>
    have hwindow : ∀ {w : Option String} {j : Job}, job env (.activeAddresses w) = .ok j →
        j.key = activeAddressesKey (w.getD "24h") := by
      intro w j hj
      simp only [job] at hj
      cases hparse : parseInterval (w.getD "24h") with
      | error message =>
        rw [hparse] at hj
        cases hj
      | ok interval =>
        rw [hparse] at hj
        cases hj
        rfl
    have hsame : window.getD "24h" = window'.getD "24h" := by
      have hlist := congrArg String.toList ((hwindow h).symm.trans (hkey.trans (hwindow h')))
      simp only [activeAddressesKey, String.toList_append, List.append_cancel_left_eq] at hlist
      exact String.toList_inj.1 hlist
    simp only [job, hsame] at h h'
    exact Except.ok.inj (h.symm.trans h')
  all_goals exact hclamped (Except.ok.inj h) (Except.ok.inj h')

/-! ## Handlers beside each other -/

/-- `StatsCache`, with the age of an entry left to who looks it up. -/
def statsStore : Cache.Store StatsCache String String where
  get cache key :=
    (Table.lookup CacheEntry.key key cache.inner).map fun entry => (entry.putAt, entry.body)
  put := StatsCache.put
  get_put_self cache now key body := by
    simp only [StatsCache.put, Table.lookup_put, if_true, Option.map_some]
  get_put_of_ne cache now key body key' hne := by
    simp only [StatsCache.put, Table.lookup_put, if_neg hne.symm]

/-- A refused request is not looked up; only what succeeds is put. -/
def statsPolicy (env : StatsEnv) :
    Cache.Policy StatsRequest String Moment (Computed String) String where
  key r := (job env r).toOption.map Job.key
  ttl r := ((job env r).toOption.map Job.ttl).getD 0
  compute r m :=
    match job env r with
    | .ok j => j.compute m
    | .error message => .err message
  kept
    | .ok body => some body
    | .err _ | .panicked _ => none

def replyOf (maxAgeSecs : UInt32) : Computed String → Reply
  | .ok body => .ok body maxAgeSecs
  | .err message => errorResponse message
  | .panicked _ => .panicked

/-- The reply to a request, once there is one. -/
def replyTo (env : StatsEnv) (p : Cache.Request StatsRequest Moment String) : Option Reply :=
  (p.answer (statsPolicy env)).map fun answer =>
    replyOf (((job env p.ask).toOption.map Job.maxAgeSecs).getD 0) <|
      match answer with
      | .inl body => .ok body
      | .inr computed => computed

/-- The handlers' steps: the look-up, and the computation with what is put after it. -/
def sharedStep (env : StatsEnv) :=
  Cache.step statsStore (statsPolicy env)

/-- Nothing has been put yet, and no request has arrived. -/
def idleStats : Cache.State StatsCache StatsRequest Moment String := ⟨0, .new, []⟩

variable {s : Cache.State StatsCache StatsRequest Moment String}
  {es : List (Cache.Event StatsRequest Moment)} {p q : Cache.Request StatsRequest Moment String}
  {body : String} {maxAgeSecs : UInt32} {m : Moment}

theorem policy_key (hj : job env r = .ok j) : (statsPolicy env).key r = some j.key := by
  simp only [statsPolicy, hj, Except.toOption, Option.map_some]

theorem policy_ttl (hj : job env r = .ok j) : (statsPolicy env).ttl r = j.ttl := by
  simp only [statsPolicy, hj, Except.toOption, Option.map_some, Option.getD_some]

theorem fresh_of_job (hj : job env r = .ok j) (cache : StatsCache) (now : Nat) :
    Cache.fresh statsStore (statsPolicy env) cache r now = cache.getFresh now j.key j.ttl := by
  simp only [Cache.fresh, statsPolicy, hj, Except.toOption, Option.map_some, Option.bind_some,
    statsStore, StatsCache.getFresh, Option.getD_some, Option.bind_map]
  rfl

theorem keep_of_job (hj : job env r = .ok j) (cache : StatsCache) (now : Nat) :
    Cache.keep statsStore (statsPolicy env) cache r now m =
      match j.compute m with
      | .ok body => cache.put now j.key body
      | .err _ | .panicked _ => cache := by
  simp only [Cache.keep, statsPolicy, hj, Except.toOption, Option.map_some, statsStore]
  cases j.compute m <;> rfl

/-- A handler that nothing interrupts is a run of the two steps. -/
theorem handle_run (harr : s.clock ≤ m.arrived) (hcomp : m.arrived ≤ m.computed) :
    ∃ es s' p, exec (sharedStep env) s es = some s' ∧
      s'.store = (handle env r m s.store).2 ∧ s'.pool = s.pool ++ [p] ∧ p.ask = r ∧
      replyTo env p = some (handle env r m s.store).1 := by
  obtain ⟨es, s', p, hrun, hstore, hpool, rfl, hanswer⟩ :
      ∃ es s' p, exec (sharedStep env) s es = some s' ∧
        s'.store = (Cache.serve statsStore (statsPolicy env) s.store r m.arrived m.computed m).2 ∧
        s'.pool = s.pool ++ [p] ∧ p.ask = r ∧ p.answer (statsPolicy env) =
          some (Cache.serve statsStore (statsPolicy env) s.store r m.arrived m.computed m).1 :=
    Cache.serve_run r m harr hcomp
  refine ⟨es, s', p, hrun, ?_, hpool, rfl, ?_⟩
  · rw [hstore, handle_eq, Cache.serve]
    cases hj : job env p.ask with
    | error message => simp [Cache.fresh, Cache.keep, statsPolicy, hj, Except.toOption]
    | ok j =>
      rw [fresh_of_job hj, keep_of_job hj]
      simp only [serve]
      cases s.store.getFresh m.arrived j.key j.ttl with
      | some body => rfl
      | none => cases j.compute m <;> rfl
  · rw [replyTo, hanswer, handle_eq, Cache.serve]
    cases hj : job env p.ask with
    | error message =>
      simp [Cache.fresh, statsPolicy, hj, Except.toOption, replyOf]
    | ok j =>
      rw [fresh_of_job hj]
      simp only [serve, Except.toOption, Option.map_some, Option.getD_some]
      cases s.store.getFresh m.arrived j.key j.ttl with
      | some body => rfl
      | none =>
        simp only [statsPolicy, hj]
        cases j.compute m <;> rfl

/-- The request computed the job at the instant `t`, and it succeeded. -/
def Succeeded (env : StatsEnv) (j : Job) (q : Cache.Request StatsRequest Moment String) (t : Nat)
    (body : String) : Prop :=
  ∃ m, job env q.ask = .ok j ∧ q.phase = .computed t m ∧ j.compute m = .ok body

theorem keeps_iff {key : String} {t : Nat} : q.Keeps (statsPolicy env) key t body ↔
    ∃ j, Succeeded env j q t body ∧ j.key = key := by
  cases hj : job env q.ask with
  | error message =>
    simp [Cache.Request.Keeps, statsPolicy, Succeeded, hj, Except.toOption]
  | ok j =>
    have hkept : ∀ m, (statsPolicy env).kept ((statsPolicy env).compute q.ask m) = some body ↔
        j.compute m = .ok body := by
      intro m
      simp only [statsPolicy, hj]
      cases j.compute m <;> simp
    simp only [Cache.Request.Keeps, Succeeded, hj, hkept, policy_key hj, Option.some.injEq,
      Except.ok.injEq]
    constructor
    · rintro ⟨m, hm, hk, hb⟩
      exact ⟨j, ⟨m, rfl, hm, hb⟩, hk⟩
    · rintro ⟨_, ⟨m, rfl, hm, hb⟩, hk⟩
      exact ⟨m, hm, hk, hb⟩

/-- Where the body of a reply comes from: the request computed it, or took the latest one of its own
job, which is younger than the time to live. -/
def Origin (env : StatsEnv) (pool : List (Cache.Request StatsRequest Moment String)) (j : Job)
    (p : Cache.Request StatsRequest Moment String) (body : String) : Prop :=
  (∃ t, Succeeded env j p t body ∧ p.arrived ≤ t) ∨
  p.phase = .hit body ∧ ∃ q ∈ pool, ∃ t, Succeeded env j q t body ∧
    t ≤ p.arrived ∧ p.arrived < t + j.ttl ∧
    ∀ q' ∈ pool, ∀ t' body', Succeeded env j q' t' body' → t' ≤ t ∨ p.arrived ≤ t'

/-- What holds of a request among the others. -/
structure Served (env : StatsEnv) (pool : List (Cache.Request StatsRequest Moment String))
    (p : Cache.Request StatsRequest Moment String) : Prop where
  origin : ∀ body maxAgeSecs, replyTo env p = some (.ok body maxAgeSecs) →
    ∃ j, job env p.ask = .ok j ∧ maxAgeSecs = j.maxAgeSecs ∧ Origin env pool j p body
  /-- It computes, whatever comes of it, only when every body of its job is too old. -/
  spared : ∀ j, job env p.ask = .ok j → (∀ body, p.phase ≠ .hit body) →
    ∀ q ∈ pool, ∀ t body, Succeeded env j q t body → t + j.ttl ≤ p.arrived ∨ p.arrived ≤ t

/-- A body out of the cache is the latest of its own job. -/
theorem hit_origin {pool : List (Cache.Request StatsRequest Moment String)}
    (h : Cache.Coherent (statsPolicy env) pool) (hp : p ∈ pool) (hphase : p.phase = .hit body) :
    ∃ j, job env p.ask = .ok j ∧ Origin env pool j p body := by
  obtain ⟨key, t, ha⟩ := h.hit p hp body hphase
  obtain ⟨q, hq, hkept⟩ := ha.kept
  obtain ⟨j', hsucc, rfl⟩ := keeps_iff.1 hkept
  cases hj : job env p.ask with
  | error message =>
    have hkey := ha.key
    simp only [statsPolicy, hj, Except.toOption, Option.map_none] at hkey
    cases hkey
  | ok j =>
    have hkey : j.key = j'.key := Option.some.inj ((policy_key hj).symm.trans ha.key)
    obtain ⟨_, hjq, -⟩ := id hsucc
    -- the keys of two endpoints differ, so the entry was put by the same job
    obtain rfl : j = j' := job_of_key hj hjq hkey
    have hfresh : p.arrived < t + j.ttl := policy_ttl hj ▸ ha.fresh
    refine ⟨j, rfl, .inr ⟨hphase, q, hq, t, hsucc, ha.before, hfresh, ?_⟩⟩
    intro q' hq' t' body' hsucc'
    exact ha.latest q' hq' t' body' (keeps_iff.2 ⟨j, hsucc', rfl⟩)

/-- A request that computes found nothing to take. -/
theorem spared_of_miss {pool : List (Cache.Request StatsRequest Moment String)} {t : Nat}
    (h : Cache.Coherent (statsPolicy env) pool) (hp : p ∈ pool) (hj : job env p.ask = .ok j)
    (hmiss : ∀ b, p.phase ≠ .hit b) (hq : q ∈ pool) (hsucc : Succeeded env j q t body) :
    t + j.ttl ≤ p.arrived ∨ p.arrived ≤ t := by
  have hold := h.miss p hp hmiss q hq j.key t body (policy_key hj) (keeps_iff.2 ⟨j, hsucc, rfl⟩)
  rwa [policy_ttl hj] at hold

theorem replyOf_ok {computed : Computed String} {age : UInt32}
    (h : replyOf age computed = .ok body maxAgeSecs) : computed = .ok body ∧ maxAgeSecs = age := by
  cases computed with
  | ok b =>
    cases h
    exact ⟨rfl, rfl⟩
  | err message => cases h
  | panicked message => cases h

/-- A body that was served came out of the cache, or the request computed it. -/
theorem origin_of_reply {pool : List (Cache.Request StatsRequest Moment String)}
    (h : Cache.Coherent (statsPolicy env) pool) (hp : p ∈ pool)
    (hreply : replyTo env p = some (.ok body maxAgeSecs)) :
    ∃ j, job env p.ask = .ok j ∧ maxAgeSecs = j.maxAgeSecs ∧ Origin env pool j p body := by
  simp only [replyTo, Option.map_eq_some_iff] at hreply
  obtain ⟨answer, hanswer, hreply⟩ := hreply
  cases hphase : p.phase with
  | computing =>
    simp only [Cache.Request.answer, hphase] at hanswer
    cases hanswer
  | hit b =>
    simp only [Cache.Request.answer, hphase, Option.some.injEq] at hanswer
    subst hanswer
    obtain ⟨hbody, hage⟩ := replyOf_ok hreply
    cases hbody
    obtain ⟨j, hj, horigin⟩ := hit_origin h hp hphase
    rw [hj] at hage
    exact ⟨j, hj, hage, horigin⟩
  | computed t m =>
    simp only [Cache.Request.answer, hphase, Option.some.injEq] at hanswer
    subst hanswer
    obtain ⟨hbody, hage⟩ := replyOf_ok hreply
    cases hj : job env p.ask with
    | error message =>
      simp only [statsPolicy, hj] at hbody
      cases hbody
    | ok j =>
      rw [hj] at hage
      simp only [statsPolicy, hj] at hbody
      exact ⟨j, rfl, hage, .inl ⟨t, ⟨m, hj, hphase, hbody⟩, h.ordered p hp t m hphase⟩⟩

/-- **The cache is coherent.** -/
theorem served_was_computed (hrun : exec (sharedStep env) idleStats es = some s)
    (hp : p ∈ s.pool) : Served env s.pool p := by
  have hcoherent : Cache.Coherent (statsPolicy env) s.pool :=
    Cache.coherent_run (fun key => rfl) hrun
  constructor
  · intro body maxAgeSecs hreply
    exact origin_of_reply hcoherent hp hreply
  · intro j hj hmiss q hq t body hsucc
    exact spared_of_miss hcoherent hp hj hmiss hq hsucc

/-- A moment at which the holders are rendered so. -/
def holdersMoment (body : String) : Moment :=
  let m := openMoment 0
  { m with computations := { m.computations with topHolders := fun _ => .ok body } }

/-- Two requests for ten holders compute side by side, under different spellings; a third finds
what the one that ended last has put. -/
def holdersRun : List (Cache.Event StatsRequest Moment) :=
  [.arrive (.topHolders none) 0, .arrive (.topHolders (some 10)) 1,
    .finish 1 2 (holdersMoment "early"), .finish 0 3 (holdersMoment "late"),
    .arrive (.topHolders (some 10)) 4]

theorem served_was_computed_beside : ∃ s p,
    exec (sharedStep plainStatsEnv) idleStats holdersRun = some s ∧ s.pool[2]? = some p ∧
      ∃ j, job plainStatsEnv p.ask = .ok j ∧ (30 : UInt32) = j.maxAgeSecs ∧
        Origin plainStatsEnv s.pool j p "late" := by
  obtain ⟨s, p, hrun, hp, hreply⟩ : ∃ s p,
      exec (sharedStep plainStatsEnv) idleStats holdersRun = some s ∧ s.pool[2]? = some p ∧
        replyTo plainStatsEnv p = some (.ok "late" 30) := ⟨_, _, rfl, rfl, by decide⟩
  have hserved := served_was_computed hrun (List.mem_of_getElem? hp)
  exact ⟨s, p, hrun, hp, hserved.origin _ _ hreply⟩

end LigateApi.Api.Stats
