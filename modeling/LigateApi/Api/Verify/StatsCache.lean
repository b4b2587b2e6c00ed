import LigateApi.Api.StatsCache
import LigateApi.Lib.Run
import Mathlib.Data.Set.Card

/-!
# The window of active addresses

The caller's window decides two things. Seconds that `parse_interval` and `Duration::from_std` accept
may still reach back before the first instant of the calendar, and then the handler panics. And the
window is a cache key as it was spelled: the other endpoints have 771 keys between them
(`boundedKeys`), so the cache stays bounded exactly if the windows that can be answered are finitely
many (`answerable`).
-/

namespace LigateApi.Api.Stats

open Lib Lib.Run Queries

/-! ## One request -/

section Request

variable {rfc3339 : Int → String} {pg : PgPool} {window : String} {n : Nat} {now : Int}

/-- How the computation ends: the ranges of `Duration`, of the calendar and of `TIMESTAMPTZ` are met
in this order. -/
theorem computeActiveAddresses_cases :
    (n * 1000 < 2 ^ 63 ∧ timestamptzMin ≤ now - n * 1000000 ∧ (∃ db, pg = .ok db) ∧
        ∃ payload, computeActiveAddresses rfc3339 pg window n now = .ok payload) ∨
      (n * 1000 < 2 ^ 63 ∧ now - n * 1000000 < chronoMin ∧
        ∃ message, computeActiveAddresses rfc3339 pg window n now = .panicked message) ∨
      (n * 1000 < 2 ^ 63 → chronoMin ≤ now - n * 1000000 ∧
          (now - n * 1000000 < timestamptzMin ∨ ¬ ∃ db, pg = .ok db)) ∧
        ∃ message, computeActiveAddresses rfc3339 pg window n now = .err message := by
  unfold computeActiveAddresses
  by_cases hlong : 2 ^ 63 ≤ n * 1000
  · rw [if_pos hlong]
    exact .inr (.inr ⟨fun hfits => by omega, _, rfl⟩)
  rw [if_neg hlong]
  by_cases hearly : now - n * 1000000 < chronoMin
  · rw [if_pos hearly]
    exact .inr (.inl ⟨by omega, hearly, _, rfl⟩)
  rw [if_neg hearly]
  by_cases hbefore : now - n * 1000000 < timestamptzMin
  · rw [if_pos hbefore]
    exact .inr (.inr ⟨fun _ => ⟨by omega, .inl hbefore⟩, _, rfl⟩)
  rw [if_neg hbefore]
  cases pg with
  | ok db => exact .inl ⟨by omega, by omega, ⟨db, rfl⟩, _, rfl⟩
  | error e =>
    have hdown : ¬ ∃ db, (Except.error e : PgPool) = .ok db := by simp
    exact .inr (.inr ⟨fun _ => ⟨by omega, .inr hdown⟩, _, rfl⟩)

theorem computeActiveAddresses_panicked :
    (∃ message, computeActiveAddresses rfc3339 pg window n now = .panicked message) ↔
      n * 1000 < 2 ^ 63 ∧ now - n * 1000000 < chronoMin := by
  have hrange : chronoMin < timestamptzMin := by decide
  rcases @computeActiveAddresses_cases rfc3339 pg window n now with
    ⟨-, hlate, -, payload, h⟩ | ⟨hfits, hearly, h⟩ | ⟨hranges, message, h⟩
  · rw [h]
    exact iff_of_false (by simp) (by omega)
  · exact iff_of_true h ⟨hfits, hearly⟩
  · rw [h]
    refine iff_of_false (by simp) ?_
    intro hpanics
    have hlate := (hranges hpanics.1).1
    omega

theorem computeActiveAddresses_ok :
    (∃ payload, computeActiveAddresses rfc3339 pg window n now = .ok payload) ↔
      (n * 1000 < 2 ^ 63 ∧ timestamptzMin ≤ now - n * 1000000) ∧ ∃ db, pg = .ok db := by
  have hrange : chronoMin < timestamptzMin := by decide
  rcases @computeActiveAddresses_cases rfc3339 pg window n now with
    ⟨hfits, hlate, hdb, h⟩ | ⟨-, hearly, message, h⟩ | ⟨hranges, message, h⟩
  · exact iff_of_true h ⟨⟨hfits, hlate⟩, hdb⟩
  · rw [h]
    exact iff_of_false (by simp) (by omega)
  · rw [h]
    refine iff_of_false (by simp) ?_
    intro hok
    rcases (hranges hok.1.1).2 with hbefore | hdown
    · omega
    · exact hdown hok.2

variable {key : String} {ttl : Nat} {maxAgeSecs : UInt32} {m : Moment} {compute : Computed String}
  {cache : StatsCache}

theorem serve_panicked : (serve key ttl maxAgeSecs m compute cache).1 = .panicked ↔
    cache.getFresh m.arrived key ttl = none ∧ ∃ message, compute = .panicked message := by
  unfold serve errorResponse
  cases cache.getFresh m.arrived key ttl with
  | some cached => simp
  | none =>
    cases compute with
    | ok body => simp
    | err message => simp
    | panicked message => simp

theorem Computed.map_panicked {α β : Type} {f : α → β} {c : Computed α} :
    (∃ message, c.map f = .panicked message) ↔ ∃ message, c = .panicked message := by
  cases c with
  | ok a => simp [Computed.map]
  | err message => simp [Computed.map]
  | panicked message => simp [Computed.map]

theorem Computed.map_ok {α β : Type} {f : α → β} {c : Computed α} :
    (∃ b, c.map f = .ok b) ↔ ∃ a, c = .ok a := by
  cases c with
  | ok a => simp [Computed.map]
  | err message => simp [Computed.map]
  | panicked message => simp [Computed.map]

end Request

/-- A request for active addresses is answered exactly if its window does not parse, is answered from
the cache, is too long for a `Duration`, or reaches back to an instant of the calendar. -/
theorem active_addresses_answered_iff (env : StatsEnv) (window : Option String) (m : Moment)
    (cache : StatsCache) :
    (activeAddresses env window m cache).1 ≠ .panicked ↔
      ∀ n, parseInterval (window.getD "24h") = .ok n →
        (cache.getFresh m.arrived (activeAddressesKey (window.getD "24h")) defaultTtl).isSome ∨
          2 ^ 63 ≤ n * 1000 ∨ chronoMin ≤ m.utcNow - n * 1000000 := by
  unfold activeAddresses
  simp only
  cases hparse : parseInterval (window.getD "24h") with
  | error message => simp [errorResponse]
  | ok n =>
    simp only [Ne, serve_panicked, Computed.map_panicked, computeActiveAddresses_panicked,
      Except.ok.injEq, forall_eq', Option.isSome_iff_ne_none]
    by_cases hfresh : cache.getFresh m.arrived (activeAddressesKey (window.getD "24h")) defaultTtl =
        none
    · simp only [hfresh, true_and, not_true_eq_false, false_or]
      omega
    · simp only [hfresh, false_and, not_false_eq_true, true_or]

/-- A moment at which every computation succeeds. -/
def openMoment (now : Int) : Moment where
  arrived := 0
  computed := 0
  utcNow := now
  pg := .ok Indexer.Db.empty
  computations :=
    { totals := .ok ""
      observedFinality := .ok ""
      estimatedFinality := ""
      nextBlockEta := .ok ""
      newWalletsDaily := fun _ => .ok ""
      attestationsDaily := fun _ => .ok ""
      txRateDaily := fun _ => .ok ""
      dripsDaily := fun _ _ => .ok ""
      topHolders := fun _ => .ok ""
      topAttesters := fun _ => .ok ""
      topSchemaOwners := fun _ => .ok ""
      topAttestorSets := fun _ => .ok "" }

def plainStatsEnv : StatsEnv where
  faucetAddress := "lig1faucet"
  rfc3339 := toString
  toJson payload := payload.window

/-- The start of 2026. -/
def newYear : Int := 1767225600000000

/-- Ten million million seconds fit in a `Duration` and reach back before the calendar. -/
theorem far_window_panics :
    (activeAddresses plainStatsEnv (some "10000000000000s") (openMoment newYear) .new).1 =
      .panicked := by decide

/-! ## The keys -/

/-- The cache is left alone, or a body is put under one of the keys. -/
def Puts (keys : Set String) (cache cache' : StatsCache) : Prop :=
  cache' = cache ∨ ∃ key ∈ keys, ∃ now body, cache' = cache.put now key body

/-- The keys of a clamped number. -/
def clampedKeys (name : String) (cap : UInt32) : List String :=
  (List.range (cap.toNat + 1)).map fun n => name ++ ":" ++ toString n

/-- The endpoints with a clamped number, with their caps. -/
def clampedEndpoints (env : StatsEnv) : List (String × UInt32) :=
  [("new-wallets-daily", 90), ("attestations-daily", 90), ("tx-rate-daily", 90),
    ("drips-daily:" ++ env.faucetAddress, 90), ("top-holders", 100), ("top-attesters", 100),
    ("top-schema-owners", 100), ("top-attestor-sets", 100)]

/-- The keys of every endpoint but active addresses. -/
def boundedKeys (env : StatsEnv) : List String :=
  ["totals", "finality", "next-block-eta"] ++
    (clampedEndpoints env).flatMap fun (name, cap) => clampedKeys name cap

/-- At the instant `now` the count over the window can be queried. -/
def Answerable (now : Int) (window : String) : Prop :=
  ∃ n, parseInterval window = .ok n ∧ n * 1000 < 2 ^ 63 ∧ timestamptzMin ≤ now - n * 1000000

/-- The windows that can be answered no later than `horizon`. -/
def answerable (windows : Set String) (horizon : Int) : Set String :=
  {window ∈ windows | Answerable horizon window}

/-- The request asks for active addresses only over the given windows, and no later than
`horizon`. -/
structure Within (windows : Set String) (horizon : Int) (e : StatsRequest × Moment) : Prop where
  clock : e.2.utcNow ≤ horizon
  window : ∀ window, e.1 = .activeAddresses window → window.getD "24h" ∈ windows

section Keys

variable {env : StatsEnv} {m : Moment} {cache : StatsCache} {keys : Set String}
  {windows : Set String} {horizon : Int}

theorem length_boundedKeys : (boundedKeys env).length = 771 := by
  simp [boundedKeys, clampedEndpoints, clampedKeys]

theorem mem_boundedKeys {name : String} {cap : UInt32} (h : (name, cap) ∈ clampedEndpoints env) :
    ∀ key ∈ clampedKeys name cap, key ∈ boundedKeys env := by
  intro key hkey
  exact List.mem_append_right _ (List.mem_flatMap.2 ⟨(name, cap), h, hkey⟩)

theorem numberKey_mem_clampedKeys {name : String} {n cap : UInt32} :
    numberKey name (min n cap) ∈ clampedKeys name cap := by
  have hle : (min n cap).toNat ≤ cap.toNat := by
    change (if n ≤ cap then n else cap).toNat ≤ cap.toNat
    split
    · exact UInt32.le_iff_toNat_le.1 ‹_›
    · exact Nat.le_refl _
  exact List.mem_map.2 ⟨(min n cap).toNat, List.mem_range.2 (by omega), rfl⟩

theorem serve_puts {key : String} {ttl : Nat} {maxAgeSecs : UInt32} {compute : Computed String}
    (hkey : (∃ body, compute = .ok body) → key ∈ keys) :
    Puts keys cache (serve key ttl maxAgeSecs m compute cache).2 := by
  unfold serve
  split
  · exact .inl rfl
  · split
    · exact .inr ⟨key, hkey ⟨_, rfl⟩, _, _, rfl⟩
    · exact .inl rfl
    · exact .inl rfl

theorem serveClamped_puts {name : String} {default cap : UInt32}
    {compute : UInt32 → Computed String} {n : Option UInt32}
    (hkeys : ∀ key ∈ clampedKeys name cap, key ∈ keys) :
    Puts keys cache (serveClamped name default cap compute n m cache).2 := by
  apply serve_puts
  intro _
  exact hkeys _ numberKey_mem_clampedKeys

/-- The instant a window can be answered at may be put off. -/
theorem Answerable.mono {now : Int} {window : String} (h : Answerable now window)
    (hle : now ≤ horizon) : Answerable horizon window := by
  obtain ⟨n, hparse, hfits, hreach⟩ := h
  exact ⟨n, hparse, hfits, by omega⟩

theorem activeAddresses_puts {window : Option String}
    (hkey : Answerable m.utcNow (window.getD "24h") →
      activeAddressesKey (window.getD "24h") ∈ keys) :
    Puts keys cache (activeAddresses env window m cache).2 := by
  unfold activeAddresses
  simp only
  cases hparse : parseInterval (window.getD "24h") with
  | error message => exact .inl rfl
  | ok n =>
    apply serve_puts
    rw [Computed.map_ok, computeActiveAddresses_ok]
    intro hok
    exact hkey ⟨n, hparse, hok.1⟩

/-- Every request puts a key of the bounded ones or of a window that can be answered. -/
theorem handle_puts {r : StatsRequest} (hr : Within windows horizon (r, m)) :
    Puts ({key | key ∈ boundedKeys env} ∪ activeAddressesKey '' answerable windows horizon) cache
      (handle env r m cache).2 := by
  have hclamped : ∀ {name : String} {cap : UInt32}, (name, cap) ∈ clampedEndpoints env →
      ∀ key ∈ clampedKeys name cap,
        key ∈ {key | key ∈ boundedKeys env} ∪ activeAddressesKey '' answerable windows horizon :=
    fun h key hkey => .inl (mem_boundedKeys h key hkey)
  cases r with
  | totals => exact serve_puts fun _ => .inl (by simp [boundedKeys])
  | finality => exact serve_puts fun _ => .inl (by simp [boundedKeys])
  | nextBlockEta => exact serve_puts fun _ => .inl (by simp [boundedKeys])
  | activeAddresses window =>
    apply activeAddresses_puts
    intro h
    exact .inr ⟨_, ⟨hr.window window rfl, h.mono hr.clock⟩, rfl⟩
  | newWalletsDaily days => exact serveClamped_puts (hclamped (by simp [clampedEndpoints]))
  | attestationsDaily days => exact serveClamped_puts (hclamped (by simp [clampedEndpoints]))
  | txRateDaily days => exact serveClamped_puts (hclamped (by simp [clampedEndpoints]))
  | dripsDaily days =>
    apply serve_puts
    intro _
    exact hclamped (by simp [clampedEndpoints]) _ numberKey_mem_clampedKeys
  | topHolders n => exact serveClamped_puts (hclamped (by simp [clampedEndpoints]))
  | topAttesters n => exact serveClamped_puts (hclamped (by simp [clampedEndpoints]))
  | topSchemaOwners n => exact serveClamped_puts (hclamped (by simp [clampedEndpoints]))
  | topAttestorSets n => exact serveClamped_puts (hclamped (by simp [clampedEndpoints]))

end Keys

/-! ## Runs -/

/-- Every entry has one of the keys. -/
def KeysWithin (keys : Set String) (cache : StatsCache) : Prop :=
  ∀ entry ∈ cache.inner, entry.key ∈ keys

/-- No computation of the request fails; a window that does not parse is not computed for. -/
def Succeeds (env : StatsEnv) (cache : StatsCache) (e : StatsRequest × Moment) : Prop :=
  (∃ body maxAgeSecs, (handle env e.1 e.2 cache).1 = .ok body maxAgeSecs) ∨
    ∃ window message, e.1 = .activeAddresses window ∧
      parseInterval (window.getD "24h") = .error message

/-- The cache has at most so many entries after any requests over the given windows, as long as all
computations succeed. -/
def Bounded (env : StatsEnv) (windows : Set String) (horizon : Int) : Prop :=
  ∃ bound, ∀ es cache,
    Along (statsStep env) (fun c e => Within windows horizon e ∧ Succeeds env c e) .new es →
    exec (statsStep env) .new es = some cache → cache.inner.length ≤ bound

section Runs

variable {env : StatsEnv} {cache cache' : StatsCache} {keys windows : Set String} {horizon : Int}

theorem KeysWithin.puts (h : KeysWithin keys cache) (hput : Puts keys cache cache') :
    KeysWithin keys cache' := by
  rcases hput with rfl | ⟨key, hkey, now, body, rfl⟩
  · exact h
  · intro entry hentry
    rcases Table.mem_upsert hentry with ⟨hold, -⟩ | rfl | ⟨_, -, -, rfl⟩
    · exact h entry hold
    · exact hkey
    · exact hkey

/-- The keys of a whole run. -/
theorem keysWithin_run {es : List (StatsRequest × Moment)}
    (hes : Along (statsStep env) (fun _ e => Within windows horizon e) .new es)
    (hrun : exec (statsStep env) .new es = some cache) :
    KeysWithin ({key | key ∈ boundedKeys env} ∪ activeAddressesKey '' answerable windows horizon)
      cache := by
  apply exec_invariant_along (I := KeysWithin _) _ _ hes hrun
  · intro cache e cache' hkeys he hstep
    cases hstep
    exact hkeys.puts (handle_puts he)
  · intro entry h
    cases h

/-- There are no more entries than keys of the other endpoints and windows that can be answered. -/
theorem length_le_of_finite (h : (answerable windows horizon).Finite)
    {es : List (StatsRequest × Moment)}
    (hes : Along (statsStep env) (fun _ e => Within windows horizon e) .new es)
    (hrun : exec (statsStep env) .new es = some cache) :
    cache.inner.length ≤ 771 + (answerable windows horizon).ncard := by
  have hkeys := keysWithin_run hes hrun
  have hlen : cache.inner.length ≤
      (boundedKeys env ++ h.toFinset.toList.map activeAddressesKey).length := by
    apply Table.length_le_of_keys cache.unique
    intro entry hentry
    rcases hkeys entry hentry with hkey | ⟨window, hwindow, hkey⟩
    · exact List.mem_append_left _ hkey
    · refine List.mem_append_right _ (List.mem_map.2 ⟨window, ?_, hkey⟩)
      exact Finset.mem_toList.2 (h.mem_toFinset.2 hwindow)
  rwa [List.length_append, length_boundedKeys, List.length_map, Finset.length_toList,
    ← Set.ncard_eq_toFinset_card _ h] at hlen

/-- Finitely many windows bound the cache. -/
theorem bounded_of_finite (h : (answerable windows horizon).Finite) :
    Bounded env windows horizon :=
  ⟨_, fun _ _ hes hrun => length_le_of_finite h (hes.imp fun _ _ h => h.1) hrun⟩

/-- There is an entry under the key, fresh or not. -/
def StatsCache.Holds (cache : StatsCache) (key : String) : Prop :=
  (Table.lookup CacheEntry.key key cache.inner).isSome

/-- Nothing is evicted. -/
theorem Puts.holds {key : String} (hput : Puts keys cache cache') (h : cache.Holds key) :
    cache'.Holds key := by
  rcases hput with rfl | ⟨key', -, now, body, rfl⟩
  · exact h
  · unfold StatsCache.Holds StatsCache.put
    rw [Table.lookup_put]
    split
    · rfl
    · exact h

/-- What is computed is answered and kept. -/
theorem serve_holds {key body : String} {ttl : Nat} {maxAgeSecs : UInt32} {m : Moment} :
    (∃ body' age, (serve key ttl maxAgeSecs m (.ok body) cache).1 = .ok body' age) ∧
      (serve key ttl maxAgeSecs m (.ok body) cache).2.Holds key := by
  unfold serve
  split
  · rename_i cached hfresh
    refine ⟨⟨cached, maxAgeSecs, rfl⟩, ?_⟩
    obtain ⟨entry, hentry, -⟩ := Option.bind_eq_some_iff.1 hfresh
    exact Option.isSome_iff_exists.2 ⟨entry, hentry⟩
  · refine ⟨⟨body, maxAgeSecs, rfl⟩, ?_⟩
    unfold StatsCache.Holds StatsCache.put
    rw [Table.lookup_put, if_pos rfl]
    rfl

def windowRequest (now : Int) (window : String) : StatsRequest × Moment :=
  (.activeAddresses (some window), openMoment now)

/-- A window that can be answered is, and its key is taken from then on. -/
theorem windowRequest_holds {window : String} (h : Answerable horizon window) :
    Succeeds env cache (windowRequest horizon window) ∧
      (handle env (windowRequest horizon window).1 (windowRequest horizon window).2 cache).2.Holds
        (activeAddressesKey window) := by
  obtain ⟨n, hparse, hrange⟩ := h
  have hpg : (openMoment horizon).pg = .ok Indexer.Db.empty := rfl
  obtain ⟨payload, hpayload⟩ : ∃ payload, computeActiveAddresses env.rfc3339 (openMoment horizon).pg
      window n (openMoment horizon).utcNow = .ok payload :=
    computeActiveAddresses_ok.2 ⟨hrange, _, hpg⟩
  have hserve : handle env (windowRequest horizon window).1 (windowRequest horizon window).2 cache =
      serve (activeAddressesKey window) defaultTtl ttlStatsDefaultSecs (openMoment horizon)
        (.ok (env.toJson payload)) cache := by
    simp only [handle, windowRequest, activeAddresses, Option.getD_some, hparse, hpayload,
      Computed.map]
  unfold Succeeds
  rw [hserve]
  exact ⟨.inl serve_holds.1, serve_holds.2⟩

/-- Requests for any windows that can be answered leave an entry for each. -/
theorem exec_windowRequests {ws : List String} (hws : ∀ w ∈ ws, w ∈ answerable windows horizon) :
    ∃ cache', exec (statsStep env) cache (ws.map (windowRequest horizon)) = some cache' ∧
      Along (statsStep env) (fun c e => Within windows horizon e ∧ Succeeds env c e) cache
        (ws.map (windowRequest horizon)) ∧
      (∀ key, cache.Holds key → cache'.Holds key) ∧
      ∀ w ∈ ws, cache'.Holds (activeAddressesKey w) := by
  induction ws generalizing cache with
  | nil => exact ⟨cache, rfl, trivial, fun _ h => h, fun _ h => by cases h⟩
  | cons w ws ih =>
    have hw := hws w List.mem_cons_self
    have hwithin : Within windows horizon (windowRequest horizon w) := by
      refine ⟨Int.le_refl _, ?_⟩
      intro window hwindow
      cases hwindow
      exact hw.1
    obtain ⟨hsucceeds, hholds⟩ := @windowRequest_holds env cache horizon w hw.2
    obtain ⟨cache', hrun, halong, hkeep, hall⟩ :=
      @ih (handle env (windowRequest horizon w).1 (windowRequest horizon w).2 cache).2
        fun x hx => hws x (List.mem_cons_of_mem _ hx)
    refine ⟨cache', hrun, ⟨⟨hwithin, hsucceeds⟩, ?_⟩, ?_, ?_⟩
    · intro next hnext
      cases hnext
      exact halong
    · intro key hkey
      exact hkeep key ((handle_puts hwithin).holds hkey)
    · intro x hx
      rcases List.mem_cons.1 hx with rfl | hx
      · exact hkeep _ hholds
      · exact hall x hx

/-- A bounded cache leaves room for finitely many windows only. -/
theorem finite_of_bounded (h : Bounded env windows horizon) :
    (answerable windows horizon).Finite := by
  obtain ⟨bound, hbound⟩ := h
  by_contra hinf
  obtain ⟨ws, hws, hcard⟩ := Set.Infinite.exists_subset_card_eq hinf (bound + 1)
  obtain ⟨cache, hrun, halong, -, hall⟩ :=
    @exec_windowRequests env .new windows horizon _ fun w hw => hws (Finset.mem_toList.1 hw)
  have hnodup : (ws.toList.map activeAddressesKey).Nodup :=
    ws.nodup_toList.map fun _ _ h => (String.append_right_inj _).1 h
  have hlen : (ws.toList.map activeAddressesKey).length ≤ cache.inner.length := by
    apply Table.length_ge_of_keys hnodup
    intro key hkey
    obtain ⟨w, hw, rfl⟩ := List.mem_map.1 hkey
    exact hall w hw
  have hle := hbound _ cache halong hrun
  rw [List.length_map, Finset.length_toList, hcard] at hlen
  omega

/-- The cache stays bounded exactly if finitely many windows can be answered. -/
theorem stats_cache_bounded_iff (env : StatsEnv) (windows : Set String) (horizon : Int) :
    Bounded env windows horizon ↔ (answerable windows horizon).Finite :=
  ⟨finite_of_bounded, bounded_of_finite⟩

end Runs

/-! ## One second, spelled with leading zeros -/

def paddedSecond (zeros : Nat) : String := String.ofList (List.replicate zeros '0' ++ ['1', 's'])

theorem takeWhile_paddedSecond (zeros : Nat) :
    (List.replicate zeros '0' ++ ['1', 's']).takeWhile isAsciiDigit =
        List.replicate zeros '0' ++ ['1'] ∧
      (List.replicate zeros '0' ++ ['1', 's']).dropWhile isAsciiDigit = ['s'] := by
  have hzero : isAsciiDigit '0' = true := by decide
  induction zeros with
  | zero => decide
  | succ zeros ih =>
    rw [List.replicate_succ, List.cons_append, List.takeWhile_cons_of_pos hzero,
      List.dropWhile_cons_of_pos hzero, ih.1]
    exact ⟨rfl, ih.2⟩

theorem parseU64_padded (zeros : Nat) : parseU64 (List.replicate zeros '0' ++ ['1']) = some 1 := by
  have hfold : ∀ zeros, (List.replicate zeros '0' ++ ['1']).foldl
      (fun n c => 10 * n + (c.toNat - '0'.toNat)) 0 = 1 := by
    intro zeros
    induction zeros with
    | zero => decide
    | succ zeros ih =>
      rw [List.replicate_succ, List.cons_append, List.foldl_cons]
      exact ih
  have hdigits : (List.replicate zeros '0' ++ ['1']).all isAsciiDigit = true := by
    rw [List.all_append, List.all_replicate]
    simp [isAsciiDigit]
  unfold parseU64
  rw [if_pos ⟨by simp, hdigits⟩]
  simp only [hfold]
  rfl

theorem parseInterval_paddedSecond (zeros : Nat) : parseInterval (paddedSecond zeros) = .ok 1 := by
  obtain ⟨hnum, hunit⟩ := takeWhile_paddedSecond zeros
  unfold parseInterval paddedSecond
  simp only [String.toList_ofList, hnum, hunit, parseU64_padded]
  rfl

theorem infinite_answerable {now : Int} (h : timestamptzMin + 1000000 ≤ now) :
    (answerable Set.univ now).Infinite := by
  apply Set.infinite_of_injective_forall_mem (f := paddedSecond)
  · intro i j hij
    have hlen := congrArg (fun s => s.toList.length) hij
    simpa [paddedSecond] using hlen
  · intro zeros
    exact ⟨trivial, 1, parseInterval_paddedSecond zeros, by decide, by omega⟩

/-- No number bounds the cache over all requests. -/
theorem spelled_windows_unbounded : ¬ Bounded plainStatsEnv Set.univ newYear := by
  intro h
  have hlater : timestamptzMin + 1000000 ≤ newYear := by decide
  exact infinite_answerable hlater (finite_of_bounded h)

end LigateApi.Api.Stats
