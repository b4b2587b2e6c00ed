import LigateApi.Lib.Run

/-!
# A cache with a time to live

Requests share a store of bodies, each under a key and with the instant it was put at. A request
looks its key up when it arrives: a body that is not older than its time to live answers it, else
the request computes, and when it finishes it puts what is to be kept. Any number of requests is
under way at once, and nothing stops two of them from computing the same. In every reachable state
a body from the store is the latest that was put under the request's key before it arrived, and a
request that computes found none that was fresh (`Coherent`, `coherent_run`). What no computation
reads of the world shows in no answer (`exec_mapWorld`).
-/

namespace Lib.Cache

open Lib.Run

variable {σ κ ρ ω γ β : Type}

/-- A store of bodies with the instants they were put at. -/
structure Store (σ κ β : Type) where
  get : σ → κ → Option (Nat × β)
  put : σ → Nat → κ → β → σ
  get_put_self : ∀ s now k b, get (put s now k b) k = some (now, b)
  get_put_of_ne : ∀ s now k b k', k ≠ k' → get (put s now k b) k' = get s k'

/-- How a kind of request is served: what it is looked up under, if it is at all; how old a body may
be; what is computed from the world, and what of it is kept. -/
structure Policy (ρ κ ω γ β : Type) where
  key : ρ → Option κ
  ttl : ρ → Nat
  compute : ρ → ω → γ
  kept : γ → Option β

inductive Phase (ω β : Type)
  | computing
  | hit (body : β)
  | computed (finished : Nat) (world : ω)

structure Request (ρ ω β : Type) where
  ask : ρ
  arrived : Nat
  phase : Phase ω β

structure State (σ ρ ω β : Type) where
  clock : Nat
  store : σ
  pool : List (Request ρ ω β)

inductive Event (ρ ω : Type)
  | arrive (ask : ρ) (now : Nat)
  | finish (i : Nat) (now : Nat) (world : ω)

variable (store : Store σ κ β) (pol : Policy ρ κ ω γ β)

/-- The body that answers a request at the instant `now`. -/
def fresh (s : σ) (ask : ρ) (now : Nat) : Option β :=
  (pol.key ask).bind fun k => (store.get s k).bind fun e =>
    if now - e.1 < pol.ttl ask then some e.2 else none

/-- The store after a request has computed at the instant `now`. -/
def keep (s : σ) (ask : ρ) (now : Nat) (w : ω) : σ :=
  match pol.key ask, pol.kept (pol.compute ask w) with
  | some k, some b => store.put s now k b
  | _, _ => s

def arrival (s : σ) (ask : ρ) (now : Nat) : Phase ω β :=
  match fresh store pol s ask now with
  | some body => .hit body
  | none => .computing

/-- One event; the clock does not go back, and only a request that computes finishes. -/
def step (s : State σ ρ ω β) : Event ρ ω → Option (State σ ρ ω β)
  | .arrive ask now =>
    if s.clock ≤ now then
      some { s with clock := now, pool := s.pool ++ [⟨ask, now, arrival store pol s.store ask now⟩] }
    else none
  | .finish i now w =>
    match s.pool[i]? with
    | some ⟨ask, arrived, .computing⟩ =>
      if s.clock ≤ now then
        some { clock := now, store := keep store pol s.store ask now w,
               pool := s.pool.set i ⟨ask, arrived, .computed now w⟩ }
      else none
    | _ => none

/-- What the request is answered with: a body from the store, or what it computed itself. -/
def Request.answer (p : Request ρ ω β) : Option (β ⊕ γ) :=
  match p.phase with
  | .computing => none
  | .hit body => some (.inl body)
  | .computed _ w => some (.inr (pol.compute p.ask w))

/-- A request that nothing interrupts: its answer, and the store after it. -/
def serve (s : σ) (ask : ρ) (arrived finished : Nat) (w : ω) : (β ⊕ γ) × σ :=
  match fresh store pol s ask arrived with
  | some body => (.inl body, s)
  | none => (.inr (pol.compute ask w), keep store pol s ask finished w)

/-- The request put `b` under `k` at the instant `t`. -/
def Request.Keeps (q : Request ρ ω β) (k : κ) (t : Nat) (b : β) : Prop :=
  ∃ w, q.phase = .computed t w ∧ pol.key q.ask = some k ∧ pol.kept (pol.compute q.ask w) = some b

/-- The answer of a hit: the latest body put under the key before the request arrived, and fresh. -/
structure Answers (pool : List (Request ρ ω β)) (p : Request ρ ω β) (b : β) (k : κ) (t : Nat) :
    Prop where
  key : pol.key p.ask = some k
  kept : ∃ q ∈ pool, q.Keeps pol k t b
  before : t ≤ p.arrived
  fresh : p.arrived < t + pol.ttl p.ask
  latest : ∀ q ∈ pool, ∀ t' b', q.Keeps pol k t' b' → t' ≤ t ∨ p.arrived ≤ t'

/-- What the requests of a pool have been answered is in order. -/
structure Coherent (pool : List (Request ρ ω β)) : Prop where
  hit : ∀ p ∈ pool, ∀ b, p.phase = .hit b → ∃ k t, Answers pol pool p b k t
  miss : ∀ p ∈ pool, (∀ b, p.phase ≠ .hit b) → ∀ q ∈ pool, ∀ k t b, pol.key p.ask = some k →
    q.Keeps pol k t b → t + pol.ttl p.ask ≤ p.arrived ∨ p.arrived ≤ t
  ordered : ∀ p ∈ pool, ∀ t w, p.phase = .computed t w → p.arrived ≤ t

structure Inv (s : State σ ρ ω β) : Prop where
  coherent : Coherent pol s.pool
  past : ∀ p ∈ s.pool, p.arrived ≤ s.clock
  done : ∀ q ∈ s.pool, ∀ t w, q.phase = .computed t w → t ≤ s.clock
  /-- An entry was put by a request, -/
  entry : ∀ k t b, store.get s.store k = some (t, b) → ∃ q ∈ s.pool, q.Keeps pol k t b
  /-- and is the latest under its key. -/
  newest : ∀ q ∈ s.pool, ∀ k t b, q.Keeps pol k t b →
    ∃ t' b', store.get s.store k = some (t', b') ∧ t ≤ t'

variable {store pol} {s s' : State σ ρ ω β} {pool : List (Request ρ ω β)} {p : Request ρ ω β}
  {ask : ρ} {now arrived i : Nat} {w : ω} {b : β} {k : κ} {t : Nat}

theorem fresh_eq_some {c : σ} : fresh store pol c ask now = some b ↔
    ∃ k t, pol.key ask = some k ∧ store.get c k = some (t, b) ∧ now - t < pol.ttl ask := by
  simp only [fresh, Option.bind_eq_some_iff, Option.ite_none_right_eq_some, Option.some.injEq,
    Prod.exists]
  constructor
  · rintro ⟨k, hk, t, b', hget, hlt, rfl⟩
    exact ⟨k, t, hk, hget, hlt⟩
  · rintro ⟨k, t, hk, hget, hlt⟩
    exact ⟨k, hk, t, b, hget, hlt, rfl⟩

/-- A request that was not answered from the store and has not finished keeps nothing. -/
theorem not_keeps (h : ∀ t w, p.phase ≠ .computed t w) : ¬ p.Keeps pol k t b :=
  fun ⟨w, hw, _⟩ => h t w hw

/-- A request that nothing interrupts is a run. -/
theorem serve_run {finished : Nat} (ask : ρ) (w : ω) (harr : s.clock ≤ arrived) (hfin : arrived ≤ finished) :
    ∃ es s' p, exec (step store pol) s es = some s' ∧
      s'.store = (serve store pol s.store ask arrived finished w).2 ∧ s'.pool = s.pool ++ [p] ∧
      p.ask = ask ∧ p.answer pol = some (serve store pol s.store ask arrived finished w).1 := by
  have harrive : ∀ fs, exec (step store pol) s (.arrive ask arrived :: fs) =
      exec (step store pol) ⟨arrived, s.store, s.pool ++
        [⟨ask, arrived, arrival store pol s.store ask arrived⟩]⟩ fs := by
    intro fs
    simp [exec, step, harr]
  unfold serve
  cases hfresh : fresh store pol s.store ask arrived with
  | some body =>
    refine ⟨[.arrive ask arrived], _, _, harrive [], rfl, rfl, rfl, ?_⟩
    simp only [Request.answer, arrival, hfresh]
  | none =>
    refine ⟨[.arrive ask arrived, .finish s.pool.length finished w],
      ⟨finished, keep store pol s.store ask finished w,
        s.pool ++ [⟨ask, arrived, .computed finished w⟩]⟩, _, (harrive _).trans ?_,
      rfl, rfl, rfl, rfl⟩
    simp [exec, step, arrival, hfresh, hfin]

/-! ## Arrivals -/

theorem arrival_ne_computed {c : σ} : ∀ t w, arrival store pol c ask now ≠ .computed t w := by
  intro t w h
  unfold arrival at h
  split at h <;> cases h

/-- What is kept in a pool with one more request that keeps nothing was kept before. -/
theorem mem_of_keeps_snoc {q : Request ρ ω β} (hkeeps : ∀ k t b, ¬ p.Keeps pol k t b)
    (hq : q ∈ pool ++ [p]) (hk : q.Keeps pol k t b) : q ∈ pool := by
  rcases List.mem_append.1 hq with hq | hq
  · exact hq
  · rw [List.mem_singleton.1 hq] at hk
    exact absurd hk (hkeeps k t b)

/-- The pool with one more request that keeps nothing yet. -/
theorem Coherent.snoc (h : Coherent pol pool) (hkeeps : ∀ k t b, ¬ p.Keeps pol k t b)
    (hhit : ∀ b, p.phase = .hit b → ∃ k t, Answers pol pool p b k t)
    (hmiss : (∀ b, p.phase ≠ .hit b) → ∀ q ∈ pool, ∀ k t b, pol.key p.ask = some k →
      q.Keeps pol k t b → t + pol.ttl p.ask ≤ p.arrived ∨ p.arrived ≤ t)
    (hnew : ∀ t w, p.phase ≠ .computed t w) : Coherent pol (pool ++ [p]) := by
  have hlift : ∀ {p' b k t}, Answers pol pool p' b k t → Answers pol (pool ++ [p]) p' b k t := by
    intro p' b k t ha
    obtain ⟨q, hq, hk⟩ := ha.kept
    exact ⟨ha.key, ⟨q, List.mem_append_left _ hq, hk⟩, ha.before, ha.fresh,
      fun q hq t' b' hk => ha.latest q (mem_of_keeps_snoc hkeeps hq hk) t' b' hk⟩
  refine ⟨fun p' hp' b hb => ?_, fun p' hp' hno q hq k t b hk hkeep => ?_,
    fun p' hp' t w hw => ?_⟩
  · rcases List.mem_append.1 hp' with hp' | hp'
    · obtain ⟨k, t, ha⟩ := h.hit p' hp' b hb
      exact ⟨k, t, hlift ha⟩
    · rw [List.mem_singleton.1 hp'] at hb ⊢
      obtain ⟨k, t, ha⟩ := hhit b hb
      exact ⟨k, t, hlift ha⟩
  · have hq := mem_of_keeps_snoc hkeeps hq hkeep
    rcases List.mem_append.1 hp' with hp' | hp'
    · exact h.miss p' hp' hno q hq k t b hk hkeep
    · rw [List.mem_singleton.1 hp'] at hno hk ⊢
      exact hmiss hno q hq k t b hk hkeep
  · rcases List.mem_append.1 hp' with hp' | hp'
    · exact h.ordered p' hp' t w hw
    · rw [List.mem_singleton.1 hp'] at hw
      exact absurd hw (hnew t w)

/-- What is fresh in the store is the latest body that was put under the key. -/
theorem Inv.answers {phase : Phase ω β} (h : Inv store pol s) (hnow : s.clock ≤ now)
    (hfresh : fresh store pol s.store ask now = some b) :
    ∃ k t, Answers pol s.pool ⟨ask, now, phase⟩ b k t := by
  obtain ⟨k, t, hk, hget, hlt⟩ := fresh_eq_some.1 hfresh
  obtain ⟨q, hq, hkeep⟩ := h.entry k t b hget
  obtain ⟨w, hw, -⟩ := id hkeep
  have htc : t ≤ s.clock := h.done q hq t w hw
  refine ⟨k, t, hk, ⟨q, hq, hkeep⟩, Nat.le_trans htc hnow, by simp only; omega, ?_⟩
  intro q' hq' t' b' hkeep'
  obtain ⟨t'', b'', hget', hle⟩ := h.newest q' hq' k t' b' hkeep'
  rw [hget] at hget'
  cases hget'
  exact .inl hle

/-- Where nothing is fresh, whatever was put under the key is too old. -/
theorem Inv.stale {q : Request ρ ω β} (h : Inv store pol s)
    (hnone : fresh store pol s.store ask now = none) (hk : pol.key ask = some k) (hq : q ∈ s.pool)
    (hkeep : q.Keeps pol k t b) : t + pol.ttl ask ≤ now ∨ now ≤ t := by
  obtain ⟨t', b', hget, hle⟩ := h.newest q hq k t b hkeep
  have hstale : ¬ now - t' < pol.ttl ask := by
    intro hlt
    rw [fresh_eq_some.2 ⟨k, t', hk, hget, hlt⟩] at hnone
    cases hnone
  omega

theorem Inv.arrive (h : Inv store pol s) (hnow : s.clock ≤ now) :
    Inv store pol { s with
      clock := now, pool := s.pool ++ [⟨ask, now, arrival store pol s.store ask now⟩] } := by
  have hnew : ∀ t w, arrival store pol s.store ask now ≠ .computed t w := arrival_ne_computed
  have hkeeps : ∀ k t b,
      ¬ Request.Keeps pol ⟨ask, now, arrival store pol s.store ask now⟩ k t b :=
    fun k t b => not_keeps hnew
  have hfresh : ∀ b, arrival store pol s.store ask now = .hit b ↔
      fresh store pol s.store ask now = some b := by
    intro b
    unfold arrival
    cases fresh store pol s.store ask now <;> simp
  refine ⟨h.coherent.snoc hkeeps ?_ ?_ hnew, ?_, ?_, ?_, ?_⟩
  · exact fun b hb => h.answers hnow ((hfresh b).1 hb)
  · intro hno q hq k t b hk hkeep
    have hnone : fresh store pol s.store ask now = none :=
      Option.eq_none_iff_forall_ne_some.2 fun b hb => hno b ((hfresh b).2 hb)
    exact h.stale hnone hk hq hkeep
  · intro p hp
    rcases List.mem_append.1 hp with hp | hp
    · exact Nat.le_trans (h.past p hp) hnow
    · exact Nat.le_of_eq (congrArg Request.arrived (List.mem_singleton.1 hp))
  · intro q hq t w hw
    rcases List.mem_append.1 hq with hq | hq
    · exact Nat.le_trans (h.done q hq t w hw) hnow
    · rw [List.mem_singleton.1 hq] at hw
      exact absurd hw (hnew t w)
  · intro k t b hget
    obtain ⟨q, hq, hkeep⟩ := h.entry k t b hget
    exact ⟨q, List.mem_append_left _ hq, hkeep⟩
  · exact fun q hq k t b hkeep => h.newest q (mem_of_keeps_snoc hkeeps hq hkeep) k t b hkeep

/-! ## Finished computations -/

theorem mem_set_cases {p' q : Request ρ ω β} (h : q ∈ pool.set i p') : q ∈ pool ∨ q = p' :=
  List.mem_or_eq_of_mem_set h

/-- The other requests stay. -/
theorem mem_set_of_phase {p' q : Request ρ ω β} (hp : pool[i]? = some p) (hq : q ∈ pool)
    (hne : q.phase ≠ p.phase) : q ∈ pool.set i p' := by
  obtain ⟨j, hj⟩ := List.mem_iff_getElem?.1 hq
  have hij : i ≠ j := by
    rintro rfl
    rw [hp] at hj
    cases hj
    exact hne rfl
  exact List.mem_iff_getElem?.2 ⟨j, by rw [List.getElem?_set_ne hij, hj]⟩

/-- A request that computed, put in its place, with what it keeps the newest. -/
theorem Coherent.set {arrived : Nat} (h : Coherent pol pool)
    (hp : pool[i]? = some ⟨ask, arrived, .computing⟩) (harr : arrived ≤ now)
    (hnow : ∀ p ∈ pool, p.arrived ≤ now) :
    Coherent pol (pool.set i ⟨ask, arrived, .computed now w⟩) := by
  have hmem : (⟨ask, arrived, .computing⟩ : Request ρ ω β) ∈ pool := List.mem_of_getElem? hp
  have hkeeps : ∀ q ∈ pool.set i (⟨ask, arrived, .computed now w⟩ : Request ρ ω β), ∀ k t b,
      q.Keeps pol k t b → q ∈ pool ∨ t = now := by
    intro q hq k t b hk
    rcases mem_set_cases hq with hq | rfl
    · exact .inl hq
    · obtain ⟨w', hw, -⟩ := hk
      cases hw
      exact .inr rfl
  refine ⟨fun p' hp' b hb => ?_, fun p' hp' hno q hq k t b hk hkeep => ?_,
    fun p' hp' t w' hw => ?_⟩
  · rcases mem_set_cases hp' with hold | rfl
    · obtain ⟨k, t, ha⟩ := h.hit p' hold b hb
      obtain ⟨q, hq, hk⟩ := ha.kept
      refine ⟨k, t, ha.key, ⟨q, mem_set_of_phase hp hq ?_, hk⟩, ha.before, ha.fresh, ?_⟩
      · obtain ⟨w', hw, -⟩ := hk
        rw [hw]
        nofun
      · intro q' hq' t' b' hk'
        rcases hkeeps q' hq' k t' b' hk' with hq' | rfl
        · exact ha.latest q' hq' t' b' hk'
        · exact .inr (hnow p' hold)
    · cases hb
  · have hq' := hkeeps q hq k t b hkeep
    rcases mem_set_cases hp' with hold | rfl
    · rcases hq' with hq' | rfl
      · exact h.miss p' hold hno q hq' k t b hk hkeep
      · exact .inr (hnow p' hold)
    · rcases hq' with hq' | rfl
      · exact h.miss _ hmem nofun q hq' k t b hk hkeep
      · exact .inr harr
  · rcases mem_set_cases hp' with hp' | rfl
    · exact h.ordered p' hp' t w' hw
    · cases hw
      exact harr

theorem keep_eq {c : σ} (hk : pol.key ask = some k)
    (hb : pol.kept (pol.compute ask w) = some b) :
    keep store pol c ask now w = store.put c now k b := by
  simp only [keep, hk, hb]

/-- An entry of the store after a computation is the one it put, or was there. -/
theorem get_keep {c : σ} (h : store.get (keep store pol c ask now w) k = some (t, b)) :
    (t = now ∧ pol.key ask = some k ∧ pol.kept (pol.compute ask w) = some b) ∨
      store.get c k = some (t, b) := by
  unfold keep at h
  split at h
  · rename_i k' b' hk' hb'
    by_cases hkk : k' = k
    · subst hkk
      rw [store.get_put_self] at h
      cases h
      exact .inl ⟨rfl, hk', hb'⟩
    · rw [store.get_put_of_ne _ _ _ _ _ hkk] at h
      exact .inr h
  · exact .inr h

/-- Under a key that had an entry there is one that is not older. -/
theorem get_keep_le {c : σ} (ask : ρ) (w : ω) (h : store.get c k = some (t, b)) (hle : t ≤ now) :
    ∃ t' b', store.get (keep store pol c ask now w) k = some (t', b') ∧ t ≤ t' := by
  unfold keep
  split
  · rename_i k' b' hk' hb'
    by_cases hkk : k' = k
    · subst hkk
      exact ⟨now, b', store.get_put_self _ _ _ _, hle⟩
    · exact ⟨t, b, by rw [store.get_put_of_ne _ _ _ _ _ hkk, h], Nat.le_refl t⟩
  · exact ⟨t, b, h, Nat.le_refl t⟩

theorem Inv.finish {arrived : Nat} (h : Inv store pol s) (hnow : s.clock ≤ now)
    (hp : s.pool[i]? = some ⟨ask, arrived, .computing⟩) :
    Inv store pol {
      clock := now, store := keep store pol s.store ask now w,
      pool := s.pool.set i ⟨ask, arrived, .computed now w⟩ } := by
  have hmem : (⟨ask, arrived, .computing⟩ : Request ρ ω β) ∈ s.pool := List.mem_of_getElem? hp
  have hpast : ∀ p ∈ s.pool, p.arrived ≤ now := fun p hp => Nat.le_trans (h.past p hp) hnow
  have hself : (⟨ask, arrived, .computed now w⟩ : Request ρ ω β) ∈
      s.pool.set i ⟨ask, arrived, .computed now w⟩ :=
    List.mem_set (List.getElem?_eq_some_iff.1 hp).1 _
  have harr : arrived ≤ now := hpast _ hmem
  refine ⟨h.coherent.set hp harr hpast, ?_, ?_, ?_, ?_⟩
  · intro p' hp'
    rcases mem_set_cases hp' with hp' | rfl
    · exact hpast p' hp'
    · exact harr
  · intro q hq t w' hw
    rcases mem_set_cases hq with hq | rfl
    · exact Nat.le_trans (h.done q hq t w' hw) hnow
    · cases hw
      exact Nat.le_refl now
  · intro k t b hget
    rcases get_keep hget with ⟨rfl, hk, hb⟩ | hget
    · exact ⟨_, hself, w, rfl, hk, hb⟩
    · obtain ⟨q, hq, hkeep⟩ := h.entry k t b hget
      refine ⟨q, mem_set_of_phase hp hq ?_, hkeep⟩
      obtain ⟨w', hw, -⟩ := hkeep
      rw [hw]
      nofun
  · intro q hq k t b hkeep
    rcases mem_set_cases hq with hq | rfl
    · obtain ⟨t', b', hget, hle⟩ := h.newest q hq k t b hkeep
      obtain ⟨q', hq', w', hw', -⟩ := h.entry k t' b' hget
      have ht' : t' ≤ now := Nat.le_trans (h.done q' hq' t' w' hw') hnow
      obtain ⟨t'', b'', hget', hle'⟩ := get_keep_le ask w hget ht'
      exact ⟨t'', b'', hget', Nat.le_trans hle hle'⟩
    · obtain ⟨w', hw, hk, hb⟩ := hkeep
      cases hw
      exact ⟨now, b, by simp only [keep_eq hk hb, store.get_put_self], Nat.le_refl now⟩

/-! ## Runs -/

theorem inv_step {e : Event ρ ω} (h : Inv store pol s) (hstep : step store pol s e = some s') :
    Inv store pol s' := by
  cases e with
  | arrive ask now =>
    simp only [step, Option.ite_none_right_eq_some, Option.some.injEq] at hstep
    obtain ⟨hnow, rfl⟩ := hstep
    exact h.arrive hnow
  | finish i now w =>
    simp only [step] at hstep
    split at hstep
    · rename_i ask arrived hp
      simp only [Option.ite_none_right_eq_some, Option.some.injEq] at hstep
      obtain ⟨hnow, rfl⟩ := hstep
      exact h.finish hnow hp
    · cases hstep

/-- **Coherence**: from an empty store, in every order of arrivals and finished computations. -/
theorem coherent_run {c : σ} {clock : Nat} {es : List (Event ρ ω)}
    (hempty : ∀ k, store.get c k = none)
    (hrun : exec (step store pol) ⟨clock, c, []⟩ es = some s) : Coherent pol s.pool := by
  have hinit : Inv store pol (⟨clock, c, []⟩ : State σ ρ ω β) := by
    refine ⟨⟨List.forall_mem_nil _, List.forall_mem_nil _, List.forall_mem_nil _⟩,
      List.forall_mem_nil _, List.forall_mem_nil _, ?_, List.forall_mem_nil _⟩
    intro k t b hget
    rw [hempty] at hget
    cases hget
  exact (exec_invariant (fun _ _ _ => inv_step) hinit hrun).coherent

/-! ## Worlds that are told apart by no computation -/

section Worlds

variable (f : ω → ω)

def Phase.mapWorld : Phase ω β → Phase ω β
  | .computing => .computing
  | .hit body => .hit body
  | .computed finished world => .computed finished (f world)

def Request.mapWorld (p : Request ρ ω β) : Request ρ ω β := { p with phase := p.phase.mapWorld f }

def State.mapWorld (s : State σ ρ ω β) : State σ ρ ω β :=
  { s with pool := s.pool.map (Request.mapWorld f) }

def Event.mapWorld : Event ρ ω → Event ρ ω
  | .arrive ask now => .arrive ask now
  | .finish i now world => .finish i now (f world)

variable {f} (hf : ∀ ask w, pol.compute ask (f w) = pol.compute ask w)

include hf

theorem answer_mapWorld : (p.mapWorld f).answer pol = p.answer pol := by
  rcases p with ⟨ask, arrived, phase⟩
  cases phase with
  | computing => rfl
  | hit body => rfl
  | computed finished world => simp only [Request.mapWorld, Phase.mapWorld, Request.answer, hf]

theorem step_mapWorld (e : Event ρ ω) : step store pol (s.mapWorld f) (e.mapWorld f) =
    (step store pol s e).map (State.mapWorld f) := by
  cases e with
  | arrive ask now =>
    have harrival : Phase.mapWorld f (arrival store pol s.store ask now) =
        arrival store pol s.store ask now := by
      unfold arrival
      split <;> rfl
    by_cases hnow : s.clock ≤ now
    · simp only [step, Event.mapWorld, State.mapWorld, hnow, if_true, Option.map_some,
        List.map_append, List.map_cons, List.map_nil, Request.mapWorld, harrival]
    · simp only [step, Event.mapWorld, State.mapWorld, hnow, if_false, Option.map_none]
  | finish i now w =>
    have hkeep : ∀ ask, keep store pol s.store ask now (f w) =
        keep store pol s.store ask now w := by
      intro ask
      simp only [keep, hf]
    simp only [step, Event.mapWorld, State.mapWorld, List.getElem?_map]
    cases hp : s.pool[i]? with
    | none => rfl
    | some p =>
      rcases p with ⟨ask, arrived, phase⟩
      cases phase with
      | computing =>
        by_cases hnow : s.clock ≤ now
        · simp only [Option.map_some, Request.mapWorld, Phase.mapWorld, hkeep, hnow, if_true,
            State.mapWorld, List.map_set]
        · simp only [Option.map_some, Request.mapWorld, Phase.mapWorld, hnow, if_false,
            Option.map_none]
      | hit body => rfl
      | computed finished world => rfl

/-- **Noninterference**: a change of the worlds that no computation sees is seen in no answer. -/
theorem exec_mapWorld {es : List (Event ρ ω)} (hrun : exec (step store pol) s es = some s') :
    exec (step store pol) (s.mapWorld f) (es.map (Event.mapWorld f)) = some (s'.mapWorld f) ∧
      (s'.mapWorld f).pool.map (Request.answer pol) = s'.pool.map (Request.answer pol) := by
  constructor
  · induction es generalizing s with
    | nil =>
      rw [exec_nil, Option.some.injEq] at hrun
      rw [hrun]
      rfl
    | cons e es ih =>
      obtain ⟨m, hm, hrest⟩ := exec_cons_eq_some.1 hrun
      refine exec_cons_eq_some.2 ⟨m.mapWorld f, ?_, ih hrest⟩
      rw [step_mapWorld hf, hm]
      rfl
  · rw [State.mapWorld, List.map_map]
    exact List.map_congr_left fun p _ => answer_mapWorld hf

end Worlds

end Lib.Cache
