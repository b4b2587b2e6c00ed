import LigateApi.Drip.WebDrip

/-!
# One drip per address and window

`check` and `record` are two calls with `Signer::drip` in between, so the limiter bounds the drips
of an address only as long as no request for that address runs `check` while another one is in
flight. Under that condition on the steps (`NoOverlap`) the invariant `WebInv` holds along the run;
the first step that breaks it puts two requests of one address in flight at once
(`overlap_not_exclusive`). Together these are `spaced_and_exclusive_iff_noOverlap`.
-/

namespace LigateApi.Drip

open Lib.Run

variable {dripAmount : Nat} {s s' t : WebState} {r r' : WebRequest}

/-! ## The property -/

/-- Any two requests of one address whose `Signer::drip` returned `Ok` were submitted at least a
window apart. -/
def WebState.Spaced (s : WebState) : Prop :=
  ∀ (i j : Nat) (r r' : WebRequest), i ≠ j →
    s.requests[i]? = some r → s.requests[j]? = some r' → r.address = r'.address →
    r.phase.dripOk = true → r'.phase.dripOk = true → ∀ t ∈ r.phase.submission,
      ∀ t' ∈ r'.phase.submission, t + s.limiter.window ≤ t' ∨ t' + s.limiter.window ≤ t

/-- No two requests of one address are between `check` and `record`. -/
def WebState.Exclusive (s : WebState) : Prop :=
  ∀ (i j : Nat) (r r' : WebRequest), i ≠ j →
    s.requests[i]? = some r → s.requests[j]? = some r' → r.address = r'.address →
    ¬ (r.phase.inFlight = true ∧ r'.phase.inFlight = true)

/-- A `check` runs only while no request for its address is in flight. -/
def NoOverlap (s : WebState) : WebEvent → Prop
  | .act i .check =>
    ∀ r ∈ s.requests[i]?, ∀ r' ∈ s.requests, r'.address = r.address →
      r'.phase.inFlight = false
  | _ => True

instance (s : WebState) : ∀ e, Decidable (NoOverlap s e)
  | .act i .check => inferInstanceAs (Decidable (∀ r ∈ s.requests[i]?, ∀ r' ∈ s.requests,
      r'.address = r.address → r'.phase.inFlight = false))
  | .act _ (.submit _) => .isTrue trivial
  | .act _ (.dripErr _) => .isTrue trivial
  | .act _ .dripOk => .isTrue trivial
  | .act _ .record => .isTrue trivial
  | .tick _ => .isTrue trivial
  | .receive _ => .isTrue trivial

/-! ## The invariant -/

/-- What the limiter and the clock say about one request. -/
structure Settled (l : RateLimiter) (now : Nat) (r : WebRequest) : Prop where
  past : ∀ t ∈ r.phase.submission, t ≤ now
  recorded : r.phase.inFlight = false → ∀ t ∈ r.phase.submission,
    ∃ last, l.last r.address = some last ∧ t ≤ last
  clear : r.phase.inFlight = true → ∀ last ∈ l.last r.address,
    last + l.window ≤ r.phase.since now

/-- What two requests have to do with each other. -/
structure Apart (window : Nat) (r r' : WebRequest) : Prop where
  exclusive : r.address = r'.address → ¬ (r.phase.inFlight = true ∧ r'.phase.inFlight = true)
  spaced : r.address = r'.address → ∀ t ∈ r.phase.submission, ∀ t' ∈ r'.phase.submission,
    t + window ≤ t' ∨ t' + window ≤ t

structure WebInv (s : WebState) : Prop where
  stamped : ∀ a, ∀ last ∈ s.limiter.last a, last ≤ s.now
  settled : ∀ (i : Nat) (r : WebRequest), s.requests[i]? = some r → Settled s.limiter s.now r
  apart : ∀ (i j : Nat) (r r' : WebRequest), i ≠ j →
    s.requests[i]? = some r → s.requests[j]? = some r' → Apart s.limiter.window r r'

theorem Apart.symm {w : Nat} (h : Apart w r r') : Apart w r' r where
  exclusive e hb := h.exclusive e.symm hb.symm
  spaced e t ht t' ht' := (h.spaced e.symm t' ht' t ht).symm

theorem WebInv.spaced (h : WebInv s) : s.Spaced := fun i j r r' hij hi hj ha _ _ =>
  (h.apart i j r r' hij hi hj).spaced ha

theorem WebInv.exclusive (h : WebInv s) : s.Exclusive := fun i j r r' hij hi hj =>
  (h.apart i j r r' hij hi hj).exclusive

theorem webInv_start (window now : Nat) : WebInv (WebState.start window now) where
  stamped a := by simp [WebState.start]
  settled i r h := by simp [WebState.start] at h
  apart i j r r' _ h := by simp [WebState.start] at h

/-- A request that has not been submitted and is not in flight asks nothing of the others. -/
theorem apart_of_idle {w : Nat} (hs : r.phase.submission = none) (hf : r.phase.inFlight = false) :
    Apart w r r' where
  exclusive _ h := by simp [hf] at h
  spaced _ t ht := by simp [hs] at ht

theorem settled_of_idle {l : RateLimiter} {now : Nat} (hs : r.phase.submission = none)
    (hf : r.phase.inFlight = false) : Settled l now r where
  past t ht := by simp [hs] at ht
  recorded _ t ht := by simp [hs] at ht
  clear h := by simp [hf] at h

/-! ## One step -/

/-- Everything a step of a request can do. -/
theorem WebRequest.advance_cases {l l' : RateLimiter} {now : Nat} {a : WebAct} {p : WebPhase}
    (h : r.advance dripAmount now l a = some (l', p)) :
    (l' = l ∧ p.submission = none ∧ p.inFlight = false) ∨
    (a = .check ∧ r.phase = .received ∧ l.check r.address now = .allowed ∧ l' = l ∧
      p = .signing) ∨
    (∃ txHash, r.phase = .signing ∧ l' = l ∧ p = .submitted now txHash) ∨
    (∃ time txHash receipt, r.phase = .submitted time txHash ∧ l' = l ∧
      p = .dripped time receipt) ∨
    (∃ time receipt response, a = .record ∧ r.phase = .dripped time receipt ∧
      l' = l.record r.address now ∧ p = .recorded time response) := by
  cases a with
  | check =>
    cases hp : r.phase <;> simp only [advance, hp, reduceCtorEq] at h
    cases hc : l.check r.address now <;>
      simp only [hc, Option.some.injEq, Prod.mk.injEq] at h <;> obtain ⟨rfl, rfl⟩ := h
    · exact .inr (.inl ⟨rfl, rfl, rfl, rfl, rfl⟩)
    · exact .inl ⟨rfl, rfl, rfl⟩
  | submit txHash =>
    cases hp : r.phase <;>
      simp only [advance, hp, reduceCtorEq, Option.some.injEq, Prod.mk.injEq] at h
    obtain ⟨rfl, rfl⟩ := h
    exact .inr (.inr (.inl ⟨txHash, rfl, rfl, rfl⟩))
  | dripErr e =>
    cases hp : r.phase <;>
      simp only [advance, hp, reduceCtorEq, Option.some.injEq, Prod.mk.injEq] at h <;>
      obtain ⟨rfl, rfl⟩ := h <;> exact .inl ⟨rfl, rfl, rfl⟩
  | dripOk =>
    cases hp : r.phase <;>
      simp only [advance, hp, reduceCtorEq, Option.some.injEq, Prod.mk.injEq] at h
    obtain ⟨rfl, rfl⟩ := h
    exact .inr (.inr (.inr (.inl ⟨_, _, _, rfl, rfl, rfl⟩)))
  | record =>
    cases hp : r.phase <;>
      simp only [advance, hp, reduceCtorEq, Option.some.injEq, Prod.mk.injEq] at h
    obtain ⟨rfl, rfl⟩ := h
    exact .inr (.inr (.inr (.inr ⟨_, _, _, rfl, rfl, rfl, rfl⟩)))

/-- Replacing one request and the limiter keeps the invariant if the new request fits the new
limiter and the other requests, and those still fit the new limiter. -/
theorem WebInv.replace (h : WebInv s) {i : Nat} {l : RateLimiter} (hw : l.window = s.limiter.window)
    (hl : ∀ a, ∀ last ∈ l.last a, last ≤ s.now) (hown : Settled l s.now r')
    (hothers : ∀ (j : Nat) (x : WebRequest), j ≠ i → s.requests[j]? = some x →
      Settled l s.now x ∧ Apart s.limiter.window r' x) :
    WebInv { s with limiter := l, requests := s.requests.set i r' } where
  stamped := hl
  settled j x hx := by
    rcases getElem?_set_cases hx with ⟨rfl, rfl⟩ | ⟨hj, hx⟩
    · exact hown
    · exact (hothers j x hj hx).1
  apart := by
    simp only [hw]
    exact Pairs.set (fun _ _ => Apart.symm) h.apart fun j x hj hx => (hothers j x hj hx).2

theorem Settled.mono {l : RateLimiter} {now now' : Nat} (h : Settled l now r) (hle : now ≤ now') :
    Settled l now' r where
  past t ht := (h.past t ht).trans hle
  recorded := h.recorded
  clear hf last hlast := by
    apply (h.clear hf last hlast).trans
    unfold WebPhase.since
    cases r.phase.submission <;> simp [hle]

/-- Recording another address leaves a request as it was. -/
theorem Settled.record_other {l : RateLimiter} {now n : Nat} {a : String} (h : Settled l now r)
    (ha : r.address ≠ a) : Settled (l.record a n) now r := by
  have hlast := l.last_record_other ha n
  exact ⟨h.past, by rw [hlast]; exact h.recorded, by rw [hlast]; exact h.clear⟩

/-- Recording a later instant for its own address leaves a request that is not in flight as it
was. -/
theorem Settled.record_self {l : RateLimiter} {now : Nat} (h : Settled l now r)
    (hf : r.phase.inFlight = false) : Settled (l.record r.address now) now r where
  past := h.past
  recorded _ t ht := ⟨now, RateLimiter.last_record_self .., h.past t ht⟩
  clear h := by simp [hf] at h

/-! ### The actions of one request -/

section Actions

variable {i : Nat}

/-- Next to a request in flight the others of its address are not. -/
theorem WebInv.others_idle (h : WebInv s) (hi : s.requests[i]? = some r)
    (hfl : r.phase.inFlight = true) {j : Nat} {x : WebRequest} (hj : j ≠ i)
    (hx : s.requests[j]? = some x) (ha : r.address = x.address) : x.phase.inFlight = false := by
  by_contra hf
  rw [Bool.not_eq_false] at hf
  exact (h.apart i j r x hj.symm hi hx).exclusive ha ⟨hfl, hf⟩

/-- `check` passes: no other request of the address is in flight. -/
theorem WebInv.check (h : WebInv s) (hi : s.requests[i]? = some r)
    (hn : NoOverlap s (.act i .check)) (hc : s.limiter.check r.address s.now = .allowed) :
    WebInv { s with requests := s.requests.set i { r with phase := .signing } } := by
  have hallowed := (RateLimiter.check_allowed_iff (h.stamped r.address)).1 hc
  have hown : Settled s.limiter s.now { r with phase := .signing } :=
    ⟨by simp [WebPhase.submission], by simp [WebPhase.inFlight], fun _ => hallowed⟩
  refine h.replace rfl h.stamped hown fun j x _ hx => ⟨h.settled j x hx, ?_, ?_⟩
  · rintro ha ⟨-, hf⟩
    rw [hn r hi x (List.mem_of_getElem? hx) ha.symm] at hf
    cases hf
  · intro _ t ht
    cases ht

/-- Submission: the other submissions of the address are recorded, a window ago or more. -/
theorem WebInv.submit (h : WebInv s) (hi : s.requests[i]? = some r) (hp : r.phase = .signing)
    (txHash : String) :
    WebInv { s with requests := s.requests.set i { r with phase := .submitted s.now txHash } } := by
  have hfl : r.phase.inFlight = true := by rw [hp]; rfl
  have hclear : ∀ last ∈ s.limiter.last r.address, last + s.limiter.window ≤ s.now := by
    intro last hlast
    have := (h.settled i r hi).clear hfl last hlast
    rw [hp] at this
    exact this
  have hown : Settled s.limiter s.now { r with phase := .submitted s.now txHash } :=
    ⟨by simp [WebPhase.submission], by simp [WebPhase.inFlight], fun _ => hclear⟩
  refine h.replace rfl h.stamped hown fun j x hj hx => ⟨h.settled j x hx, ?_, ?_⟩
  · rintro ha ⟨-, hf⟩
    rw [h.others_idle hi hfl hj hx ha] at hf
    cases hf
  · intro ha t ht t' ht'
    cases ht
    have hidle : x.phase.inFlight = false := h.others_idle hi hfl hj hx ha
    obtain ⟨last, hlast, hle⟩ := (h.settled j x hx).recorded hidle t' ht'
    have hlate : last + s.limiter.window ≤ s.now := hclear last (ha ▸ hlast)
    exact .inr (by omega)

/-- `Signer::drip` returns: the same submission, still in flight. -/
theorem WebInv.dripOk (h : WebInv s) (hi : s.requests[i]? = some r) {time : Nat} {txHash : String}
    (hp : r.phase = .submitted time txHash) (receipt : DripReceipt) :
    WebInv { s with requests := s.requests.set i { r with phase := .dripped time receipt } } := by
  have hr := h.settled i r hi
  have hsub : r.phase.submission = some time := by rw [hp]; rfl
  have hfl : r.phase.inFlight = true := by rw [hp]; rfl
  have hclear := hr.clear hfl
  rw [hp] at hclear
  have hown : Settled s.limiter s.now { r with phase := .dripped time receipt } :=
    ⟨fun t ht => hr.past t (hsub ▸ ht), by simp [WebPhase.inFlight], fun _ => hclear⟩
  refine h.replace rfl h.stamped hown fun j x hj hx => ⟨h.settled j x hx, ?_, ?_⟩
  · rintro ha ⟨-, hf⟩
    rw [h.others_idle hi hfl hj hx ha] at hf
    cases hf
  · intro ha t ht
    exact (h.apart i j r x hj.symm hi hx).spaced ha t (hsub ▸ ht)

/-- `record`: the address has no other request in flight that the new entry could trouble. -/
theorem WebInv.record (h : WebInv s) (hi : s.requests[i]? = some r) {time : Nat}
    {receipt : DripReceipt} (hp : r.phase = .dripped time receipt) (response : DripResponse) :
    WebInv { s with
      limiter := s.limiter.record r.address s.now
      requests := s.requests.set i { r with phase := .recorded time response } } := by
  have hr := h.settled i r hi
  have hsub : r.phase.submission = some time := by rw [hp]; rfl
  have hfl : r.phase.inFlight = true := by rw [hp]; rfl
  have hstamped : ∀ a, ∀ last ∈ (s.limiter.record r.address s.now).last a, last ≤ s.now := by
    intro a last hlast
    by_cases ha : a = r.address
    · subst ha
      rw [RateLimiter.last_record_self] at hlast
      cases hlast
      exact le_rfl
    · rw [RateLimiter.last_record_other _ ha] at hlast
      exact h.stamped a last hlast
  refine h.replace rfl hstamped ⟨fun t ht => hr.past t (hsub ▸ ht), ?_, by simp [WebPhase.inFlight]⟩
    fun j x hj hx => ⟨?_, ?_, fun ha t ht =>
      (h.apart i j r x hj.symm hi hx).spaced ha t (hsub ▸ ht)⟩
  · intro _ t ht
    exact ⟨s.now, RateLimiter.last_record_self .., hr.past t (hsub ▸ ht)⟩
  · by_cases ha : r.address = x.address
    · rw [ha]
      exact (h.settled j x hx).record_self (h.others_idle hi hfl hj hx ha)
    · exact (h.settled j x hx).record_other fun e => ha e.symm
  · rintro _ ⟨hb, -⟩
    cases hb

end Actions

/-- **Step lemma**: a step that meets `NoOverlap` keeps the invariant. -/
theorem webInv_step {e : WebEvent} (h : WebInv s) (hn : NoOverlap s e)
    (he : webStep dripAmount s e = some s') : WebInv s' := by
  cases e with
  | tick elapsed =>
    cases he
    exact ⟨fun a last hl => (h.stamped a last hl).trans (Nat.le_add_right ..),
      fun i r hi => (h.settled i r hi).mono (Nat.le_add_right ..), h.apart⟩
  | receive address =>
    cases he
    -- the new request is idle, the old ones keep their places
    refine ⟨h.stamped, fun i r hi => ?_, ?_⟩
    · rcases getElem?_snoc_cases hi with hi | ⟨-, rfl⟩
      · exact h.settled i r hi
      · exact settled_of_idle rfl rfl
    · exact Pairs.snoc (fun _ _ => Apart.symm) h.apart fun _ => apart_of_idle rfl rfl
  | act i a =>
    simp only [webStep, Option.bind_eq_some_iff, Option.map_eq_some_iff, Prod.exists] at he
    obtain ⟨r, hi, l, p, hadv, rfl⟩ := he
    rcases WebRequest.advance_cases hadv with ⟨rfl, hsub, hfl⟩ | ⟨rfl, hp, hc, rfl, rfl⟩ |
      ⟨txHash, hp, rfl, rfl⟩ | ⟨time, txHash, receipt, hp, rfl, rfl⟩ |
      ⟨time, receipt, response, -, hp, rfl, rfl⟩
    · exact h.replace rfl h.stamped (settled_of_idle hsub hfl) fun j x _ hx =>
        ⟨h.settled j x hx, apart_of_idle hsub hfl⟩
    · exact h.check hi hn hc
    · exact h.submit hi hp txHash
    · exact h.dripOk hi hp receipt
    · exact h.record hi hp response

/-! ## Whole runs -/

/-- Under the invariant, a `check` that runs while another request of its address is in flight
passes, and both are then in flight. -/
theorem overlap_not_exclusive {e : WebEvent} (h : WebInv s) (hn : ¬ NoOverlap s e)
    (he : webStep dripAmount s e = some s') : ¬ s'.Exclusive := by
  obtain ⟨i, rfl⟩ : ∃ i, e = .act i .check := by
    unfold NoOverlap at hn
    split at hn
    · exact ⟨_, rfl⟩
    · exact absurd trivial hn
  simp only [NoOverlap, not_forall, Option.mem_def] at hn
  obtain ⟨r, hi, x, hx, ha, hf⟩ := hn
  simp only [Bool.not_eq_false] at hf
  obtain ⟨j, hj⟩ := List.getElem?_of_mem hx
  simp only [webStep, hi, Option.bind_some, Option.map_eq_some_iff, Prod.exists] at he
  obtain ⟨l, p, hadv, rfl⟩ := he
  have hphase : r.phase = .received := by
    cases hp : r.phase <;> simp [WebRequest.advance, hp] at hadv ⊢
  -- the request in flight was let through a whole window after the last record
  have hallowed : s.limiter.check r.address s.now = .allowed := by
    apply (RateLimiter.check_allowed_iff (h.stamped r.address)).2
    intro last hlast
    have hclear := (h.settled j x hj).clear hf last (ha ▸ hlast)
    have hpast := (h.settled j x hj).past
    apply hclear.trans
    unfold WebPhase.since
    cases hs : x.phase.submission with
    | none => exact le_rfl
    | some t => exact hpast t hs
  have hp : p = .signing := by
    simp only [WebRequest.advance, hphase, hallowed, Option.some.injEq, Prod.mk.injEq] at hadv
    exact hadv.2.symm
  have hij : i ≠ j := by
    rintro rfl
    cases hi.symm.trans hj
    simp [hphase, WebPhase.inFlight] at hf
  intro hex
  refine hex i j { r with phase := p } x hij ?_ ?_ ha.symm ⟨by rw [hp]; rfl, hf⟩
  · simp [(List.getElem?_eq_some_iff.1 hi).1]
  · simp [hij, hj]

theorem noOverlap_of_exclusive {es : List WebEvent} (h : WebInv s)
    (hrun : exec (webStep dripAmount) s es = some t)
    (hex : ∀ es₁ es₂ m, es = es₁ ++ es₂ → exec (webStep dripAmount) s es₁ = some m →
      m.Exclusive) : Along (webStep dripAmount) NoOverlap s es := by
  induction es generalizing s with
  | nil => trivial
  | cons e es ih =>
    obtain ⟨m, hm, ht⟩ := exec_cons_eq_some.1 hrun
    have hn : NoOverlap s e := by
      by_contra hn
      refine overlap_not_exclusive h hn hm (hex [e] es m rfl ?_)
      simp [exec, hm]
    refine ⟨hn, fun m' hm' => ?_⟩
    cases hm.symm.trans hm'
    apply ih (webInv_step h hn hm) ht
    intro es₁ es₂ m₂ he hes₁
    exact hex (e :: es₁) es₂ m₂ (by rw [he]; rfl) (exec_cons_eq_some.2 ⟨m, hm, hes₁⟩)

/-- **One drip per window.** Along a run of the web faucet, in every state passed through the
drips of each address are a window apart and none of its requests is between `check` and `record`
at the same time as another, exactly if no `check` is run while a request for the same address is
in flight. -/
theorem spaced_and_exclusive_iff_noOverlap (window now : Nat) {es : List WebEvent}
    (hrun : exec (webStep dripAmount) (WebState.start window now) es = some t) :
    (∀ es₁ es₂ m, es = es₁ ++ es₂ →
      exec (webStep dripAmount) (WebState.start window now) es₁ = some m →
        m.Spaced ∧ m.Exclusive) ↔
      Along (webStep dripAmount) NoOverlap (WebState.start window now) es := by
  constructor
  · intro hall
    exact noOverlap_of_exclusive (webInv_start window now) hrun
      fun es₁ es₂ m he hm => (hall es₁ es₂ m he hm).2
  · intro hn es₁ es₂ m he hm
    subst he
    have hinv : WebInv m := exec_invariant_along (fun _ _ _ h hn he => webInv_step h hn he)
      (webInv_start window now) ((along_append hm).1 hn).1 hm
    exact ⟨hinv.spaced, hinv.exclusive⟩

/-- Two requests for one address, one after the other, an hour apart. -/
def politeRun : List WebEvent :=
  [.receive "lig1a", .receive "lig1a", .act 0 .check, .act 0 (.submit "ltx1x"), .act 0 .dripOk,
    .act 0 .record, .tick 3600000000000, .act 1 .check, .act 1 (.submit "ltx1y"), .act 1 .dripOk,
    .act 1 .record]

theorem politeRun_spaced :
    ∃ t, exec (webStep 5) (WebState.start 3600000000000 0) politeRun = some t ∧
      t.Spaced ∧ t.Exclusive := by
  refine ⟨_, rfl, ?_⟩
  have hpolite : Along (webStep 5) NoOverlap (WebState.start 3600000000000 0) politeRun := by
    decide
  exact (spaced_and_exclusive_iff_noOverlap 3600000000000 0 rfl).2 hpolite politeRun [] _
    (List.append_nil _).symm rfl

/-- Both requests pass `check` before either executes `record`, and both drips are submitted at
the same instant. -/
theorem overlapping_checks_drip_twice :
    ∃ t, exec (webStep 5) (WebState.start 3600000000000 0)
        [.receive "lig1a", .receive "lig1a", .act 0 .check, .act 1 .check,
          .act 0 (.submit "ltx1x"), .act 1 (.submit "ltx1y"), .act 0 .dripOk, .act 1 .dripOk,
          .act 0 .record, .act 1 .record] = some t ∧
      ¬ t.Spaced := by
  refine ⟨_, rfl, fun h => ?_⟩
  have := h 0 1 _ _ (by decide) rfl rfl rfl rfl rfl 0 rfl 0 rfl
  exact absurd this (by decide)

end LigateApi.Drip
