import LigateApi.Drip.DripStatus
import LigateApi.Drip.Verify.Limiter
import LigateApi.Drip.Verify.RetryHint

/-!
# The status foretells the drip

What the status says of an address is what `POST /v1/drip` will do: unless a drip to it is recorded
meanwhile, the address is let through from the instant shown on and not before, up to the time
between the two clock readings (`Foretells`). The number of addresses is that of the addresses
answered with 200 (`Served`).
-/

namespace LigateApi.Drip

open Lib.Run

/-! ## Addresses served -/

section Served

variable {dripAmount : Nat} {s s' : WebState} {requests : List WebRequest} {r r' : WebRequest}
  {i : Nat} {a : String}

/-- Answered with 200. -/
def WebPhase.answered : WebPhase → Bool
  | .recorded _ _ => true
  | _ => false

/-- The addresses with an answer of 200, one for each answer. -/
def WebState.servedAddresses (s : WebState) : List String :=
  (s.requests.filter fun r => r.phase.answered).map WebRequest.address

theorem mem_servedAddresses :
    a ∈ s.servedAddresses ↔ ∃ r ∈ s.requests, r.address = a ∧ r.phase.answered = true := by
  simp only [WebState.servedAddresses, List.mem_map, List.mem_filter]
  constructor
  · rintro ⟨r, ⟨hr, hans⟩, ha⟩
    exact ⟨r, hr, ha, hans⟩
  · rintro ⟨r, hr, ha, hans⟩
    exact ⟨r, ⟨hr, hans⟩, ha⟩

/-- The limiter has an entry for the addresses served, and for no other. -/
def WebState.Served (s : WebState) : Prop :=
  ∀ a, (s.limiter.last a).isSome ↔ a ∈ s.servedAddresses

/-- An answer is final. -/
theorem not_answered_of_advance {l l' : RateLimiter} {now : Nat} {act : WebAct} {p : WebPhase}
    (h : r.advance dripAmount now l act = some (l', p)) : r.phase.answered = false := by
  cases hp : r.phase with
  | recorded time response => cases act <;> simp [WebRequest.advance, hp] at h
  | received | signing | submitted time txHash | dripped time receipt | refused response => rfl

/-- A request that had no answer of 200 takes a step. -/
theorem exists_answered_set (hi : requests[i]? = some r) (hr : r.phase.answered = false) :
    (∃ q ∈ requests.set i r', q.address = a ∧ q.phase.answered = true) ↔
      (r'.address = a ∧ r'.phase.answered = true) ∨
        ∃ q ∈ requests, q.address = a ∧ q.phase.answered = true := by
  have hlt : i < requests.length := (List.getElem?_eq_some_iff.1 hi).1
  constructor
  · rintro ⟨q, hq, ha, hans⟩
    rcases List.mem_or_eq_of_mem_set hq with hq | rfl
    · exact .inr ⟨q, hq, ha, hans⟩
    · exact .inl ⟨ha, hans⟩
  · rintro (⟨ha, hans⟩ | ⟨q, hq, ha, hans⟩)
    · exact ⟨r', List.mem_set hlt r', ha, hans⟩
    · obtain ⟨j, hj⟩ := List.getElem?_of_mem hq
      have hne : i ≠ j := by
        rintro rfl
        obtain rfl : r = q := Option.some.inj (hi.symm.trans hj)
        rw [hr] at hans
        cases hans
      refine ⟨q, List.mem_of_getElem? ((List.getElem?_set_ne hne).trans hj), ha, hans⟩

theorem served_step {e : WebEvent} (hs : s.Served) (h : webStep dripAmount s e = some s') :
    s'.Served := by
  intro a
  rw [mem_servedAddresses]
  have hold := (hs a).trans mem_servedAddresses
  cases e with
  | tick elapsed =>
    cases h
    exact hold
  | receive address =>
    cases h
    rw [hold]
    constructor
    · rintro ⟨q, hq, hqa⟩
      exact ⟨q, List.mem_append_left _ hq, hqa⟩
    · rintro ⟨q, hq, ha, hans⟩
      rcases List.mem_append.1 hq with hq | hq
      · exact ⟨q, hq, ha, hans⟩
      · rw [List.mem_singleton.1 hq] at hans
        cases hans
  | act i act =>
    simp only [webStep, Option.bind_eq_some_iff, Option.map_eq_some_iff, Prod.exists] at h
    obtain ⟨r, hi, l, p, hadv, rfl⟩ := h
    rw [exists_answered_set hi (not_answered_of_advance hadv), ← hold]
    rcases WebRequest.advance_cases hadv with ⟨rfl, hnone, -⟩ | ⟨-, -, -, rfl, rfl⟩ |
      ⟨txHash, -, rfl, rfl⟩ | ⟨time, txHash, receipt, -, rfl, rfl⟩ |
      ⟨time, receipt, response, -, -, rfl, rfl⟩
    · have hp : p.answered = false := by
        cases p with
        | recorded time response => cases hnone
        | received | signing | submitted time txHash | dripped time receipt | refused response => rfl
      simp [hp]
    · simp [WebPhase.answered]
    · simp [WebPhase.answered]
    · simp [WebPhase.answered]
    · by_cases ha : a = r.address
      · subst ha
        simp [WebPhase.answered]
      · rw [RateLimiter.last_record_other _ ha]
        simp [Ne.symm ha]

theorem dripCount_served (hs : s.Served) :
    s.limiter.dripCount = s.servedAddresses.toFinset.card :=
  RateLimiter.dripCount_eq_card hs

end Served

/-! ## The forecast -/

section Forecast

variable {env : StatusEnv} {dripAmount offset lag : Nat} {s : WebState} {address : String}

/-- The answer tells when the address is let through, unless a drip to it is recorded meanwhile.
The calendar is `offset` ahead of the clock of the limiter, and was read `lag` later. -/
structure Foretells (env : StatusEnv) (dripAmount offset lag : Nat) (s : WebState)
    (address : String) (body : AddressDripStatusResponse) : Prop where
  free : body.canDrip = true → body.nextDripAt = none ∧
    ∀ fs t, Along (webStep dripAmount) (NoRecordOf address) s fs →
      exec (webStep dripAmount) s fs = some t → t.limiter.check address t.now = .allowed
  held : body.canDrip = false → ∃ clear : Nat,
    body.nextDripAt = some (env.toRfc3339 ((clear + lag : Nat) / 1000000)) ∧
      s.now + offset < clear ∧ clear ≤ s.now + offset + s.limiter.window ∧
        ∀ fs t, Along (webStep dripAmount) (NoRecordOf address) s fs →
          exec (webStep dripAmount) s fs = some t →
          (t.limiter.check address t.now = .allowed ↔ clear ≤ t.now + offset)

/-- Without a further drip the limiter lets the address through a window after its last one. -/
theorem check_later {t : WebState} {fs : List WebEvent} (hs : s.Stamped)
    (hno : Along (webStep dripAmount) (NoRecordOf address) s fs)
    (hrun : exec (webStep dripAmount) s fs = some t) :
    t.limiter.check address t.now = .allowed ↔
      ∀ last, s.limiter.last address = some last → last + s.limiter.window ≤ t.now := by
  obtain ⟨hlast, hwindow, -⟩ := last_of_noRecord hno hrun
  have ht : t.Stamped := exec_invariant (fun _ _ _ h he => stamped_step h he) hs hrun
  rw [RateLimiter.check_allowed_iff fun last h => ht address last h, hlast, hwindow]

theorem foretells_dripStatus (hs : s.Stamped) (hne : address ≠ "")
    (hfits : ((s.now + offset + lag + s.limiter.window : Nat) : Int) ≤ chronoMax) :
    ∃ body, dripStatus env s.limiter s.now (s.now + offset + lag : Nat) (some address) =
        some (.perAddress body) ∧ Foretells env dripAmount offset lag s address body := by
  have haddr : (some address).filter (fun s => s ≠ "") = some address := by simp [hne]
  simp only [dripStatus, haddr]
  cases hpeek : s.limiter.peek address s.now with
  | allowed =>
    refine ⟨_, rfl, fun _ => ⟨rfl, fun fs t hno hrun => ?_⟩, fun hfalse => by cases hfalse⟩
    rw [check_later hs hno hrun]
    intro last hlast
    have hopen := (RateLimiter.check_allowed_iff fun last h => hs address last h).1 hpeek last hlast
    exact hopen.trans (last_of_noRecord hno hrun).2.2
  | blocked retryAfter =>
    obtain ⟨last, hlast, hinside, rfl⟩ :=
      (RateLimiter.check_blocked_iff fun last h => hs address last h).1 hpeek
    have hpast : last ≤ s.now := hs address last hlast
    have hstd : fromStd (last + s.limiter.window - s.now) =
        some (last + s.limiter.window - s.now) := by
      rw [fromStd, if_pos]
      simp only [chronoMax] at hfits
      omega
    have hnext : ((s.now + offset + lag : Nat) : Int) + (last + s.limiter.window - s.now : Nat) =
        (last + s.limiter.window + offset + lag : Nat) := by omega
    simp only [hstd, Option.getD_some, hnext]
    rw [if_pos (by omega)]
    refine ⟨_, rfl, (fun hfalse => by cases hfalse), fun _ => ?_⟩
    refine ⟨last + s.limiter.window + offset, rfl, by omega, by omega, fun fs t hno hrun => ?_⟩
    rw [check_later hs hno hrun]
    constructor
    · intro h
      have hclear := h last hlast
      omega
    · intro h last' hlast'
      obtain rfl : last = last' := Option.some.inj (hlast.symm.trans hlast')
      omega

/-- **The status foretells the drip.** -/
theorem drip_status_foretells {window now : Nat} {es : List WebEvent}
    (hrun : exec (webStep dripAmount) (.start window now) es = some s)
    (hfits : ((s.now + offset + lag + window : Nat) : Int) ≤ chronoMax) :
    (∀ address, address ≠ "" →
      ∃ body, dripStatus env s.limiter s.now (s.now + offset + lag : Nat) (some address) =
        some (.perAddress body) ∧ Foretells env dripAmount offset lag s address body) ∧
      ∀ query, query = none ∨ query = some "" →
        dripStatus env s.limiter s.now (s.now + offset + lag : Nat) query =
          some (.global
            { dripAmountNano := env.dripAmount, rateLimitSecs := env.dripRateLimitSecs,
              addressesDripped := s.servedAddresses.toFinset.card,
              faucetAddress := env.faucetAddress }) := by
  have hstamped : s.Stamped := by
    refine exec_invariant (fun _ _ _ h he => stamped_step h he) ?_ hrun
    rintro a last ⟨⟩
  have hserved : s.Served := by
    refine exec_invariant (fun _ _ _ h he => served_step h he) ?_ hrun
    intro a
    exact iff_of_false Bool.false_ne_true List.not_mem_nil
  have hwindow : s.limiter.window = window := by
    refine exec_invariant (I := fun s => s.limiter.window = window) (fun s e s' h he => ?_) rfl hrun
    obtain ⟨-, hsame | ⟨_, _, -, -, -, hrec⟩⟩ := webStep_cases he
    · rw [hsame, h]
    · rw [hrec]
      exact h
  refine ⟨fun address hne => foretells_dripStatus hstamped hne (hwindow.symm ▸ hfits), ?_⟩
  rintro query (rfl | rfl)
  · simp only [dripStatus, Option.filter_none, dripCount_served hserved]
  · have hempty : (some "").filter (fun s => s ≠ "") = none := rfl
    simp only [dripStatus, hempty, dripCount_served hserved]

end Forecast

/-- Half an hour after its drip an address has half an hour to wait. -/
theorem drip_status_foretells_half_an_hour : ∃ s,
    exec (webStep 5) (WebState.start 3600000000000 0) (dripAndReturn 1800000000000) = some s ∧
      s.servedAddresses = ["lig1a"] ∧
      ∃ body, dripStatus ⟨5, 3600, "lig1f", toString⟩ s.limiter s.now
          (s.now + 1700000000000000000 + 1000 : Nat) (some "lig1a") = some (.perAddress body) ∧
        body = ⟨false, some "1700003600000"⟩ ∧
        Foretells ⟨5, 3600, "lig1f", toString⟩ 5 1700000000000000000 1000 s "lig1a" body := by
  obtain ⟨s, hs⟩ : ∃ s, exec (webStep 5) (WebState.start 3600000000000 0)
      (dripAndReturn 1800000000000) = some s := ⟨_, rfl⟩
  obtain ⟨hforetold, -⟩ := @drip_status_foretells ⟨5, 3600, "lig1f", toString⟩ 5
    1700000000000000000 1000 s 3600000000000 0 _ hs (by cases hs; decide)
  obtain ⟨body, hbody, hforetells⟩ := hforetold "lig1a" (by decide)
  refine ⟨s, hs, by cases hs; rfl, body, hbody, ?_, hforetells⟩
  have hshown : dripStatus ⟨5, 3600, "lig1f", toString⟩ s.limiter s.now
      (s.now + 1700000000000000000 + 1000 : Nat) (some "lig1a") =
        some (.perAddress ⟨false, some "1700003600000"⟩) := by
    cases hs
    decide
  rw [hbody] at hshown
  exact DripStatusBody.perAddress.inj (Option.some.inj hshown)

end LigateApi.Drip
