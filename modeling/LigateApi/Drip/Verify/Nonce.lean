import LigateApi.Drip.Signer

/-!
# The nonce counter against the chain

The counter moves when a nonce is reserved, the chain's next nonce when a transaction is accepted.
`drift` is the difference the calls in flight do not explain: it stays put while every submission
reaches the chain in its turn and grows by one, for good, with every submission that is lost or
arrives out of turn (`drift_step`, `drift_run`). `nonce_eq_chain_iff_inTurn` reads off when a quiet
faucet is in step with the chain.
-/

namespace LigateApi.Drip

open Lib.Run

variable {Key Addr Token : Type} {sdk : Sdk Key Addr} {s s' t : FaucetState Key Addr Token}

/-- The call holds a nonce the chain has not seen. -/
def Call.isReserved (call : Call Addr Token) : Bool := call.phase.reserved.isSome

/-- The counter's lead over the chain beyond the nonces that are still under way. -/
def FaucetState.drift (s : FaucetState Key Addr Token) : UInt64 :=
  s.signer.nonce - s.chainNonce - UInt64.ofNat (s.calls.countP Call.isReserved)

/-- The submission reaches the chain, and when it does it carries the chain's next nonce. -/
def InTurn (s : FaucetState Key Addr Token) : FaucetEvent → Prop
  | .drip _ _ => True
  | .call _ (.encodeError _) => False
  | .call _ (.submitError _) => False
  | .call i (.arrive _) =>
    ∀ call ∈ s.calls[i]?, ∀ nonce ∈ call.phase.reserved, nonce = s.chainNonce
  | .call _ .pollDone => True

instance (s : FaucetState Key Addr Token) : ∀ e, Decidable (InTurn s e)
  | .drip _ _ => .isTrue trivial
  | .call _ (.encodeError _) => .isFalse id
  | .call _ (.submitError _) => .isFalse id
  | .call i (.arrive _) =>
    -- by hand: the search may find the one that tries all nonces
    have (call : Call Addr Token) :
        Decidable (∀ nonce ∈ call.phase.reserved, nonce = s.chainNonce) :=
      Option.decidableForallMem _
    Option.decidableForallMem s.calls[i]?
  | .call _ .pollDone => .isTrue trivial

/-! ## One event of a call -/

/-- Every event of a call either moves no nonce, or is an acceptance, or burns the nonce. -/
theorem Call.advance_cases {c c' : UInt64} {call : Call Addr Token} {e : CallEvent}
    {p : CallPhase Addr Token} (h : call.advance c e = some (c', p)) :
    (e = .pollDone ∧ call.phase.reserved = none ∧ p.reserved = none ∧ c' = c) ∨
    (∃ reply, e = .arrive reply ∧ call.phase.reserved = some c ∧ p.reserved = none ∧ c' = c + 1) ∨
    (∃ n, call.phase.reserved = some n ∧ p.reserved = none ∧ c' = c ∧
      (∀ reply, e = .arrive reply → n ≠ c) ∧ e ≠ .pollDone) := by
  cases hp : call.phase with
  | submitting tx =>
    cases e with
    | encodeError msg =>
      simp only [advance, hp, Option.some.injEq, Prod.mk.injEq] at h
      obtain ⟨rfl, rfl⟩ := h
      exact .inr (.inr ⟨tx.nonce, rfl, rfl, rfl, by simp, by simp⟩)
    | submitError msg =>
      simp only [advance, hp, Option.some.injEq, Prod.mk.injEq] at h
      obtain ⟨rfl, rfl⟩ := h
      exact .inr (.inr ⟨tx.nonce, rfl, rfl, rfl, by simp, by simp⟩)
    | arrive reply =>
      simp only [advance, hp] at h
      split at h
      · rename_i hn
        simp only [Option.some.injEq, Prod.mk.injEq] at h
        obtain ⟨rfl, rfl⟩ := h
        exact .inr (.inl ⟨reply, rfl, by simp [CallPhase.reserved, hn], rfl, rfl⟩)
      · rename_i hn
        simp only [Option.some.injEq, Prod.mk.injEq] at h
        obtain ⟨rfl, rfl⟩ := h
        exact .inr (.inr ⟨tx.nonce, rfl, rfl, rfl, fun _ _ => hn, by simp⟩)
    | pollDone => simp [advance, hp] at h
  | polling txHash =>
    cases e with
    | pollDone =>
      simp only [advance, hp, Option.some.injEq, Prod.mk.injEq] at h
      obtain ⟨rfl, rfl⟩ := h
      exact .inl ⟨rfl, rfl, rfl, rfl⟩
    | _ => simp [advance, hp] at h
  | returned r => cases e <;> simp [advance, hp] at h

/-- The reserved calls after one call moves on to a phase without a reserved nonce. -/
theorem countP_set_released {calls : List (Call Addr Token)} {i : Nat} {call : Call Addr Token}
    {p : CallPhase Addr Token} (hi : calls[i]? = some call) (hp : p.reserved = none) :
    (calls.set i { call with phase := p }).countP Call.isReserved +
      (if call.isReserved then 1 else 0) = calls.countP Call.isReserved := by
  obtain ⟨hlt, rfl⟩ := List.getElem?_eq_some_iff.1 hi
  rw [List.countP_set hlt]
  have hnew : Call.isReserved { calls[i] with phase := p } = false := by
    simp [Call.isReserved, hp]
  have hpos : calls[i].isReserved = true → 0 < calls.countP Call.isReserved := fun h =>
    List.countP_pos_iff.2 ⟨_, List.getElem_mem hlt, h⟩
  rw [hnew]
  split
  · rename_i h
    have := hpos h
    simp
    omega
  · simp

/-! ## One step -/

/-- A step leaves the drift alone if it is in turn, and adds one to it otherwise. -/
theorem drift_step {e : FaucetEvent} (h : faucetStep sdk s e = some s') :
    (InTurn s e ∧ s'.drift = s.drift) ∨ (¬ InTurn s e ∧ s'.drift = s.drift + 1) := by
  cases e with
  | drip recipient amount =>
    refine .inl ⟨trivial, ?_⟩
    unfold faucetStep Signer.begin at h
    cases hp : sdk.parseAddress recipient with
    | error e =>
      simp only [hp, Option.some.injEq] at h
      subst h
      simp [FaucetState.drift, Call.isReserved, CallPhase.reserved]
    | ok a =>
      simp only [hp, Option.some.injEq] at h
      subst h
      simp only [FaucetState.drift, List.countP_append, List.countP_singleton, Call.isReserved,
        CallPhase.reserved, Option.isSome_some, if_true, UInt64.ofNat_add]
      grind
  | call i e =>
    simp only [faucetStep, Option.bind_eq_some_iff, Option.map_eq_some_iff, Prod.exists] at h
    obtain ⟨call, hi, c', p, hadv, rfl⟩ := h
    rcases Call.advance_cases hadv with ⟨rfl, hr, hp, rfl⟩ | ⟨reply, rfl, hr, hp, rfl⟩ |
      ⟨n, hr, hp, rfl, hne, hpoll⟩
    · have hcount := countP_set_released hi hp
      rw [if_neg (by simp [Call.isReserved, hr])] at hcount
      refine .inl ⟨trivial, ?_⟩
      simp only [FaucetState.drift, ← hcount, Nat.add_zero]
    · have hcount := countP_set_released hi hp
      rw [if_pos (by simp [Call.isReserved, hr])] at hcount
      refine .inl ⟨?_, ?_⟩
      · intro call' hcall' nonce hnonce
        cases hi.symm.trans hcall'
        cases hr.symm.trans hnonce
        rfl
      · simp only [FaucetState.drift, ← hcount, UInt64.ofNat_add]
        grind
    · have hcount := countP_set_released hi hp
      rw [if_pos (by simp [Call.isReserved, hr])] at hcount
      refine .inr ⟨?_, ?_⟩
      · cases e with
        | encodeError msg => exact id
        | submitError msg => exact id
        | arrive reply => exact fun hturn => hne reply rfl (hturn call hi n hr)
        | pollDone => exact absurd rfl hpoll
      · simp only [FaucetState.drift, ← hcount, UInt64.ofNat_add]
        grind

/-! ## Whole runs -/

/-- The drift at the end of a run counts the steps out of turn. -/
theorem drift_run {es : List FaucetEvent} (h : exec (faucetStep sdk) s es = some t) :
    ∃ burned ≤ es.length, t.drift = s.drift + UInt64.ofNat burned ∧
      (burned = 0 ↔ Along (faucetStep sdk) InTurn s es) := by
  induction es generalizing s with
  | nil =>
    rw [exec_nil, Option.some.injEq] at h
    subst h
    exact ⟨0, le_rfl, by simp, by simp [Along]⟩
  | cons e es ih =>
    obtain ⟨m, hm, ht⟩ := exec_cons_eq_some.1 h
    obtain ⟨b, hb, hd, hz⟩ := ih ht
    rcases drift_step hm with ⟨hturn, hm'⟩ | ⟨hturn, hm'⟩
    · refine ⟨b, Nat.le_succ_of_le hb, by rw [hd, hm'], ?_⟩
      simp [Along, hturn, hm, hz]
    · refine ⟨b + 1, Nat.succ_le_succ hb, ?_, ?_⟩
      · rw [hd, hm', UInt64.ofNat_add]
        grind
      · simp [Along, hturn]

theorem FaucetState.Seeded.drift_eq (hs : s.Seeded) : s.drift = 0 := by
  simp [FaucetState.drift, hs.calls_nil, hs.nonce_eq]

theorem FaucetState.Quiescent.drift_eq (hq : t.Quiescent) :
    t.drift = t.signer.nonce - t.chainNonce := by
  have hzero : t.calls.countP Call.isReserved = 0 := by
    rw [List.countP_eq_zero]
    intro call hcall
    have := hq call hcall
    cases hp : call.phase <;>
      simp_all [Call.isReserved, CallPhase.reserved, CallPhase.isReturned]
  simp [FaucetState.drift, hzero]

/-- The next call of `drip` with a good address, left alone, is accepted by the chain. -/
def NextAccepted (sdk : Sdk Key Addr) (t : FaucetState Key Addr Token) : Prop :=
  ∀ recipient amount reply a, sdk.parseAddress recipient = .ok a →
    ∃ t', exec (faucetStep sdk) t
        [.drip recipient amount, .call t.calls.length (.arrive reply)] = some t' ∧
      t'.calls[t.calls.length]? = some ⟨amount, .polling reply⟩

theorem nextAccepted_of_nonce_eq (h : t.signer.nonce = t.chainNonce) : NextAccepted sdk t := by
  intro recipient amount reply a ha
  simp [exec, faucetStep, Signer.begin, ha, Call.advance, h]

/-- **In step with the chain.** A faucet that has come to rest is in step with the chain, and its
next drip is accepted, if every submission of the run reached the chain in its turn; and over fewer
events than the counter has values, only then. -/
theorem nonce_eq_chain_iff_inTurn (hseed : s.Seeded) {es : List FaucetEvent}
    (hrun : exec (faucetStep sdk) s es = some t) (hq : t.Quiescent) :
    (Along (faucetStep sdk) InTurn s es →
      t.signer.nonce = t.chainNonce ∧ NextAccepted sdk t) ∧
    (es.length < 2 ^ 64 → t.signer.nonce = t.chainNonce →
      Along (faucetStep sdk) InTurn s es) := by
  obtain ⟨burned, hle, hdrift, hzero⟩ := drift_run hrun
  rw [hseed.drift_eq, hq.drift_eq, UInt64.zero_add] at hdrift
  constructor
  · intro hturn
    rw [hzero.2 hturn] at hdrift
    have heq : t.signer.nonce = t.chainNonce := by grind
    exact ⟨heq, nextAccepted_of_nonce_eq heq⟩
  · intro hlen heq
    rw [heq, UInt64.sub_self] at hdrift
    apply hzero.1
    have hmod : burned % 2 ^ 64 = 0 := by
      simpa using (congrArg UInt64.toNat hdrift).symm
    rwa [Nat.mod_eq_of_lt (by omega)] at hmod

/-! ## A lost submission -/

/-- A stand-in SDK whose addresses are the strings that start with `lig1`. -/
def sampleSdk : Sdk Unit String where
  hexDecode _ := .ok []
  keyFromBytes _ := .ok ()
  parseAddress a := if "lig1".toList.isPrefixOf a.toList then .ok a else .error "bad bech32m"

/-- A faucet just seeded at nonce 7. -/
def sampleFaucet : FaucetState Unit String Unit where
  signer := ⟨(), "https://rpc.ligate.io/v1", [], 1, (), 7⟩
  chainNonce := 7
  calls := []

/-- Two overlapping drips whose submissions arrive in the order their nonces were taken. -/
def orderlyRun : List FaucetEvent :=
  [.drip "lig1a" 5, .drip "lig1b" 5, .drip "nonsense" 5, .call 0 (.arrive "ltx1a"),
    .call 1 (.arrive "ltx1b"), .call 1 .pollDone, .call 0 .pollDone]

theorem orderlyRun_in_step :
    ∃ t, exec (faucetStep sampleSdk) sampleFaucet orderlyRun = some t ∧ t.signer.nonce = 9 ∧
      t.signer.nonce = t.chainNonce ∧ NextAccepted sampleSdk t := by
  have hturn : Along (faucetStep sampleSdk) InTurn sampleFaucet orderlyRun := by decide
  refine ⟨_, rfl, rfl, (nonce_eq_chain_iff_inTurn ⟨rfl, rfl⟩ rfl ?_).1 hturn⟩
  simp [FaucetState.Quiescent, sampleFaucet, CallPhase.isReturned]

/-- One submission that fails before the chain sees it leaves the counter one ahead for good: the
faucet is at rest, and the chain refuses the next drip for its nonce. -/
theorem lost_submission_leaves_counter_ahead :
    ∃ t, exec (faucetStep sampleSdk) sampleFaucet
        [.drip "lig1a" 5, .call 0 (.submitError "connection reset")] = some t ∧
      sampleFaucet.Seeded ∧ t.Quiescent ∧ t.signer.nonce = 8 ∧ t.chainNonce = 7 ∧
      ∃ t', exec (faucetStep sampleSdk) t
          [.drip "lig1b" 5, .call 1 (.arrive "Tx bad nonce")] = some t' ∧
        t'.calls[1]? = some ⟨5, .returned (.error (.submitFailed "submit: Tx bad nonce"))⟩ := by
  refine ⟨_, rfl, ⟨rfl, rfl⟩, ?_, rfl, rfl, _, rfl, rfl⟩
  simp [FaucetState.Quiescent, sampleFaucet, CallPhase.isReturned]

end LigateApi.Drip
