import LigateApi.Indexer.Verify.Escrow

/-!
# One kind for many bounty events

The bounty pass collapses the events of a transaction into one kind. For claims nothing is lost:
their number and their sum depend on the claims alone, wherever they stand and whatever stands
between them. A terminal event however is reported only if it comes first and no claim is among the
events, and only then is the escrow set to zero.
-/

namespace LigateApi.Indexer

open Lib

/-! ## The tally of a batch -/

/-- The keys of the attestation module. -/
def attestationKeys : List String :=
  ["AttestationModule/AttestorSetRegistered", "AttestationModule/SchemaRegistered",
    "AttestationModule/AttestationSubmitted"]

/-- An event that is neither of the attestation module nor a claim. -/
def LedgerEvent.Neutral (ev : LedgerEvent) : Prop :=
  ev.key ∉ attestationKeys ∧ ev.key ≠ "Bounty/BountyClaimed"

section Tally

variable {codec : Codec} {serde : Serde} {events fs ns : List LedgerEvent} {ev : LedgerEvent}

theorem attestationIdOf_neutral (h : ev.Neutral) : attestationIdOf codec serde ev = none := by
  have hkeys := h.1
  simp only [attestationKeys, List.mem_cons, List.not_mem_nil, or_false, not_or] at hkeys
  obtain ⟨hset, hschema, hsubmitted⟩ := hkeys
  unfold attestationIdOf
  split
  · exact absurd ‹_› hset
  · exact absurd ‹_› hschema
  · exact absurd ‹_› hsubmitted
  · rfl

theorem claimOf_neutral (h : ev.Neutral) : claimOf serde ev = none := if_neg h.2

/-- Neutral events add no claim, and the order of the events is that of the claims. -/
theorem claimsIn_perm (hns : ∀ n ∈ ns, n.Neutral) (hperm : fs.Perm (events ++ ns)) :
    (claimsIn serde fs).Perm (claimsIn serde events) := by
  have hnone : claimsIn serde ns = [] := by
    apply List.filterMap_eq_nil_iff.2
    intro n hn
    exact claimOf_neutral (hns n hn)
  have happend : claimsIn serde (events ++ ns) = claimsIn serde events := by
    rw [claimsIn, List.filterMap_append, ← claimsIn, ← claimsIn, hnone, List.append_nil]
  rw [← happend]
  exact hperm.filterMap _

theorem attestation_none_of_perm (hns : ∀ n ∈ ns, n.Neutral) (hperm : fs.Perm (events ++ ns))
    (hatt : ∀ ev ∈ events, attestationIdOf codec serde ev = none) :
    ∀ ev ∈ fs, attestationIdOf codec serde ev = none := by
  intro ev hev
  rcases List.mem_append.1 (hperm.mem_iff.1 hev) with h | h
  · exact hatt ev h
  · exact attestationIdOf_neutral (hns ev h)

/-- The sum leaves out what is no `u128`. -/
theorem totalNano_eq (ds : List BountyClaimed) :
    totalNano ds = (ds.filterMap fun d => parseU128 d.payout).sum := by
  induction ds with
  | nil => rfl
  | cons d ds ih =>
    have hcons : totalNano (d :: ds) = d.nano + totalNano ds := List.sum_cons
    rw [hcons, ih, BountyClaimed.nano]
    cases hp : parseU128 d.payout with
    | none =>
      have hskip : ((d :: ds).filterMap fun d => parseU128 d.payout) =
          ds.filterMap fun d => parseU128 d.payout := List.filterMap_cons_none hp
      rw [hskip, Option.getD_none, Nat.zero_add]
    | some v =>
      have hkeep : ((d :: ds).filterMap fun d => parseU128 d.payout) =
          v :: ds.filterMap fun d => parseU128 d.payout := List.filterMap_cons_some hp
      rw [hkeep, List.sum_cons, Option.getD_some]

/-- What the classifier makes of events with a claim among them. -/
theorem classifyEvents_claims (hatt : ∀ ev ∈ events, attestationIdOf codec serde ev = none)
    (hclaims : claimsIn serde events ≠ []) :
    ∃ id, events.findSome? (bountyIdOf serde) = some id ∧
      classifyEvents codec serde events = .bountyEvent id
        (.claimed (UInt32.ofNat (claimsIn serde events).length)
          (toString (min (totalNano (claimsIn serde events)) (2 ^ 128 - 1)))) := by
  have hids := findSome?_notedOf serde events
  cases hfirst : events.findSome? (notedOf serde) with
  | none =>
    have hall := List.findSome?_eq_none_iff.1 hfirst
    obtain ⟨d, hd⟩ := List.exists_mem_of_ne_nil _ hclaims
    obtain ⟨ev, hev, hclaim⟩ := List.mem_filterMap.1 hd
    have hnoted := hall ev hev
    rw [notedOf, hclaim] at hnoted
    cases hnoted
  | some p =>
    obtain ⟨id, kind⟩ := p
    rw [hfirst, Option.map_some] at hids
    refine ⟨id, hids.symm, ?_⟩
    rw [classifyEvents_bounty (List.findSome?_eq_none_iff.2 hatt) hfirst, if_neg hclaims]

/-- **Batch-claim tally.** -/
theorem batch_claim_tally (hatt : ∀ ev ∈ events, attestationIdOf codec serde ev = none)
    (hclaims : claimsIn serde events ≠ []) (hfew : (claimsIn serde events).length < 2 ^ 32) :
    ∃ id count total, classifyEvents codec serde events = .bountyEvent id (.claimed count total) ∧
      count.toNat = (claimsIn serde events).length ∧
      total = toString (min (2 ^ 128 - 1)
        ((claimsIn serde events).filterMap fun d => parseU128 d.payout).sum) ∧
      events.findSome? (bountyIdOf serde) = some id ∧
      ∀ fs ns, (∀ n ∈ ns, LedgerEvent.Neutral n) → fs.Perm (events ++ ns) →
        ∃ id', classifyEvents codec serde fs = .bountyEvent id' (.claimed count total) ∧
          fs.findSome? (bountyIdOf serde) = some id' := by
  obtain ⟨id, hid, hclass⟩ := classifyEvents_claims hatt hclaims
  refine ⟨id, _, _, hclass, ?_, ?_, hid, ?_⟩
  · exact UInt32.toNat_ofNat_of_lt' hfew
  · rw [totalNano_eq, Nat.min_comm]
  · intro fs ns hns hperm
    have hsame : (claimsIn serde fs).Perm (claimsIn serde events) := claimsIn_perm hns hperm
    have hne : claimsIn serde fs ≠ [] := by
      intro hnil
      rw [hnil, List.nil_perm] at hsame
      exact hclaims hsame
    have htotal : totalNano (claimsIn serde fs) = totalNano (claimsIn serde events) :=
      (hsame.map _).sum_nat
    have hatt' : ∀ ev ∈ fs, attestationIdOf codec serde ev = none :=
      attestation_none_of_perm hns hperm hatt
    obtain ⟨id', hid', hclass'⟩ := classifyEvents_claims hatt' hne
    refine ⟨id', ?_, hid'⟩
    rw [hclass', hsame.length_eq, htotal]

end Tally

/-- Two claims after a resolved dispute. -/
def claimsOfFortyTwo : List LedgerEvent :=
  [disputeResolvedEvent, claimedEvent "30", claimedEvent "12"]

theorem claimsOfFortyTwo_tally :
    ∃ count total,
      classifyEvents marketEnv.codec marketEnv.serde claimsOfFortyTwo =
        .bountyEvent "lbt1" (.claimed count total) ∧ count.toNat = 2 ∧ total = "42" := by
  have hclaims : claimsIn marketEnv.serde claimsOfFortyTwo = [⟨"lbt1", "30"⟩, ⟨"lbt1", "12"⟩] := rfl
  have hatt : ∀ ev ∈ claimsOfFortyTwo,
      attestationIdOf marketEnv.codec marketEnv.serde ev = none := by
    intro ev hev
    simp only [claimsOfFortyTwo, List.mem_cons, List.not_mem_nil, or_false] at hev
    rcases hev with rfl | rfl | rfl <;> rfl
  obtain ⟨id, count, total, hclass, hcount, htotal, hid, -⟩ :=
    batch_claim_tally hatt (by rw [hclaims]; exact List.cons_ne_nil _ _) (by rw [hclaims]; decide)
  have hfirst : claimsOfFortyTwo.findSome? (bountyIdOf marketEnv.serde) = some "lbt1" := rfl
  rw [hfirst, Option.some.injEq] at hid
  rw [hclaims] at hcount htotal
  refine ⟨count, total, ?_, hcount, ?_⟩
  · rw [hclass, hid]
  · rw [htotal]
    decide

/-! ## A terminal event in a transaction -/

/-- The bounty events of the transaction are all of `b`, one of them is terminal, and no attestation
event takes precedence. -/
structure EndsBounty {env : Env} (b : String) (v : Visit env) : Prop where
  one_bounty : ∀ id, v.touches id → id = b
  terminates : v.terminates b = true
  unmasked : ∀ ev ∈ v.events, attestationIdOf env.codec env.serde ev = none

/-- The first decodable bounty event of the transaction is terminal. -/
def Visit.TerminalFirst {env : Env} (v : Visit env) : Prop :=
  ∃ id kind, v.events.findSome? (notedOf env.serde) = some (id, kind) ∧ kind.terminal

/-- The escrow a transaction finds: that of the row, or the pool of the record. -/
def escrowBefore (record : BountyRecord) (row : Option BountyRow) : String :=
  row.elim record.pool BountyRow.escrowRemainingNano

/-- Without claims the terminal event comes first or nothing is left before it; with claims these
take all that is left. -/
def EscrowCleared {env : Env} (v : Visit env) (escrow : String) : Prop :=
  claimsIn env.serde v.events = [] ∧ (v.TerminalFirst ∨ escrow = "0") ∨
    claimsIn env.serde v.events ≠ [] ∧
      env.numericSub escrow
        (toString (min (totalNano (claimsIn env.serde v.events)) (2 ^ 128 - 1))) = some "0"

section Terminal

variable {env : Env} {b : String} {v : Visit env} {record : BountyRecord} {db db' : Db}

theorem escrow_hydratedRow (w : TxWork) (t : List BountyRow) :
    (hydratedRow w b record t).escrowRemainingNano =
      escrowBefore record (Table.lookup BountyRow.id b t) := by
  unfold hydratedRow escrowBefore
  cases Table.lookup BountyRow.id b t with
  | none => rfl
  | some r => rfl

theorem EndsBounty.kind (hends : EndsBounty b v) :
    ∃ kind, v.events.findSome? (notedOf env.serde) = some (b, kind) ∧
      (∀ n p, kind ≠ .claimed n p) ∧
      v.work.classified.kind = .bountyEvent b
        (if claimsIn env.serde v.events = [] then kind
          else .claimed (UInt32.ofNat (claimsIn env.serde v.events).length)
            (toString (min (totalNano (claimsIn env.serde v.events)) (2 ^ 128 - 1)))) := by
  have hone : ∀ i j, v.touches i → v.touches j → i = j := by
    intro i j hi hj
    rw [hends.one_bounty i hi, hends.one_bounty j hj]
  have htouch : v.touches b := terminates_touches hends.terminates
  obtain ⟨ev, -, kind, hfirst, hnoted, hkind⟩ :=
    kind_of_touches hone (List.findSome?_eq_none_iff.2 hends.unmasked) htouch
  rw [claimsOn_of_touches hone htouch] at hkind
  refine ⟨kind, hfirst, ?_, hkind⟩
  rintro n p rfl
  exact notedOf_ne_claimed hnoted

/-- The row after a transaction without claims. -/
theorem escrow_no_claims (hends : EndsBounty b v) (hrecord : v.client.bountyAt b = .ok (some record))
    (hvisit : visit env db v = some db') (hclaims : claimsIn env.serde v.events = []) :
    ∃ row, Table.lookup BountyRow.id b db'.bounties = some row ∧
      (v.TerminalFirst ∧ row.escrowRemainingNano = "0" ∨
        ¬ v.TerminalFirst ∧ row.escrowRemainingNano =
          escrowBefore record (Table.lookup BountyRow.id b db.bounties)) := by
  obtain ⟨hfail, rfl⟩ := visit_eq_some.1 hvisit
  obtain ⟨kind, hfirst, hnc, hkind⟩ := hends.kind
  rw [if_pos hclaims] at hkind
  rcases bounties_cases hfail with ⟨hno, -⟩ | ⟨id, kind', record', hy, hstep⟩
  · exact absurd ⟨hkind, hrecord⟩ (hno b kind record)
  · obtain ⟨rfl, rfl, rfl⟩ := hy.unique ⟨hkind, hrecord⟩
    rcases lookup_bountyStep_self hstep hnc with ⟨hk, hlookup⟩ | ⟨hk, hlookup⟩
    · refine ⟨_, hlookup, .inr ⟨?_, escrow_hydratedRow v.work db.bounties⟩⟩
      intro h
      obtain ⟨i, k, hfirst', hterm⟩ := h
      rw [hfirst] at hfirst'
      cases hfirst'
      exact hk hterm
    · exact ⟨_, hlookup, .inl ⟨⟨id, kind', hfirst, hk⟩, rfl⟩⟩

/-- The row after a transaction with claims. -/
theorem escrow_claims (hends : EndsBounty b v) (hrecord : v.client.bountyAt b = .ok (some record))
    (hvisit : visit env db v = some db') (hclaims : claimsIn env.serde v.events ≠ []) :
    ∃ row, Table.lookup BountyRow.id b db'.bounties = some row ∧
      env.numericSub (escrowBefore record (Table.lookup BountyRow.id b db.bounties))
        (toString (min (totalNano (claimsIn env.serde v.events)) (2 ^ 128 - 1))) =
          some row.escrowRemainingNano := by
  obtain ⟨hfail, rfl⟩ := visit_eq_some.1 hvisit
  obtain ⟨kind, -, -, hkind⟩ := hends.kind
  rw [if_neg hclaims] at hkind
  obtain ⟨escrow, claims, hsub, -, hlookup⟩ := lookup_bounty_claimed hfail ⟨hkind, hrecord⟩
  rw [escrow_hydratedRow] at hsub
  exact ⟨_, hlookup, hsub⟩

/-- **A terminal event clears the escrow** exactly if it is not masked. -/
theorem terminal_clears_escrow_iff (hends : EndsBounty b v)
    (hrecord : v.client.bountyAt b = .ok (some record)) (hvisit : visit env db v = some db') :
    (∃ row, Table.lookup BountyRow.id b db'.bounties = some row ∧
        row.escrowRemainingNano = "0") ↔
      EscrowCleared v (escrowBefore record (Table.lookup BountyRow.id b db.bounties)) := by
  unfold EscrowCleared
  by_cases hclaims : claimsIn env.serde v.events = []
  · obtain ⟨row, hlookup, hrow⟩ := escrow_no_claims hends hrecord hvisit hclaims
    simp only [hclaims, hlookup, Option.some.injEq, exists_eq_left', true_and, ne_eq,
      not_true_eq_false, false_and, or_false]
    rcases hrow with ⟨hfirst, hzero⟩ | ⟨hlate, hsame⟩
    · exact ⟨fun _ => .inl hfirst, fun _ => hzero⟩
    · rw [hsame]
      exact ⟨.inr, fun h => h.resolve_left hlate⟩
  · obtain ⟨row, hlookup, hsub⟩ := escrow_claims hends hrecord hvisit hclaims
    simp only [hclaims, hlookup, hsub, Option.some.injEq, exists_eq_left', false_and, false_or,
      ne_eq, not_false_eq_true, true_and]

end Terminal

theorem endsBounty_market {v : Visit marketEnv} (hone : ∀ ev ∈ v.events, MarketEvent ev)
    (hterm : v.terminates "lbt1" = true)
    (hatt : ∀ ev ∈ v.events, attestationIdOf marketEnv.codec marketEnv.serde ev = none) :
    EndsBounty "lbt1" v where
  one_bounty id := by
    intro h
    obtain ⟨ev, hev, hid⟩ := h
    exact (hone ev hev).bounty id hid
  terminates := hterm
  unmasked := hatt

/-- A sweep on its own. -/
def sweptVisit : Visit marketEnv := marketVisit marketNode "0xcc" 2 [finalisedEvent]

theorem swept_clears_escrow :
    ∃ db, visit marketEnv boardDb sweptVisit = some db ∧
      ∃ row, Table.lookup BountyRow.id "lbt1" db.bounties = some row ∧
        row.escrowRemainingNano = "0" := by
  have hends : EndsBounty "lbt1" sweptVisit := by
    apply endsBounty_market
    · intro ev hev
      rw [List.mem_singleton.1 hev]
      exact marketEvent_finalised
    · rfl
    · intro ev hev
      rw [List.mem_singleton.1 hev]
      rfl
  obtain ⟨db, hvisit⟩ : ∃ db, visit marketEnv boardDb sweptVisit = some db := ⟨_, rfl⟩
  exact ⟨db, hvisit, (terminal_clears_escrow_iff hends rfl hvisit).2
    (.inl ⟨rfl, .inl ⟨"lbt1", .finalised, rfl, trivial⟩⟩)⟩

/-- The last claim and the sweep in one transaction. -/
def claimedAndSwept : Visit marketEnv :=
  marketVisit marketNode "0xcc" 2 [claimedEvent "30", finalisedEvent]

/-- A committed transaction that ends the bounty and leaves the given escrow. -/
structure LeavesEscrow (v : Visit marketEnv) (escrow : String) : Prop where
  ends : EndsBounty "lbt1" v
  committed : v.work.classified.outcome = .committed
  hydrated : ∃ record, v.client.bountyAt "lbt1" = .ok (some record)
  ingested : ∃ db row, visit marketEnv boardDb v = some db ∧
    Table.lookup BountyRow.id "lbt1" db.bounties = some row ∧ row.escrowRemainingNano = escrow

theorem endsBounty_before_sweep {ev : LedgerEvent} (hmarket : MarketEvent ev)
    (hatt : attestationIdOf marketEnv.codec marketEnv.serde ev = none) :
    EndsBounty "lbt1" (marketVisit marketNode "0xcc" 2 [ev, finalisedEvent]) := by
  apply endsBounty_market
  · intro e he
    rcases List.mem_cons.1 he with rfl | he
    · exact hmarket
    · rw [List.mem_singleton.1 he]
      exact marketEvent_finalised
  · exact List.any_eq_true.2 ⟨finalisedEvent, List.mem_cons_of_mem _ List.mem_cons_self, rfl⟩
  · intro e he
    rcases List.mem_cons.1 he with rfl | he
    · exact hatt
    · rw [List.mem_singleton.1 he]
      rfl

theorem terminal_event_masked :
    LeavesEscrow resolvedAndFinalised "100" ∧ LeavesEscrow claimedAndSwept "70" := by
  refine ⟨⟨?_, rfl, ⟨_, rfl⟩, _, _, rfl, rfl, rfl⟩, ?_, rfl, ⟨_, rfl⟩, _, _, rfl, rfl, by decide⟩
  · apply endsBounty_before_sweep _ rfl
    exact marketEvent_of_no_claim rfl fun _ h => (Option.some.inj h).symm
  · apply endsBounty_before_sweep _ rfl
    exact marketEvent_claimed (by decide)

end LigateApi.Indexer
