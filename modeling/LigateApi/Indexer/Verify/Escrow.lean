import LigateApi.Indexer.Verify.Visits

/-!
# Bounty escrow

The claims of a transaction reach the database as one decrement of the escrow and one increment of
the claim count, both summed up by the classifier; the first hydrate seeds the escrow with the pool,
a later one keeps it, and a terminal event sets it to zero. `bountyLedger` reads the three columns
of a bounty and `expectedLedger` adds up the events of a history: they agree after every prefix of a
history in which the classifier reports each transaction of the bounty (`Reported`).
-/

namespace LigateApi.Indexer

open Lib Lib.Run

/-! ## The claims of a transaction -/

section Claims

variable (serde : Serde)

/-- The decodable claims among the events. -/
def claimsIn (events : List LedgerEvent) : List BountyClaimed := events.filterMap (claimOf serde)

/-- The payout of a claim; the classifier leaves out what is no `u128`. -/
def BountyClaimed.nano (d : BountyClaimed) : Nat := (parseU128 d.payout).getD 0

def totalNano (ds : List BountyClaimed) : Nat := (ds.map BountyClaimed.nano).sum

variable {serde}

theorem totalNano_append (ds es : List BountyClaimed) :
    totalNano (ds ++ es) = totalNano ds + totalNano es := by
  rw [totalNano, List.map_append, List.sum_append]
  rfl

theorem saturatingAdd_payout {t : Nat} (d : BountyClaimed) (ht : t ≤ 2 ^ 128 - 1) :
    (parseU128 d.payout).elim t (saturatingAddU128 t) = min (t + d.nano) (2 ^ 128 - 1) := by
  rw [BountyClaimed.nano]
  cases parseU128 d.payout with
  | none =>
    rw [Option.elim_none, Option.getD_none, Nat.add_zero]
    omega
  | some v => rfl

variable (serde) in
/-- The accumulators after the bounty pass: the claims are counted modulo `2 ^ 32` and their sum
saturates. -/
theorem BountyScan.foldl_claims (events : List LedgerEvent) (s : BountyScan)
    (hs : s.claimTotal ≤ 2 ^ 128 - 1) :
    (events.foldl (BountyScan.see serde) s).claimCount =
        s.claimCount + UInt32.ofNat (claimsIn serde events).length ∧
      (events.foldl (BountyScan.see serde) s).sawClaim =
        (s.sawClaim || !(claimsIn serde events).isEmpty) ∧
      (events.foldl (BountyScan.see serde) s).claimTotal =
        min (s.claimTotal + totalNano (claimsIn serde events)) (2 ^ 128 - 1) := by
  induction events generalizing s with
  | nil =>
    refine ⟨?_, ?_, ?_⟩
    · exact (UInt32.add_zero _).symm
    · exact (Bool.or_false _).symm
    · have hnil : totalNano (claimsIn serde []) = 0 := rfl
      rw [hnil]
      exact (Nat.min_eq_left hs).symm
  | cons ev events ih =>
    rw [List.foldl_cons]
    cases hclaim : claimOf serde ev with
    | none =>
      have hcons : claimsIn serde (ev :: events) = claimsIn serde events :=
        List.filterMap_cons_none hclaim
      have hsee : s.see serde ev = { s with first := s.first.or (notedOf serde ev) } := by
        rw [BountyScan.see_eq, hclaim]
      rw [hcons, hsee]
      exact ih _ hs
    | some d =>
      have hcons : claimsIn serde (ev :: events) = d :: claimsIn serde events :=
        List.filterMap_cons_some hclaim
      have htotal := saturatingAdd_payout d hs
      obtain ⟨hcount, hsaw, hsum⟩ := ih (s.see serde ev) (by
        rw [BountyScan.see_eq, hclaim]
        dsimp only
        rw [htotal]
        exact Nat.min_le_right _ _)
      rw [hcons, hcount, hsaw, hsum, BountyScan.see_eq, hclaim]
      refine ⟨?_, (Bool.or_true _).symm, ?_⟩
      · rw [List.length_cons, UInt32.ofNat_add, UInt32.add_assoc, UInt32.add_comm 1]
        rfl
      · have hadd : totalNano (d :: claimsIn serde events) =
            d.nano + totalNano (claimsIn serde events) := List.sum_cons
        dsimp only
        rw [htotal, hadd]
        omega

/-- A bounty transaction without an attestation event: its claims are reported as one, and without
a claim its first event is. -/
theorem classifyEvents_bounty {codec : Codec} {events : List LedgerEvent} {id : String}
    {kind : BountyEventKind} (hatt : events.findSome? (attestationIdOf codec serde) = none)
    (hfirst : events.findSome? (notedOf serde) = some (id, kind)) :
    classifyEvents codec serde events = .bountyEvent id
      (if claimsIn serde events = [] then kind
        else .claimed (UInt32.ofNat (claimsIn serde events).length)
          (toString (min (totalNano (claimsIn serde events)) (2 ^ 128 - 1)))) := by
  have hnone : events.findSome? (classifyAttestationEvent codec serde) = none := by
    have hpass := classifyAttestation_pass codec serde events
    rwa [hatt, Option.map_none, Option.map_eq_none_iff] at hpass
  have hscan : (events.foldl (BountyScan.see serde) {}).first = some (id, kind) :=
    (BountyScan.foldl_first events {}).trans hfirst
  obtain ⟨hcount, hsaw, htotal⟩ := BountyScan.foldl_claims serde events {} (Nat.zero_le _)
  have hbounty : classifyBountyEvents serde events = some (.bountyEvent id
      (if claimsIn serde events = [] then kind
        else .claimed (UInt32.ofNat (claimsIn serde events).length)
          (toString (min (totalNano (claimsIn serde events)) (2 ^ 128 - 1))))) := by
    rw [classifyBountyEvents]
    dsimp only
    rw [hscan, hcount, hsaw, htotal, Option.map_some]
    cases claimsIn serde events with
    | nil => rfl
    | cons d ds =>
      rw [UInt32.zero_add, Nat.zero_add]
      rfl
  rw [classifyEvents, hnone, hbounty]
  rfl

end Claims

/-! ## One transaction -/

section Step

variable {env : Env} {client : NodeClient} {w : TxWork} {db : Db} {id k : String}
  {kind : BountyEventKind} {record : BountyRecord} {t t' : List BountyRow}

theorem lookup_bountyStep_other (h : BountyStep w id record t t' kind) (hne : k ≠ id) :
    Table.lookup BountyRow.id k t' = Table.lookup BountyRow.id k t := by
  have hid : k ≠ (w.bountyRow id record).id := hne
  have hh : Table.lookup BountyRow.id k (hydrateTable (w.bountyRow id record) t) =
      Table.lookup BountyRow.id k t := by
    rw [lookup_hydrateTable, if_neg hid]
  have hup : ∀ f : BountyRow → BountyRow, (∀ r, (f r).id = r.id) →
      Table.lookup BountyRow.id k
        (Table.update BountyRow.id id f (hydrateTable (w.bountyRow id record) t)) =
        Table.lookup BountyRow.id k t := by
    intro f hf
    rw [Table.lookup_update hf, if_neg hne, hh]
  cases h with
  | refresh _ _ h => rw [h, hh]
  | settle _ h => rw [h, hup zeroEscrow fun _ => rfl]
  | claim n p escrow r claims _ _ h => rw [h, hup (claimRow escrow claims w.slotNumber) fun _ => rfl]

/-- The row a hydrate finds or makes. -/
def hydratedRow (w : TxWork) (id : String) (record : BountyRecord) (t : List BountyRow) :
    BountyRow :=
  (Table.lookup BountyRow.id id t).elim (w.bountyRow id record)
    (mergeBountyRow (w.bountyRow id record))

theorem lookup_hydrated_self :
    Table.lookup BountyRow.id id (hydrateTable (w.bountyRow id record) t) =
      some (hydratedRow w id record t) := by
  have hid : id = (w.bountyRow id record).id := rfl
  rw [lookup_hydrateTable, if_pos hid]
  rfl

/-- The row after an event that is no claim. -/
theorem lookup_bountyStep_self (h : BountyStep w id record t t' kind)
    (hc : ∀ n p, kind ≠ .claimed n p) :
    (¬ kind.terminal ∧ Table.lookup BountyRow.id id t' = some (hydratedRow w id record t)) ∨
      (kind.terminal ∧
        Table.lookup BountyRow.id id t' = some (zeroEscrow (hydratedRow w id record t))) := by
  cases h with
  | refresh hk _ h => exact .inl ⟨hk, by rw [h, lookup_hydrated_self]⟩
  | settle hk h =>
    have hup : Table.lookup BountyRow.id id (Table.update BountyRow.id id zeroEscrow
        (hydrateTable (w.bountyRow id record) t)) =
        (Table.lookup BountyRow.id id (hydrateTable (w.bountyRow id record) t)).map zeroEscrow :=
      Table.lookup_update_self fun _ => rfl
    exact .inr ⟨hk, by rw [h, hup, lookup_hydrated_self, Option.map_some]⟩
  | claim n p => exact absurd rfl (hc n p)

/-- The row after a claim: the numeric difference, and the count as it fits the column. -/
theorem lookup_bounty_claimed {n : UInt32} {p : String}
    (h : (processTx env noFaults client w db).failed = [])
    (hy : Hydrated client w id (.claimed n p) record) :
    ∃ escrow claims,
      env.numericSub (hydratedRow w id record db.bounties).escrowRemainingNano p = some escrow ∧
      claims.toInt =
        (hydratedRow w id record db.bounties).claimCount.toInt + (clampInt32 n).toInt ∧
      Table.lookup BountyRow.id id (processTx env noFaults client w db).db.bounties =
        some (claimRow escrow claims w.slotNumber (hydratedRow w id record db.bounties)) := by
  obtain ⟨r, hlive, hbefore, -, heq⟩ := processTx_eq_resources h
  rw [heq] at h ⊢
  unfold insertResourceRows at h ⊢
  simp only [hy.kind, hy.record] at h ⊢
  obtain ⟨db₂, hup, heq₂⟩ := attempt_eq_ok hlive h
  rw [heq₂] at h ⊢
  obtain ⟨db₃, hclaim, heq₃⟩ := attempt_eq_ok (r := { r with db := db₂ }) hlive h
  rw [bountyDelta, heq₃]
  have htable : Table.lookup BountyRow.id id db₂.bounties =
      some (hydratedRow w id record db.bounties) := by
    rw [(upsertBounty_ok hup).2, ← hbefore]
    exact lookup_hydrated_self
  unfold applyBountyClaim at hclaim
  simp only [htable] at hclaim
  cases hsub : env.numericSub (hydratedRow w id record db.bounties).escrowRemainingNano p with
  | none =>
    rw [hsub] at hclaim
    cases hclaim
  | some escrow =>
    rw [hsub] at hclaim
    obtain ⟨claims, hn, hdb⟩ := bind_eq_ok.1 hclaim
    cases hdb
    refine ⟨escrow, claims, rfl, addInt32_ok hn, ?_⟩
    have hupdate : Table.lookup BountyRow.id id (Table.update BountyRow.id id
        (claimRow escrow claims w.slotNumber) db₂.bounties) =
        (Table.lookup BountyRow.id id db₂.bounties).map (claimRow escrow claims w.slotNumber) :=
      Table.lookup_update_self fun _ => rfl
    rw [htable, Option.map_some] at hupdate
    exact hupdate

end Step

/-! ## Histories -/

/-- A decodable `BountyExpired` or `BountyFinalised` of bounty `b`. -/
def terminalOn (serde : Serde) (b : String) (ev : LedgerEvent) : Bool :=
  match notedOf serde ev with
  | some (id, .expired) => id = b
  | some (id, .finalised) => id = b
  | _ => false

namespace Visit

variable {env : Env} (v : Visit env) (b : String)

/-- The transaction carries a decodable event of bounty `b`. -/
def touches : Prop := ∃ ev ∈ v.events, bountyIdOf env.serde ev = some b

def claimsOn : List BountyClaimed :=
  (claimsIn env.serde v.events).filter fun d => d.bountyId = b

def terminates : Bool := v.events.any (terminalOn env.serde b)

/-- The transaction carries the posting of bounty `b`. -/
def posts : Prop :=
  ∃ ev ∈ v.events, ev.key = "Bounty/BountyPosted" ∧ env.serde.bounty .posted ev.value = some b

end Visit

section Totals

variable {env : Env} (b : String) (vs : List (Visit env))

def claimsOver : List BountyClaimed := vs.flatMap fun v => v.claimsOn b

def lastClaimSlot : Option Int64 :=
  ((vs.filter fun v => !(v.claimsOn b).isEmpty).getLast?).map fun v => v.work.slotNumber.toInt64

/-- Escrow, claim count and last claim as the events of the history give them. -/
def expectedLedger (P : Nat) : String × Int × Option Int64 :=
  (if vs.any fun v => v.terminates b then "0" else toString (P - totalNano (claimsOver b vs)),
    (claimsOver b vs).length, lastClaimSlot b vs)

end Totals

/-- The same three columns of the stored row, or what a first hydrate makes them. -/
def bountyLedger (P : Nat) (row : Option BountyRow) : String × Int × Option Int64 :=
  row.elim (toString P, 0, none) fun r => (r.escrowRemainingNano, r.claimCount.toInt, r.lastClaimAtSlot)

/-- A chain history of bounty `b` with pool `P`. -/
structure BountyHistory {env : Env} (b : String) (P : Nat) (vs : List (Visit env)) : Prop where
  /-- The pool is a `u128`, in decimal. -/
  pool_lt : P < 2 ^ 128
  pool : ∀ v ∈ vs, ∀ record, v.client.bountyAt b = .ok (some record) → record.pool = toString P
  posted : ∃ v rest, vs = v :: rest ∧ v.posts b
  hydrated : ∀ v ∈ vs, ∀ id, v.touches id → ∃ record, v.client.bountyAt id = .ok (some record)
  one_bounty : ∀ v ∈ vs, ∀ i j, v.touches i → v.touches j → i = j
  payouts : ∀ v ∈ vs, ∀ d ∈ claimsIn env.serde v.events, (parseU128 d.payout).isSome
  unmixed : ∀ v ∈ vs, ∀ i, claimsIn env.serde v.events ≠ [] → v.terminates i = false
  no_claim_after : vs.Pairwise fun v u => v.terminates b = true → u.claimsOn b = []
  paid : totalNano (claimsOver b vs) ≤ P

/-- The classifier reports what the transaction does to bounty `b`: no attestation event takes
precedence, a terminal event is the first of the bounty, and the claims fit the column. -/
structure Reported {env : Env} (b : String) (v : Visit env) : Prop where
  unmasked : v.touches b → v.events.findSome? (attestationIdOf env.codec env.serde) = none
  terminal_first : v.terminates b = true →
    (v.events.findSome? (notedOf env.serde)).any fun p => p.2 = .expired ∨ p.2 = .finalised
  few_claims : (v.claimsOn b).length < 2 ^ 31

/-! ## The events of one visit -/

section Events

variable {env : Env} {v : Visit env} {b : String}

theorem claim_touches {d : BountyClaimed} (hd : d ∈ claimsIn env.serde v.events) :
    v.touches d.bountyId := by
  obtain ⟨ev, hev, hclaim⟩ := List.mem_filterMap.1 hd
  refine ⟨ev, hev, ?_⟩
  rw [← notedOf_id, notedOf, hclaim]
  rfl

theorem terminalOn_eq_true {serde : Serde} {ev : LedgerEvent} :
    terminalOn serde b ev = true ↔ ∃ kind, notedOf serde ev = some (b, kind) ∧ kind.terminal := by
  unfold terminalOn
  split
  · rename_i id h
    simp [h, BountyEventKind.terminal, eq_comm]
  · rename_i id h
    simp [h, BountyEventKind.terminal, eq_comm]
  · rename_i hexp hfin
    simp only [Bool.false_eq_true, false_iff, not_exists, not_and]
    intro kind h hterm
    cases kind with
    | expired => exact hexp b h
    | finalised => exact hfin b h
    | posted => exact hterm
    | claimed n p => exact hterm
    | disputed => exact hterm
    | disputeResolved => exact hterm

theorem terminates_touches (h : v.terminates b = true) : v.touches b := by
  obtain ⟨ev, hev, hterm⟩ := List.any_eq_true.1 h
  obtain ⟨kind, hnoted, -⟩ := terminalOn_eq_true.1 hterm
  refine ⟨ev, hev, ?_⟩
  rw [← notedOf_id, hnoted]
  rfl

theorem claimsOn_of_not_touches (h : ¬ v.touches b) : v.claimsOn b = [] := by
  refine List.filter_eq_nil_iff.2 fun d hd hid => h ?_
  rw [← of_decide_eq_true hid]
  exact claim_touches hd

/-- With one bounty in the transaction all claims are its own. -/
theorem claimsOn_of_touches (hone : ∀ i j, v.touches i → v.touches j → i = j)
    (h : v.touches b) : v.claimsOn b = claimsIn env.serde v.events := by
  apply List.filter_eq_self.2
  intro d hd
  exact decide_eq_true (hone _ _ (claim_touches hd) h)

/-- The classification of a transaction that does not touch the bounty. -/
theorem kind_of_not_touches (h : ¬ v.touches b) (kind : BountyEventKind) :
    v.work.classified.kind ≠ .bountyEvent b kind := by
  intro hkind
  have hsubject := classifyEvents_subject env.codec env.serde v.events
  rw [← v.kind, hkind, leading, eq_comm] at hsubject
  rcases Option.or_eq_some_iff.1 hsubject with ha | ⟨-, hrest⟩
  · obtain ⟨id, -, hid⟩ := Option.map_eq_some_iff.1 ha
    cases hid
  · rcases Option.or_eq_some_iff.1 hrest with hb | ⟨-, hc⟩
    · obtain ⟨id, hid, heq⟩ := Option.map_eq_some_iff.1 hb
      cases heq
      exact h (List.exists_of_findSome?_eq_some hid)
    · obtain ⟨id, -, hid⟩ := Option.map_eq_some_iff.1 hc
      cases hid

/-- The classification of one that does, if no attestation event takes precedence. -/
theorem kind_of_touches (hone : ∀ i j, v.touches i → v.touches j → i = j)
    (hatt : v.events.findSome? (attestationIdOf env.codec env.serde) = none) (h : v.touches b) :
    ∃ ev ∈ v.events, ∃ kind, v.events.findSome? (notedOf env.serde) = some (b, kind) ∧
      notedOf env.serde ev = some (b, kind) ∧
      v.work.classified.kind = .bountyEvent b
        (if v.claimsOn b = [] then kind
          else .claimed (UInt32.ofNat (v.claimsOn b).length)
            (toString (min (totalNano (v.claimsOn b)) (2 ^ 128 - 1)))) := by
  have hids := findSome?_notedOf env.serde v.events
  cases hfirst : v.events.findSome? (notedOf env.serde) with
  | none =>
    rw [hfirst, Option.map_none, eq_comm, List.findSome?_eq_none_iff] at hids
    obtain ⟨ev, hev, hid⟩ := h
    rw [hids ev hev] at hid
    cases hid
  | some p =>
    obtain ⟨i, kind⟩ := p
    obtain ⟨ev, hev, hnoted⟩ := List.exists_of_findSome?_eq_some hfirst
    have htouch : v.touches i := ⟨ev, hev, by rw [← notedOf_id, hnoted]; rfl⟩
    obtain rfl := hone _ _ htouch h
    refine ⟨ev, hev, kind, rfl, hnoted, ?_⟩
    rw [v.kind, claimsOn_of_touches hone h]
    exact classifyEvents_bounty hatt hfirst

theorem notedOf_ne_claimed {serde : Serde} {ev : LedgerEvent} {id : String} {n : UInt32}
    {p : String} : notedOf serde ev ≠ some (id, .claimed n p) := by
  unfold notedOf
  cases claimOf serde ev with
  | some d => simp
  | none =>
    simp only [ne_eq, Option.bind_eq_some_iff, Option.map_eq_some_iff, Prod.mk.injEq, not_exists,
      not_and]
    intro payload _ i _ _ hkind
    cases payload <;> cases hkind

end Events

/-! ## Adding a visit to the totals -/

section Snoc

variable {env : Env} {v : Visit env} {vs : List (Visit env)} {b : String} {P : Nat}

theorem claimsOver_snoc : claimsOver b (vs ++ [v]) = claimsOver b vs ++ v.claimsOn b := by
  rw [claimsOver, List.flatMap_append, List.flatMap_singleton]
  rfl

theorem any_terminates_snoc :
    ((vs ++ [v]).any fun v => v.terminates b) =
      ((vs.any fun v => v.terminates b) || v.terminates b) := by
  rw [List.any_append, List.any_cons, List.any_nil, Bool.or_false]

theorem lastClaimSlot_snoc_nil (h : v.claimsOn b = []) :
    lastClaimSlot b (vs ++ [v]) = lastClaimSlot b vs := by
  have hskip : ([v].filter fun v => !(v.claimsOn b).isEmpty) = [] := by simp [h]
  rw [lastClaimSlot, List.filter_append, hskip, List.append_nil, lastClaimSlot]

theorem lastClaimSlot_snoc_cons (h : v.claimsOn b ≠ []) :
    lastClaimSlot b (vs ++ [v]) = some v.work.slotNumber.toInt64 := by
  have hkeep : ([v].filter fun v => !(v.claimsOn b).isEmpty) = [v] := by simp [h]
  rw [lastClaimSlot, List.filter_append, hkeep, List.getLast?_concat, Option.map_some]

/-- Without a claim only a terminal event changes the totals. -/
theorem expectedLedger_snoc_nil (h : v.claimsOn b = []) :
    expectedLedger b (vs ++ [v]) P =
      (if v.terminates b then "0" else (expectedLedger b vs P).1, (expectedLedger b vs P).2) := by
  rw [expectedLedger, claimsOver_snoc, any_terminates_snoc, lastClaimSlot_snoc_nil h, h,
    List.append_nil, expectedLedger]
  cases v.terminates b <;> cases vs.any fun v => v.terminates b <;> rfl

theorem expectedLedger_snoc_cons (h : v.claimsOn b ≠ []) (hv : v.terminates b = false)
    (hvs : (vs.any fun v => v.terminates b) = false) :
    expectedLedger b (vs ++ [v]) P =
      (toString (P - totalNano (claimsOver b vs) - totalNano (v.claimsOn b)),
        ((claimsOver b vs).length : Int) + (v.claimsOn b).length,
        some v.work.slotNumber.toInt64) := by
  rw [expectedLedger, claimsOver_snoc, any_terminates_snoc, lastClaimSlot_snoc_cons h, hv, hvs,
    totalNano_append, List.length_append, Nat.sub_sub, Int.natCast_add]
  rfl

end Snoc

/-! ## One visit -/

section VisitStep

variable {env : Env} {v : Visit env} {vs : List (Visit env)} {b : String} {P : Nat} {db db' : Db}

/-- A visit classified otherwise leaves the row alone. -/
theorem lookup_bounty_other (h : visit env db v = some db')
    (hother : ∀ kind, v.work.classified.kind ≠ .bountyEvent b kind) :
    Table.lookup BountyRow.id b db'.bounties = Table.lookup BountyRow.id b db.bounties := by
  obtain ⟨hfail, rfl⟩ := visit_eq_some.1 h
  rcases bounties_cases hfail with ⟨-, hsame⟩ | ⟨id, kind, record, hy, hstep⟩
  · rw [hsame]
  · apply lookup_bountyStep_other hstep
    rintro rfl
    exact hother kind hy.kind

/-- A hydrate alone keeps the ledger: it seeds a new row with the pool. -/
theorem bountyLedger_hydratedRow {w : TxWork} {record : BountyRecord} {t : List BountyRow}
    (hpool : record.pool = toString P) :
    bountyLedger P (some (hydratedRow w b record t)) =
      bountyLedger P (Table.lookup BountyRow.id b t) := by
  unfold hydratedRow
  cases Table.lookup BountyRow.id b t with
  | none =>
    have hrow : bountyLedger P (some (w.bountyRow b record)) = (record.pool, 0, none) := rfl
    rw [Option.elim_none, hrow, hpool]
    rfl
  | some r => rfl

theorem clampInt32_ofNat {n : Nat} (h : n < 2 ^ 31) : (clampInt32 (UInt32.ofNat n)).toInt = n := by
  have hnat : (UInt32.ofNat n).toNat = n := by
    rw [UInt32.toNat_ofNat']
    omega
  have hofNat : (UInt32.ofNat n).toInt32 = Int32.ofNat n := UInt32.toInt32_ofNat'
  rw [clampInt32, hnat, if_pos h, hofNat, Int32.toInt_ofNat_of_lt h]

variable (hsub : ∀ x y : Nat, y ≤ x →
    env.numericSub (toString x) (toString y) = some (toString (x - y)))
  (hpool_lt : P < 2 ^ 128)
  (hpool : ∀ record, v.client.bountyAt b = .ok (some record) → record.pool = toString P)
  (hone : ∀ i j, v.touches i → v.touches j → i = j) (hrep : Reported b v)
  (hvisit : visit env db v = some db')
  (hledger : bountyLedger P (Table.lookup BountyRow.id b db.bounties) = expectedLedger b vs P)

include hsub hpool_lt hpool hone hrep hvisit hledger in
/-- A transaction with claims, while the bounty is open. -/
theorem ledger_claims {record : BountyRecord} (hrecord : v.client.bountyAt b = .ok (some record))
    (htouch : v.touches b) (hclaims : v.claimsOn b ≠ []) (hv : v.terminates b = false)
    (hvs : (vs.any fun v => v.terminates b) = false)
    (hpaid : totalNano (claimsOver b vs) + totalNano (v.claimsOn b) ≤ P) :
    ∃ r, Table.lookup BountyRow.id b db'.bounties = some r ∧
      bountyLedger P (some r) = expectedLedger b (vs ++ [v]) P := by
  obtain ⟨hfail, rfl⟩ := visit_eq_some.1 hvisit
  obtain ⟨-, -, kind, -, -, hkind⟩ := kind_of_touches hone (hrep.unmasked htouch) htouch
  have hsmall : totalNano (v.claimsOn b) ≤ 2 ^ 128 - 1 := by omega
  rw [if_neg hclaims, Nat.min_eq_left hsmall] at hkind
  obtain ⟨escrow, claims, hescrow, hcount, hlookup⟩ := lookup_bounty_claimed hfail ⟨hkind, hrecord⟩
  have hrow := bountyLedger_hydratedRow (w := v.work) (b := b) (t := db.bounties)
    (hpool record hrecord)
  rw [hledger, expectedLedger, hvs] at hrow
  simp only [bountyLedger, Option.elim_some, Bool.false_eq_true, if_false, Prod.mk.injEq] at hrow
  rw [hrow.1, hsub _ _ (by omega), Option.some.injEq] at hescrow
  rw [hrow.2.1, clampInt32_ofNat hrep.few_claims] at hcount
  refine ⟨_, hlookup, ?_⟩
  rw [expectedLedger_snoc_cons hclaims hv hvs, ← hescrow, ← hcount]
  rfl

include hpool hone hrep hvisit hledger in
/-- A transaction of the bounty without claims. -/
theorem ledger_no_claims {record : BountyRecord} (hrecord : v.client.bountyAt b = .ok (some record))
    (htouch : v.touches b) (hclaims : v.claimsOn b = []) :
    ∃ r, Table.lookup BountyRow.id b db'.bounties = some r ∧
      bountyLedger P (some r) = expectedLedger b (vs ++ [v]) P := by
  obtain ⟨hfail, rfl⟩ := visit_eq_some.1 hvisit
  obtain ⟨ev, hev, kind, hfirst, hnoted, hkind⟩ := kind_of_touches hone (hrep.unmasked htouch) htouch
  rw [if_pos hclaims] at hkind
  have hterm : v.terminates b = true ↔ kind.terminal := by
    constructor
    · intro h
      have hterm := hrep.terminal_first h
      rw [hfirst, Option.any_some, decide_eq_true_eq] at hterm
      rcases hterm with rfl | rfl
      · trivial
      · trivial
    · intro h
      exact List.any_eq_true.2 ⟨ev, hev, terminalOn_eq_true.2 ⟨kind, hnoted, h⟩⟩
  have hrow := bountyLedger_hydratedRow (w := v.work) (b := b) (t := db.bounties)
    (hpool record hrecord)
  rw [hledger] at hrow
  have hnc : ∀ n p, kind ≠ .claimed n p := by
    rintro n p rfl
    exact notedOf_ne_claimed hnoted
  rcases bounties_cases hfail with ⟨hno, -⟩ | ⟨id, kind', record', hy, hstep⟩
  · exact absurd ⟨hkind, hrecord⟩ (hno b kind record)
  · obtain ⟨rfl, rfl, rfl⟩ := hy.unique ⟨hkind, hrecord⟩
    rw [expectedLedger_snoc_nil hclaims]
    rcases lookup_bountyStep_self hstep hnc with ⟨hk, hlookup⟩ | ⟨hk, hlookup⟩
    · refine ⟨_, hlookup, ?_⟩
      rw [if_neg (mt hterm.1 hk), hrow]
    · refine ⟨_, hlookup, ?_⟩
      rw [if_pos (hterm.2 hk), ← hrow]
      rfl

end VisitStep

/-! ## Whole histories -/

section History

variable {env : Env} {b : String} {P : Nat} {vs : List (Visit env)} {db₀ : Db}

theorem posts_touches {v : Visit env} (h : v.posts b) : v.touches b := by
  obtain ⟨ev, hev, hkey, hid⟩ := h
  refine ⟨ev, hev, ?_⟩
  rw [bountyIdOf, hkey, if_neg (by decide)]
  exact hid

/-- Before a claim there is no terminal event. -/
theorem BountyHistory.open_before {es : List (Visit env)} {v : Visit env}
    (h : BountyHistory b P vs) (hpre : es ++ [v] <+: vs) (hclaims : v.claimsOn b ≠ []) :
    (es.any fun v => v.terminates b) = false := by
  obtain ⟨rest, hrest⟩ := hpre
  have hpairs := h.no_claim_after
  rw [← hrest, List.append_assoc, List.pairwise_append] at hpairs
  rw [Bool.eq_false_iff]
  intro hany
  obtain ⟨u, hu, hterm⟩ := List.any_eq_true.1 hany
  exact hclaims (hpairs.2.2 u hu v List.mem_cons_self hterm)

theorem BountyHistory.paid_before {es : List (Visit env)} {v : Visit env}
    (h : BountyHistory b P vs) (hpre : es ++ [v] <+: vs) :
    totalNano (claimsOver b es) + totalNano (v.claimsOn b) ≤ P := by
  obtain ⟨rest, hrest⟩ := hpre
  have hpaid := h.paid
  rw [← hrest, claimsOver, List.flatMap_append, ← claimsOver, claimsOver_snoc, totalNano_append,
    totalNano_append] at hpaid
  omega

/-- The columns of the row after a history that has touched the bounty. -/
structure BountyAccounts (b : String) (P : Nat) (es : List (Visit env)) (r : BountyRow) :
    Prop where
  claimCount : r.claimCount.toInt = (claimsOver b es).length
  lastClaimAtSlot : r.lastClaimAtSlot = lastClaimSlot b es
  escrow : r.escrowRemainingNano =
    if es.any fun v => v.terminates b then "0" else toString (P - totalNano (claimsOver b es))

theorem bountyAccounts_iff {es : List (Visit env)} {r : BountyRow} :
    BountyAccounts b P es r ↔ bountyLedger P (some r) = expectedLedger b es P := by
  simp only [bountyLedger, Option.elim_some, expectedLedger, Prod.mk.injEq]
  constructor
  · intro h
    exact ⟨h.escrow, h.claimCount, h.lastClaimAtSlot⟩
  · rintro ⟨hescrow, hcount, hlast⟩
    exact ⟨hcount, hlast, hescrow⟩

variable (hsub : ∀ x y : Nat, y ≤ x →
    env.numericSub (toString x) (toString y) = some (toString (x - y)))
  (hhistory : BountyHistory b P vs) (hrep : ∀ v ∈ vs, Reported b v)
  (hnew : Table.lookup BountyRow.id b db₀.bounties = none)

/-- The invariant of a history: the columns agree, and a touched bounty has a row. -/
def LedgerKept (b : String) (P : Nat) (es : List (Visit env)) (db : Db) : Prop :=
  bountyLedger P (Table.lookup BountyRow.id b db.bounties) = expectedLedger b es P ∧
    ((∃ v ∈ es, v.touches b) → Table.lookup BountyRow.id b db.bounties ≠ none)

include hsub hhistory hrep hnew in
theorem ledger_of_history {es : List (Visit env)} {db : Db} (hes : es <+: vs)
    (hrun : exec (visit env) db₀ es = some db) : LedgerKept b P es db := by
  refine exec_history ?_ ?_ hes hrun
  · rw [LedgerKept, hnew]
    refine ⟨rfl, ?_⟩
    rintro ⟨v, hv, -⟩
    exact absurd hv List.not_mem_nil
  · rintro es v m t hpre - ⟨hledger, hsome⟩ ht
    have hv : v ∈ vs := hpre.subset (List.mem_append_right es List.mem_cons_self)
    have hone := hhistory.one_bounty v hv
    by_cases htouch : v.touches b
    · obtain ⟨record, hrecord⟩ := hhistory.hydrated v hv b htouch
      have hstep : ∃ r, Table.lookup BountyRow.id b t.bounties = some r ∧
          bountyLedger P (some r) = expectedLedger b (es ++ [v]) P := by
        by_cases hclaims : v.claimsOn b = []
        · exact ledger_no_claims (hhistory.pool v hv) hone (hrep v hv) ht hledger hrecord htouch
            hclaims
        · have hvt : v.terminates b = false := by
            apply hhistory.unmixed v hv b
            rwa [← claimsOn_of_touches hone htouch]
          exact ledger_claims hsub hhistory.pool_lt (hhistory.pool v hv) hone (hrep v hv) ht
            hledger hrecord htouch hclaims hvt (hhistory.open_before hpre hclaims)
            (hhistory.paid_before hpre)
      obtain ⟨r, hr, hexp⟩ := hstep
      rw [LedgerKept, hr]
      exact ⟨hexp, fun _ => Option.some_ne_none r⟩
    · have hsame := lookup_bounty_other ht (kind_of_not_touches htouch)
      have hterm : v.terminates b = false := by
        rw [Bool.eq_false_iff]
        exact fun h => htouch (terminates_touches h)
      rw [LedgerKept, hsame, expectedLedger_snoc_nil (claimsOn_of_not_touches htouch), hterm]
      refine ⟨hledger, ?_⟩
      rw [exists_mem_snoc_iff, or_iff_left htouch]
      exact hsome

include hsub hhistory hrep hnew in
/-- **Bounty escrow** after every prefix of the history. -/
theorem bounty_escrow_of_reported_history {es : List (Visit env)} {db : Db} (hes : es <+: vs)
    (hne : es ≠ []) (hrun : exec (visit env) db₀ es = some db) :
    (∃ r, Table.lookup BountyRow.id b db.bounties = some r ∧ BountyAccounts b P es r) ∧
      ∀ v ∈ vs, v.touches b → ∀ db', visit env db v = some db' → ∀ b', b' ≠ b →
        Table.lookup BountyRow.id b' db'.bounties = Table.lookup BountyRow.id b' db.bounties := by
  obtain ⟨hledger, hsome⟩ := ledger_of_history hsub hhistory hrep hnew hes hrun
  constructor
  · obtain ⟨v, rest, hvs, hposts⟩ := hhistory.posted
    have hv : v ∈ es := by
      obtain ⟨u, us, rfl⟩ := List.exists_cons_of_ne_nil hne
      rw [hvs, List.cons_prefix_cons] at hes
      rw [hes.1]
      exact List.mem_cons_self
    obtain ⟨r, hr⟩ := Option.ne_none_iff_exists'.1 (hsome ⟨v, hv, posts_touches hposts⟩)
    rw [hr] at hledger
    exact ⟨r, hr, bountyAccounts_iff.2 hledger⟩
  · intro v hv htouch db' hvisit b' hb'
    refine lookup_bounty_other hvisit (kind_of_not_touches fun h => hb' ?_)
    exact hhistory.one_bounty v hv b' b h htouch

end History

/-! ## Histories of one bounty -/

section Market

theorem decimal_toString (n : Nat) : decimal (toString n) = some n := by
  have hchars : (toString n).toList = Nat.toDigits 10 n := by
    rw [Nat.toString_eq_repr, Nat.repr_eq_ofList_toDigits, String.toList_ofList]
  have hdigits : (Nat.toDigits 10 n).all Char.isDigit = true := by
    apply List.all_eq_true.2
    intro c hc
    exact Nat.isDigit_of_mem_toDigits (by decide) (by decide) hc
  have hne : Nat.toDigits 10 n ≠ [] := by
    rw [← hchars, Nat.toString_eq_repr]
    intro h
    exact Nat.repr_ne_empty (String.toList_eq_nil_iff.1 h)
  rw [decimal, hchars, if_pos ⟨hne, hdigits⟩, Nat.ofDigitChars_ten_toDigits]

theorem marketEnv_numericSub (x y : Nat) (h : y ≤ x) :
    marketEnv.numericSub (toString x) (toString y) = some (toString (x - y)) := by
  simp only [marketEnv, decimal_toString, Option.bind_eq_bind, Option.bind_some, Option.pure_def,
    if_pos h]

/-- A claim on the bounty. -/
def claimedEvent (payout : String) : LedgerEvent :=
  ⟨"Bounty/BountyClaimed", .obj [("BountyClaimed", .obj [("bounty_id", .str "lbt1"),
    ("attestation_id", .str "lat1"), ("payout", .str payout), ("attester", .str "lig1w")])], "0xbb"⟩

def disputeResolvedEvent : LedgerEvent :=
  ⟨"Bounty/DisputeResolved", .obj [("DisputeResolved", .obj [("bounty_id", .str "lbt1"),
    ("attestation_id", .str "lat1"), ("decision", .str "Reject"),
    ("bond_recipient", .str "lig1p")])], "0xcc"⟩

def finalisedEvent : LedgerEvent :=
  ⟨"Bounty/BountyFinalised", .obj [("BountyFinalised", .obj [("bounty_id", .str "lbt1"),
    ("swept_to_poster", .str "100")])], "0xcc"⟩

/-- The transaction that posts the bounty. -/
def postedVisit : Visit marketEnv := marketVisit marketNode "0xaa" 1 [postedEvent]

variable {vs : List (Visit marketEnv)}

/-- An event of bounty `lbt1`, or of none. -/
structure MarketEvent (ev : LedgerEvent) : Prop where
  bounty : ∀ id, bountyIdOf marketEnv.serde ev = some id → id = "lbt1"
  payout : ∀ d, claimOf marketEnv.serde ev = some d → (parseU128 d.payout).isSome

theorem marketEvent_claimed {payout : String} (h : (parseU128 payout).isSome) :
    MarketEvent (claimedEvent payout) where
  bounty id hid := (Option.some.inj hid).symm
  payout d hd := by
    cases hd
    exact h

/-- An event that is no claim. -/
theorem marketEvent_of_no_claim {ev : LedgerEvent} (hclaim : claimOf marketEnv.serde ev = none)
    (hid : ∀ id, bountyIdOf marketEnv.serde ev = some id → id = "lbt1") : MarketEvent ev where
  bounty := hid
  payout d hd := by
    rw [hclaim] at hd
    cases hd

theorem marketEvent_finalised : MarketEvent finalisedEvent :=
  marketEvent_of_no_claim rfl fun _ h => (Option.some.inj h).symm

/-- A transaction on the market in which no claim meets a terminal event. -/
structure OnMarket (v : Visit marketEnv) : Prop where
  client : v.client = marketNode
  events : ∀ ev ∈ v.events, MarketEvent ev
  unmixed : ∀ i, claimsIn marketEnv.serde v.events ≠ [] → v.terminates i = false

theorem onMarket_posted : OnMarket postedVisit where
  client := rfl
  events ev hev := by
    rw [List.mem_singleton.1 hev]
    exact marketEvent_of_no_claim rfl fun _ h => (Option.some.inj h).symm
  unmixed _ h := absurd rfl h

/-- A history on the market is one of the bounty. -/
theorem bountyHistory_market (hvs : ∀ v ∈ vs, OnMarket v)
    (hafter : (postedVisit :: vs).Pairwise fun v u =>
      v.terminates "lbt1" = true → u.claimsOn "lbt1" = [])
    (hpaid : totalNano (claimsOver "lbt1" (postedVisit :: vs)) ≤ 100) :
    BountyHistory "lbt1" 100 (postedVisit :: vs) := by
  have hall : ∀ v ∈ postedVisit :: vs, OnMarket v := by
    intro v hv
    rcases List.mem_cons.1 hv with rfl | hv
    · exact onMarket_posted
    · exact hvs v hv
  have hid : ∀ v ∈ postedVisit :: vs, ∀ id, v.touches id → id = "lbt1" := by
    rintro v hv id ⟨ev, hev, hid⟩
    exact ((hall v hv).events ev hev).bounty id hid
  exact {
    pool_lt := by decide
    pool := by
      intro v hv record hrecord
      rw [(hall v hv).client] at hrecord
      cases hrecord
      rfl
    posted := ⟨postedVisit, vs, rfl, postedEvent, List.mem_cons_self, rfl, rfl⟩
    hydrated := by
      intro v hv id htouch
      rw [(hall v hv).client, hid v hv id htouch]
      exact ⟨_, rfl⟩
    one_bounty := fun v hv i j hi hj => (hid v hv i hi).trans (hid v hv j hj).symm
    payouts := by
      intro v hv d hd
      obtain ⟨ev, hev, hclaim⟩ := List.mem_filterMap.1 hd
      exact ((hall v hv).events ev hev).payout d hclaim
    unmixed := fun v hv => (hall v hv).unmixed
    no_claim_after := hafter
    paid := hpaid }

/-- Two claims of 30 in one transaction, then the sweep. -/
def claimedAndFinalised : List (Visit marketEnv) :=
  [marketVisit marketNode "0xbb" 2 [claimedEvent "30", claimedEvent "30"],
    marketVisit marketNode "0xcc" 3 [finalisedEvent]]

theorem claimedAndFinalised_accounted :
    ∃ db, exec (visit marketEnv) boardDb (postedVisit :: claimedAndFinalised) = some db ∧
      ∃ r, Table.lookup BountyRow.id "lbt1" db.bounties = some r ∧
        BountyAccounts "lbt1" 100 (postedVisit :: claimedAndFinalised) r := by
  have hhistory : BountyHistory "lbt1" 100 (postedVisit :: claimedAndFinalised) := by
    apply bountyHistory_market
    · intro v hv
      simp only [claimedAndFinalised, List.mem_cons, List.not_mem_nil, or_false] at hv
      rcases hv with rfl | rfl
      · refine ⟨rfl, fun ev hev => ?_, fun _ _ => rfl⟩
        have hev : ev = claimedEvent "30" := by simpa [marketVisit] using hev
        rw [hev]
        exact marketEvent_claimed (by decide)
      · refine ⟨rfl, fun ev hev => ?_, fun _ h => absurd rfl h⟩
        rw [List.mem_singleton.1 hev]
        exact marketEvent_finalised
    · decide
    · decide
  have hrep : ∀ v ∈ postedVisit :: claimedAndFinalised, Reported "lbt1" v := by
    intro v hv
    simp only [claimedAndFinalised, List.mem_cons, List.not_mem_nil, or_false] at hv
    rcases hv with rfl | rfl | rfl
    · exact ⟨fun _ => rfl, nofun, by decide⟩
    · exact ⟨fun _ => rfl, nofun, by decide⟩
    · exact ⟨fun _ => rfl, fun _ => rfl, by decide⟩
  obtain ⟨db, hrun⟩ : ∃ db, exec (visit marketEnv) boardDb (postedVisit :: claimedAndFinalised) =
      some db := ⟨_, rfl⟩
  exact ⟨db, hrun, (bounty_escrow_of_reported_history marketEnv_numericSub hhistory hrep rfl
    (List.prefix_refl _) (List.cons_ne_nil _ _) hrun).1⟩

/-- A history of the bounty that goes through without an error and leaves wrong columns. -/
def Unaccounted (vs : List (Visit marketEnv)) : Prop :=
  BountyHistory "lbt1" 100 vs ∧ ∃ db, exec (visit marketEnv) boardDb vs = some db ∧
    ¬ ∃ r, Table.lookup BountyRow.id "lbt1" db.bounties = some r ∧ BountyAccounts "lbt1" 100 vs r

/-- The dispute is resolved in the transaction that sweeps the bounty. -/
def resolvedAndFinalised : Visit marketEnv :=
  marketVisit marketNode "0xcc" 2 [disputeResolvedEvent, finalisedEvent]

theorem unaccounted_resolvedAndFinalised : Unaccounted [postedVisit, resolvedAndFinalised] := by
  have hmarket : OnMarket resolvedAndFinalised := by
    refine ⟨rfl, fun ev hev => ?_, fun _ h => absurd rfl h⟩
    rcases List.mem_cons.1 hev with rfl | hev
    · exact marketEvent_of_no_claim rfl fun _ h => (Option.some.inj h).symm
    · rw [List.mem_singleton.1 hev]
      exact marketEvent_finalised
  refine ⟨bountyHistory_market ?_ (by decide) (by decide), _, rfl, ?_⟩
  · intro v hv
    rw [List.mem_singleton.1 hv]
    exact hmarket
  · rintro ⟨r, hr, hacc⟩
    cases hr
    exact absurd hacc.escrow (by decide)

/-- An attestor set is registered in the transaction that claims. -/
def maskedClaim : Visit marketEnv :=
  marketVisit marketNode "0xbb" 2 [attestorSetEvent, claimedEvent "30"]

theorem unaccounted_maskedClaim : Unaccounted [postedVisit, maskedClaim] := by
  have hmarket : OnMarket maskedClaim := by
    refine ⟨rfl, fun ev hev => ?_, fun _ _ => rfl⟩
    rcases List.mem_cons.1 hev with rfl | hev
    · exact marketEvent_of_no_claim rfl nofun
    · rw [List.mem_singleton.1 hev]
      exact marketEvent_claimed (by decide)
  refine ⟨bountyHistory_market ?_ (by decide) (by decide), _, rfl, ?_⟩
  · intro v hv
    rw [List.mem_singleton.1 hv]
    exact hmarket
  · rintro ⟨r, hr, hacc⟩
    cases hr
    exact absurd hacc.claimCount (by decide)

/-- One transaction with `n` claims of nothing. -/
def claimBatch (n : Nat) : List LedgerEvent := List.replicate n (claimedEvent "0")

theorem claimsIn_claimBatch (n : Nat) :
    claimsIn marketEnv.serde (claimBatch n) = List.replicate n ⟨"lbt1", "0"⟩ :=
  List.filterMap_replicate_of_some rfl

theorem totalNano_claimBatch (n : Nat) :
    totalNano (List.replicate n (⟨"lbt1", "0"⟩ : BountyClaimed)) = 0 := by
  have hzero : BountyClaimed.nano ⟨"lbt1", "0"⟩ = 0 := by decide
  rw [totalNano, List.map_replicate, hzero, List.sum_replicate_nat, Nat.mul_zero]

theorem classifyEvents_claimBatch (n : Nat) :
    classifyEvents marketEnv.codec marketEnv.serde (claimBatch (n + 1)) =
      .bountyEvent "lbt1" (.claimed (UInt32.ofNat (n + 1)) "0") := by
  have hatt : (claimBatch (n + 1)).findSome?
      (attestationIdOf marketEnv.codec marketEnv.serde) = none := by
    refine List.findSome?_eq_none_iff.2 fun ev hev => ?_
    rw [List.eq_of_mem_replicate hev]
    rfl
  have hfirst : (claimBatch (n + 1)).findSome? (notedOf marketEnv.serde) =
      some ("lbt1", .posted) := by
    rw [claimBatch, List.replicate_succ, List.findSome?_cons]
    rfl
  rw [classifyEvents_bounty hatt hfirst, claimsIn_claimBatch, totalNano_claimBatch,
    List.length_replicate, if_neg (by simp)]
  rfl

/-- One claim more than the count column can hold. -/
def hugeClaim : Visit marketEnv where
  client := marketNode
  work := bountyWork "0xbb" 2 (.claimed (UInt32.ofNat (2147483647 + 1)) "0")
  events := claimBatch (2147483647 + 1)
  kind := (classifyEvents_claimBatch 2147483647).symm

theorem claimsOn_hugeClaim :
    hugeClaim.claimsOn "lbt1" = List.replicate (2147483647 + 1) ⟨"lbt1", "0"⟩ := by
  rw [Visit.claimsOn, hugeClaim, claimsIn_claimBatch]
  apply List.filter_eq_self.2
  intro d hd
  rw [List.eq_of_mem_replicate hd]
  rfl

theorem claimsOver_hugeClaim : claimsOver "lbt1" [postedVisit, hugeClaim] =
    List.replicate (2147483647 + 1) ⟨"lbt1", "0"⟩ := by
  have hposted : postedVisit.claimsOn "lbt1" = [] := rfl
  rw [claimsOver, List.flatMap_cons, List.flatMap_singleton, hposted, List.nil_append,
    claimsOn_hugeClaim]

theorem onMarket_hugeClaim : OnMarket hugeClaim where
  client := rfl
  events ev hev := by
    rw [List.eq_of_mem_replicate hev]
    exact marketEvent_claimed (by decide)
  unmixed i _ := by
    rw [Visit.terminates, List.any_eq_false]
    intro ev hev
    rw [List.eq_of_mem_replicate hev]
    exact Bool.false_ne_true

theorem unaccounted_hugeClaim : Unaccounted [postedVisit, hugeClaim] := by
  refine ⟨bountyHistory_market ?_ ?_ ?_, _, rfl, ?_⟩
  · intro v hv
    rw [List.mem_singleton.1 hv]
    exact onMarket_hugeClaim
  · have hposted : postedVisit.terminates "lbt1" = false := rfl
    simp [hposted]
  · rw [claimsOver_hugeClaim, totalNano_claimBatch]
    exact Nat.zero_le _
  · rintro ⟨r, -, hacc⟩
    have hcount := hacc.claimCount
    rw [claimsOver_hugeClaim, List.length_replicate] at hcount
    have hlt := r.claimCount.toInt_lt
    omega

/-- Each of the three conditions on the classifier is needed. -/
theorem bounty_escrow_unaccounted :
    Unaccounted [postedVisit, resolvedAndFinalised] ∧ Unaccounted [postedVisit, maskedClaim] ∧
      Unaccounted [postedVisit, hugeClaim] :=
  ⟨unaccounted_resolvedAndFinalised, unaccounted_maskedClaim, unaccounted_hugeClaim⟩

end Market

end LigateApi.Indexer
