import LigateApi.Indexer.Verify.Intact

/-!
# What stays over a run

Rows stay, and so does most of what they say. A schema is what it was registered as but for its
number of attestations, an attestation but for its number of signatures; a bounty and a contract
keep where they were posted; the counters only go up, and what is known of a slot or of a
transaction's signer does not get unknown again. `Later` says this of two states of the database,
row by row, and holds of any two states of a run (`Written.later`).
-/

namespace LigateApi.Indexer

open Lib Lib.Run

/-- A known value does not get unknown. -/
def Kept {α : Type} (o o' : Option α) : Prop := o.isSome → o'.isSome

theorem Kept.refl {α : Type} (o : Option α) : Kept o o := fun h => h

theorem Kept.trans {α : Type} {a b c : Option α} (h : Kept a b) (h' : Kept b c) : Kept a c :=
  fun ha => h' (h ha)

/-- `COALESCE(new, old)` -/
theorem kept_or {α : Type} (new old : Option α) : Kept old (new.or old) := by
  intro h
  cases new with
  | none => exact h
  | some a => rfl

/-- A bound that is there stays a bound: `r` holds between the old one and the new one. -/
def Bounds {α : Type} (r : α → α → Prop) (o o' : Option α) : Prop := ∀ a ∈ o, ∃ a' ∈ o', r a a'

theorem Bounds.refl {α : Type} {r : α → α → Prop} (hr : ∀ a, r a a) (o : Option α) : Bounds r o o :=
  fun a ha => ⟨a, ha, hr a⟩

theorem Bounds.trans {α : Type} {r : α → α → Prop} (hr : ∀ a b c, r a b → r b c → r a c)
    {a b c : Option α} (h : Bounds r a b) (h' : Bounds r b c) : Bounds r a c := by
  intro x hx
  obtain ⟨y, hy, hxy⟩ := h x hx
  obtain ⟨z, hz, hyz⟩ := h' y hy
  exact ⟨z, hz, hr x y z hxy hyz⟩

/-! ## Rows -/

structure SlotRow.Later (r r' : SlotRow) : Prop where
  prevHash : Kept r.prevHash r'.prevHash
  proposer : Kept r.proposer r'.proposer
  daBlockHeight : Kept r.daBlockHeight r'.daBlockHeight
  finalizedAt : Kept r.finalizedAt r'.finalizedAt

structure TxRow.Later (r r' : TxRow) : Prop where
  sender : Kept r.sender r'.sender
  senderPubkey : Kept r.senderPubkey r'.senderPubkey
  nonce : Kept r.nonce r'.nonce

def AttestorSetRow.Later (r r' : AttestorSetRow) : Prop :=
  r.schemaCount.toInt ≤ r'.schemaCount.toInt

structure SchemaRow.Later (r r' : SchemaRow) : Prop where
  same : r' = { r with attestationCount := r'.attestationCount }
  attestationCount : r.attestationCount.toInt ≤ r'.attestationCount.toInt

def AttestationRow.Later (r r' : AttestationRow) : Prop :=
  r' = { r with signatureCount := r'.signatureCount }

structure AddressSummaryRow.Later (r r' : AddressSummaryRow) : Prop where
  sent : r.txsSentCount.toInt ≤ r'.txsSentCount.toInt
  received : r.txsReceivedCount.toInt ≤ r'.txsReceivedCount.toInt
  owned : r.schemasOwnedCount.toInt ≤ r'.schemasOwnedCount.toInt
  member : r'.attestorMemberCount = r.attestorMemberCount
  firstSlot : Bounds (fun s s' => s'.toInt ≤ s.toInt) r.firstSeenSlot r'.firstSeenSlot
  firstTimestamp : Bounds (fun s s' => s' ≤ s) r.firstSeenTimestamp r'.firstSeenTimestamp
  lastSlot : Bounds (fun s s' => s.toInt ≤ s'.toInt) r.lastSeenSlot r'.lastSeenSlot
  lastTimestamp : Bounds (fun s s' => s ≤ s') r.lastSeenTimestamp r'.lastSeenTimestamp

structure BountyRow.Later (r r' : BountyRow) : Prop where
  postedAtSlot : r'.postedAtSlot = r.postedAtSlot
  postedAtTx : r'.postedAtTx = r.postedAtTx
  postedAtTimestamp : r'.postedAtTimestamp = r.postedAtTimestamp
  claimCount : r.claimCount.toInt ≤ r'.claimCount.toInt
  lastClaimAtSlot : Kept r.lastClaimAtSlot r'.lastClaimAtSlot

structure ContractRow.Later (r r' : ContractRow) : Prop where
  postedAtSlot : r'.postedAtSlot = r.postedAtSlot
  postedAtTx : r'.postedAtTx = r.postedAtTx
  postedAtTimestamp : r'.postedAtTimestamp = r.postedAtTimestamp
  escrow : r.escrowRemainingNano = "0" → r'.escrowRemainingNano = "0"

section Rows

theorem SlotRow.Later.refl (r : SlotRow) : r.Later r :=
  ⟨Kept.refl _, Kept.refl _, Kept.refl _, Kept.refl _⟩

theorem SlotRow.Later.trans {a b c : SlotRow} (h : a.Later b) (h' : b.Later c) : a.Later c :=
  ⟨h.prevHash.trans h'.prevHash, h.proposer.trans h'.proposer,
    h.daBlockHeight.trans h'.daBlockHeight, h.finalizedAt.trans h'.finalizedAt⟩

theorem TxRow.Later.refl (r : TxRow) : r.Later r := ⟨Kept.refl _, Kept.refl _, Kept.refl _⟩

theorem TxRow.Later.trans {a b c : TxRow} (h : a.Later b) (h' : b.Later c) : a.Later c :=
  ⟨h.sender.trans h'.sender, h.senderPubkey.trans h'.senderPubkey, h.nonce.trans h'.nonce⟩

theorem AttestorSetRow.Later.refl (r : AttestorSetRow) : r.Later r := Int.le_refl _

theorem AttestorSetRow.Later.trans {a b c : AttestorSetRow} (h : a.Later b) (h' : b.Later c) :
    a.Later c :=
  Int.le_trans h h'

theorem SchemaRow.Later.refl (r : SchemaRow) : r.Later r := ⟨rfl, le_refl _⟩

theorem SchemaRow.Later.trans {a b c : SchemaRow} (h : a.Later b) (h' : b.Later c) :
    a.Later c := by
  refine ⟨?_, h.attestationCount.trans h'.attestationCount⟩
  have hb := h.same
  have hc := h'.same
  rw [hb] at hc
  exact hc

theorem AttestationRow.Later.refl (r : AttestationRow) : r.Later r := rfl

theorem AttestationRow.Later.trans {a b c : AttestationRow} (h : a.Later b) (h' : b.Later c) :
    a.Later c := by
  unfold AttestationRow.Later at h h' ⊢
  rw [h] at h'
  exact h'

theorem AddressSummaryRow.Later.refl (r : AddressSummaryRow) : r.Later r where
  sent := le_refl _
  received := le_refl _
  owned := le_refl _
  member := rfl
  firstSlot := Bounds.refl (fun s => Int.le_refl s.toInt) _
  firstTimestamp := fun t ht => ⟨t, ht, Int.le_refl t⟩
  lastSlot := Bounds.refl (fun s => Int.le_refl s.toInt) _
  lastTimestamp := fun t ht => ⟨t, ht, Int.le_refl t⟩

theorem AddressSummaryRow.Later.trans {a b c : AddressSummaryRow} (h : a.Later b)
    (h' : b.Later c) : a.Later c where
  sent := h.sent.trans h'.sent
  received := h.received.trans h'.received
  owned := h.owned.trans h'.owned
  member := h'.member.trans h.member
  firstSlot := h.firstSlot.trans (fun _ _ _ hab hbc => hbc.trans hab) h'.firstSlot
  firstTimestamp := h.firstTimestamp.trans (fun _ _ _ hab hbc => hbc.trans hab) h'.firstTimestamp
  lastSlot := h.lastSlot.trans (fun _ _ _ hab hbc => hab.trans hbc) h'.lastSlot
  lastTimestamp := h.lastTimestamp.trans (fun _ _ _ hab hbc => hab.trans hbc) h'.lastTimestamp

theorem BountyRow.Later.refl (r : BountyRow) : r.Later r :=
  ⟨rfl, rfl, rfl, le_refl _, Kept.refl _⟩

theorem BountyRow.Later.trans {a b c : BountyRow} (h : a.Later b) (h' : b.Later c) : a.Later c :=
  ⟨h'.postedAtSlot.trans h.postedAtSlot, h'.postedAtTx.trans h.postedAtTx,
    h'.postedAtTimestamp.trans h.postedAtTimestamp, h.claimCount.trans h'.claimCount,
    h.lastClaimAtSlot.trans h'.lastClaimAtSlot⟩

theorem ContractRow.Later.refl (r : ContractRow) : r.Later r := ⟨rfl, rfl, rfl, fun h => h⟩

theorem ContractRow.Later.trans {a b c : ContractRow} (h : a.Later b) (h' : b.Later c) :
    a.Later c :=
  ⟨h'.postedAtSlot.trans h.postedAtSlot, h'.postedAtTx.trans h.postedAtTx,
    h'.postedAtTimestamp.trans h.postedAtTimestamp, fun hzero => h'.escrow (h.escrow hzero)⟩

end Rows

/-- `db'` is a later state of `db`: every row is there still, in a later state of its own. -/
structure Later (db db' : Db) : Prop where
  slots : Table.Follows SlotRow.height SlotRow.Later db.slots db'.slots
  cursor : Kept db.lastIndexedHeight db'.lastIndexedHeight
  transactions : Table.Follows TxRow.hash TxRow.Later db.transactions db'.transactions
  attestorSets : Table.Follows AttestorSetRow.id AttestorSetRow.Later db.attestorSets
    db'.attestorSets
  schemas : Table.Follows SchemaRow.id SchemaRow.Later db.schemas db'.schemas
  attestations : Table.Follows AttestationRow.id AttestationRow.Later db.attestations
    db'.attestations
  summaries : Table.Follows AddressSummaryRow.address AddressSummaryRow.Later db.addressSummaries
    db'.addressSummaries
  bounties : Table.Follows BountyRow.id BountyRow.Later db.bounties db'.bounties
  contracts : Table.Follows ContractRow.id ContractRow.Later db.contracts db'.contracts

theorem Later.refl (db : Db) : Later db db where
  slots := .refl SlotRow.Later.refl _
  cursor := Kept.refl _
  transactions := .refl TxRow.Later.refl _
  attestorSets := .refl AttestorSetRow.Later.refl _
  schemas := .refl SchemaRow.Later.refl _
  attestations := .refl AttestationRow.Later.refl _
  summaries := .refl AddressSummaryRow.Later.refl _
  bounties := .refl BountyRow.Later.refl _
  contracts := .refl ContractRow.Later.refl _

theorem Later.trans {a b c : Db} (h : Later a b) (h' : Later b c) : Later a c where
  slots := h.slots.trans (fun _ _ _ => SlotRow.Later.trans) h'.slots
  cursor := h.cursor.trans h'.cursor
  transactions := h.transactions.trans (fun _ _ _ => TxRow.Later.trans) h'.transactions
  attestorSets := h.attestorSets.trans (fun _ _ _ => AttestorSetRow.Later.trans) h'.attestorSets
  schemas := h.schemas.trans (fun _ _ _ => SchemaRow.Later.trans) h'.schemas
  attestations := h.attestations.trans (fun _ _ _ => AttestationRow.Later.trans) h'.attestations
  summaries := h.summaries.trans (fun _ _ _ => AddressSummaryRow.Later.trans) h'.summaries
  bounties := h.bounties.trans (fun _ _ _ => BountyRow.Later.trans) h'.bounties
  contracts := h.contracts.trans (fun _ _ _ => ContractRow.Later.trans) h'.contracts

/-! ## One table at a time -/

section Tables

variable {env : Env} {db db' : Db}

theorem later_mergeSlotRow (row : SlotRow) (now : Int) (old : SlotRow) :
    old.Later (mergeSlotRow row now old) where
  prevHash := kept_or _ _
  proposer := kept_or _ _
  daBlockHeight := kept_or _ _
  finalizedAt h := by
    unfold mergeSlotRow
    dsimp only
    split
    · rfl
    · exact h

theorem later_flipRow (now : Int) (r : SlotRow) : r.Later (flipRow now r) := by
  unfold flipRow
  split
  · exact { SlotRow.Later.refl r with finalizedAt := fun _ => rfl }
  · exact SlotRow.Later.refl r

theorem later_slotsStep {t : List SlotRow} (h : SlotsStep db t) :
    Table.Follows SlotRow.height SlotRow.Later db.slots t := by
  cases h with
  | put row now =>
    exact Table.follows_upsert SlotRow.Later.refl (fun _ => rfl) fun r _ _ =>
      later_mergeSlotRow row now r
  | flip k now =>
    refine Table.follows_update SlotRow.Later.refl (fun r hr => ?_) fun r _ _ => later_flipRow now r
    unfold flipRow
    split
    · exact hr
    · exact hr

theorem later_transactionsStep {t : List TxRow} (h : TransactionsStep db t) :
    Table.Follows TxRow.hash TxRow.Later db.transactions t := by
  cases h with
  | put row =>
    exact Table.follows_upsert TxRow.Later.refl (fun _ => rfl) fun r _ _ =>
      ⟨kept_or _ _, kept_or _ _, kept_or _ _⟩

theorem later_attestorSetsStep {t : List AttestorSetRow} (h : AttestorSetsStep db t)
    (hn : (db.attestorSets.map AttestorSetRow.id).Nodup) :
    Table.Follows AttestorSetRow.id AttestorSetRow.Later db.attestorSets t := by
  cases h with
  | put row =>
    exact Table.follows_upsert AttestorSetRow.Later.refl (fun _ => rfl) fun r _ _ => Int.le_refl _
  | count id old n hold hn' =>
    refine Table.follows_update AttestorSetRow.Later.refl (fun _ hr => hr) fun r hr hk => ?_
    -- there is one row under the id, the one whose count was read
    obtain rfl : old = r := Option.some.inj (hold.symm.trans
      ((Table.lookup_eq_some_iff hn).2 ⟨hr, hk⟩))
    unfold AttestorSetRow.Later
    dsimp only
    omega

theorem later_schemasStep {t : List SchemaRow} (h : SchemasStep db t)
    (hn : (db.schemas.map SchemaRow.id).Nodup) :
    Table.Follows SchemaRow.id SchemaRow.Later db.schemas t := by
  cases h with
  | register d => exact Table.follows_snoc SchemaRow.Later.refl
  | count id old n hold hn' =>
    refine Table.follows_update SchemaRow.Later.refl (fun _ hr => hr) fun r hr hk => ⟨rfl, ?_⟩
    obtain rfl : old = r := Option.some.inj (hold.symm.trans
      ((Table.lookup_eq_some_iff hn).2 ⟨hr, hk⟩))
    dsimp only
    omega

theorem later_attestationsStep {t : List AttestationRow} (h : AttestationsStep db t) :
    Table.Follows AttestationRow.id AttestationRow.Later db.attestations t := by
  cases h with
  | submit d => exact Table.follows_snoc AttestationRow.Later.refl
  | refresh id n =>
    exact Table.follows_update AttestationRow.Later.refl (fun _ hr => hr) fun _ _ _ => rfl

theorem later_mergeActivity {old : AddressSummaryRow} {sent received slot : Int64} {hash : String}
    {timestamp : Int} (hsent : old.txsSentCount.toInt ≤ sent.toInt)
    (hreceived : old.txsReceivedCount.toInt ≤ received.toInt) :
    old.Later (mergeActivity old sent received slot hash timestamp) where
  sent := hsent
  received := hreceived
  owned := le_refl _
  member := rfl
  firstSlot s hs := by
    rw [Option.mem_def] at hs
    refine ⟨_, rfl, ?_⟩
    simp only [hs, Option.elim_some]
    split
    · rename_i hlt
      exact (Int64.lt_iff_toInt_lt.1 hlt).le
    · exact le_refl _
  firstTimestamp s hs := by
    rw [Option.mem_def] at hs
    simp only [mergeActivity, hs, Option.all_some, decide_eq_true_eq]
    split
    · rename_i hlt
      exact ⟨_, rfl, hlt.le⟩
    · exact ⟨_, rfl, le_refl _⟩
  lastSlot s hs := by
    rw [Option.mem_def] at hs
    refine ⟨_, rfl, ?_⟩
    simp only [hs, Option.elim_some]
    split
    · rename_i hlt
      exact (Int64.lt_iff_toInt_lt.1 hlt).le
    · exact le_refl _
  lastTimestamp s hs := by
    rw [Option.mem_def] at hs
    simp only [mergeActivity, hs, Option.all_some, decide_eq_true_eq]
    split
    · rename_i hlt
      exact ⟨_, rfl, hlt.le⟩
    · exact ⟨_, rfl, le_refl _⟩

theorem later_summariesStep {t : List AddressSummaryRow} (h : SummariesStep db t)
    (hn : (db.addressSummaries.map AddressSummaryRow.address).Nodup) :
    Table.Follows AddressSummaryRow.address AddressSummaryRow.Later db.addressSummaries t := by
  cases h with
  | sight row => exact Table.follows_snoc AddressSummaryRow.Later.refl
  | activity old sent received slot hash timestamp hold hsent hreceived =>
    refine Table.follows_update AddressSummaryRow.Later.refl (fun _ _ => rfl) fun r hr hk => ?_
    obtain rfl : old = r := Option.some.inj (hold.symm.trans
      ((Table.lookup_eq_some_iff hn).2 ⟨hr, hk⟩))
    exact later_mergeActivity hsent hreceived
  | owned old n hold hn' =>
    refine Table.follows_update AddressSummaryRow.Later.refl (fun _ _ => rfl) fun r hr hk => ?_
    obtain rfl : old = r := Option.some.inj (hold.symm.trans
      ((Table.lookup_eq_some_iff hn).2 ⟨hr, hk⟩))
    refine { AddressSummaryRow.Later.refl old with owned := ?_ }
    dsimp only
    omega

theorem later_bountiesStep {t : List BountyRow} (h : BountiesStep db t)
    (hn : (db.bounties.map BountyRow.id).Nodup) :
    Table.Follows BountyRow.id BountyRow.Later db.bounties t := by
  cases h with
  | put id record n hash timestamp =>
    exact Table.follows_upsert BountyRow.Later.refl (fun _ => rfl) fun r _ _ =>
      { BountyRow.Later.refl r with }
  | claim id old escrow claims slot hold hclaims =>
    refine Table.follows_update BountyRow.Later.refl (fun _ hr => hr) fun r hr hk => ?_
    obtain rfl : old = r := Option.some.inj (hold.symm.trans
      ((Table.lookup_eq_some_iff hn).2 ⟨hr, hk⟩))
    exact ⟨rfl, rfl, rfl, hclaims, fun _ => rfl⟩
  | zero id =>
    exact Table.follows_update BountyRow.Later.refl (fun _ hr => hr) fun r _ _ =>
      { BountyRow.Later.refl r with }

theorem later_contractsStep {t : List ContractRow} (h : ContractsStep env db t) :
    Table.Follows ContractRow.id ContractRow.Later db.contracts t := by
  cases h with
  | put id record n hash timestamp =>
    exact Table.follows_upsert ContractRow.Later.refl (fun _ => rfl) fun r _ _ =>
      { ContractRow.Later.refl r with }
  | zero id =>
    exact Table.follows_update ContractRow.Later.refl (fun _ hr => hr) fun r _ _ =>
      { ContractRow.Later.refl r with escrow := fun _ => rfl }

end Tables

/-! ## Runs -/

section Runs

variable {env : Env} {db db' : Db}

theorem TableStep.later (hstep : TableStep env db db') (h : Intact db) : Later db db' := by
  have hrefl := Later.refl db
  cases hstep with
  | same => exact hrefl
  | cursor height => exact { hrefl with cursor := fun _ => rfl }
  | slots hs => exact { hrefl with slots := later_slotsStep hs }
  | transactions hs => exact { hrefl with transactions := later_transactionsStep hs }
  | attestorSets hs =>
    exact { hrefl with attestorSets := later_attestorSetsStep hs h.attestorSets.unique }
  | schemas hs => exact { hrefl with schemas := later_schemasStep hs h.schemas.unique }
  | attestations hs => exact { hrefl with attestations := later_attestationsStep hs }
  | summaries hs => exact { hrefl with summaries := later_summariesStep hs h.summaries.unique }
  | bounties hs => exact { hrefl with bounties := later_bountiesStep hs h.bounties.unique }
  | contracts hs => exact { hrefl with contracts := later_contractsStep hs }

theorem Written.later (hw : Written env db db') (h : Intact db) : Later db db' :=
  hw.related Later.refl (fun _ _ _ => Later.trans) (fun _ _ hstep => hstep.table.intact)
    (fun _ _ hstep => hstep.table.later) h

/-- **What a run keeps.** From any reachable state on, whatever fails and wherever the process dies,
every row stays, in a later state of its own. -/
theorem later_of_run {es fs : List Event} {s t : IndexerState}
    (hs : exec (step env) .init es = some s) (ht : exec (step env) s fs = some t) :
    Later s.db t.db :=
  (written_run ht).later ((written_run hs).intact intact_empty)

/-- The process dies before the cursor is written and walks the slot again: the set keeps its row,
and its count has gone up. -/
theorem later_of_run_rewalked :
    ∃ s t, exec (step registryEnv) .init (registryWalk .refused) = some s ∧
      exec (step registryEnv) s (.crash :: registryWalk .ok) = some t ∧
      s.db.attestorSets.map AttestorSetRow.schemaCount = [1] ∧
      t.db.attestorSets.map AttestorSetRow.schemaCount = [2] ∧ Later s.db t.db := by
  have hfirst : (exec (step registryEnv) .init (registryWalk .refused)).map
      (fun s => s.db.attestorSets.map AttestorSetRow.schemaCount) = some [1] := by decide
  have hboth : (exec (step registryEnv) .init rewalkRun).map
      (fun s => s.db.attestorSets.map AttestorSetRow.schemaCount) = some [2] := by decide
  obtain ⟨t, ht, htwo⟩ := Option.map_eq_some_iff.1 hboth
  obtain ⟨s, hs, hrest⟩ := exec_cut.1 ht
  rw [hs, Option.map_some, Option.some.injEq] at hfirst
  exact ⟨s, t, hs, hrest, hfirst, htwo, later_of_run hs hrest⟩

end Runs

end LigateApi.Indexer
