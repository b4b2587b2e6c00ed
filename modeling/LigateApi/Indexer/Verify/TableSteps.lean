import LigateApi.Indexer.Verify.Writes
import LigateApi.Indexer.Verify.Stored
import LigateApi.Indexer.Verify.SeenAt

/-!
# What a statement does to its table

Each statement writes one table. The transitions of a table are listed with what the statement has
checked before it wrote (`SlotsStep` and the ones after it), and `Write.table` sends every accepted
statement to the transition of its table. What is said of a table is then proved for the two or
three transitions it has.
-/

namespace LigateApi.Indexer

open Lib Lib.Run

/-- The part of `flip_pending_slots` that concerns one row. -/
def flipRow (now : Int) (r : SlotRow) : SlotRow :=
  if r.finalityStatus = some "pending" then
    { r with finalityStatus := some "finalized", finalizedAt := some now }
  else r

inductive SlotsStep (db : Db) : List SlotRow → Prop
  | put (row : SlotRow) (now : Int) :
      SlotsStep db (Table.upsert SlotRow.height row (mergeSlotRow row now) db.slots)
  | flip (height : Int64) (now : Int) :
      SlotsStep db (Table.update SlotRow.height height (flipRow now) db.slots)

inductive TransactionsStep (db : Db) : List TxRow → Prop
  | put (row : TxRow) (hcheck : row.check = .ok ()) (hcommitted : row.outcome = "committed")
      (hfree : ¬ db.positionTaken row) (hslot : db.hasSlot row.slot) :
      TransactionsStep db (Table.upsert TxRow.hash row (mergeTxRow row) db.transactions)

inductive AttestorSetsStep (db : Db) : List AttestorSetRow → Prop
  | put (row : AttestorSetRow)
      (hthreshold : 1 ≤ row.threshold.toInt ∧ row.threshold.toInt ≤ 64)
      (hcount : row.schemaCount = 0) (hslot : db.hasSlot row.registeredAtSlot)
      (htx : db.hasTx row.registeredAtTx) :
      AttestorSetsStep db (Table.upsert AttestorSetRow.id row
        (fun old => { row with id := old.id, schemaCount := old.schemaCount }) db.attestorSets)
  | count (id : String) (old : AttestorSetRow) (n : Int32)
      (hold : Table.lookup AttestorSetRow.id id db.attestorSets = some old)
      (hn : n.toInt = old.schemaCount.toInt + 1) :
      AttestorSetsStep db (Table.update AttestorSetRow.id id
        (fun r => { r with schemaCount := n }) db.attestorSets)

inductive SchemasStep (db : Db) : List SchemaRow → Prop
  | register (d : IndexerRegisterSchema) (hash : String) (n : UInt64) (timestamp : Int)
      (hnew : ¬ db.hasSchema d.schemaId) (haccepted : SchemaAccepted d db)
      (hslot : db.hasSlot n.toInt64) (htx : db.hasTx hash) :
      SchemasStep db (db.schemas ++ [schemaRow d hash n timestamp])
  | count (id : String) (old : SchemaRow) (n : Int32)
      (hold : Table.lookup SchemaRow.id id db.schemas = some old)
      (hn : n.toInt = old.attestationCount.toInt + 1) :
      SchemasStep db (Table.update SchemaRow.id id
        (fun r => { r with attestationCount := n }) db.schemas)

inductive AttestationsStep (db : Db) : List AttestationRow → Prop
  | submit (d : IndexerSubmitAttestation) (hash : String) (n : UInt64) (timestamp : Int)
      (hnew : ¬ db.hasAttestation d.id) (haccepted : AttestationAccepted d hash db)
      (hsignatures : 1 ≤ (clampInt32 d.signatureCount).toInt) (hslot : db.hasSlot n.toInt64)
      (htx : db.hasTx hash) :
      AttestationsStep db (db.attestations ++ [attestationRow d hash n timestamp])
  | refresh (id : String) (n : Int32) (hn : 1 ≤ n.toInt) :
      AttestationsStep db (Table.update AttestationRow.id id
        (fun r => { r with signatureCount := n }) db.attestations)

inductive SummariesStep (db : Db) : List AddressSummaryRow → Prop
  | sight (row : AddressSummaryRow)
      (hnew : Table.lookup AddressSummaryRow.address row.address db.addressSummaries = none)
      (hcheck : row.check = .ok ()) (hfirst : row.firstSeenSlot.isSome)
      (hlast : row.lastSeenSlot.isSome) : SummariesStep db (db.addressSummaries ++ [row])
  | activity (old : AddressSummaryRow) (sent received : Int64) (slot : Int64) (hash : String)
      (timestamp : Int)
      (hold : Table.lookup AddressSummaryRow.address old.address db.addressSummaries = some old)
      (hsent : old.txsSentCount.toInt ≤ sent.toInt)
      (hreceived : old.txsReceivedCount.toInt ≤ received.toInt)
      (hcheck : (mergeActivity old sent received slot hash timestamp).check = .ok ()) :
      SummariesStep db (Table.update AddressSummaryRow.address old.address
        (fun _ => mergeActivity old sent received slot hash timestamp) db.addressSummaries)
  | owned (old : AddressSummaryRow) (n : Int32)
      (hold : Table.lookup AddressSummaryRow.address old.address db.addressSummaries = some old)
      (hn : n.toInt = old.schemasOwnedCount.toInt + 1)
      (hcheck : { old with schemasOwnedCount := n }.check = .ok ()) :
      SummariesStep db (Table.update AddressSummaryRow.address old.address
        (fun _ => { old with schemasOwnedCount := n }) db.addressSummaries)

inductive BountiesStep (db : Db) : List BountyRow → Prop
  | put (id : String) (record : BountyRecord) (n : UInt64) (hash : String) (timestamp : Int)
      (hboard : db.hasSchema record.boardSchemaId) :
      BountiesStep db (Table.upsert BountyRow.id (bountyRow id record n hash timestamp)
        (mergeBountyRow (bountyRow id record n hash timestamp)) db.bounties)
  | claim (id : String) (old : BountyRow) (escrow : String) (claims : Int32) (slot : Int64)
      (hold : Table.lookup BountyRow.id id db.bounties = some old)
      (hclaims : old.claimCount.toInt ≤ claims.toInt) :
      BountiesStep db (Table.update BountyRow.id id
        (fun r => { r with escrowRemainingNano := escrow, claimCount := claims,
                           lastClaimAtSlot := some slot }) db.bounties)
  | zero (id : String) :
      BountiesStep db (Table.update BountyRow.id id
        (fun r => { r with escrowRemainingNano := "0" }) db.bounties)

inductive ContractsStep (env : Env) (db : Db) : List ContractRow → Prop
  | put (id : String) (record : ContractRecord) (n : UInt64) (hash : String) (timestamp : Int) :
      ContractsStep env db
        (Table.upsert ContractRow.id (contractRow env.serde id record n hash timestamp)
          (mergeContractRow (contractRow env.serde id record n hash timestamp)) db.contracts)
  | zero (id : String) :
      ContractsStep env db (Table.update ContractRow.id id
        (fun r => { r with escrowRemainingNano := "0" }) db.contracts)

/-- One table changes, by one of its transitions. -/
inductive TableStep (env : Env) (db : Db) : Db → Prop
  | same : TableStep env db db
  | cursor (height : UInt64) : TableStep env db { db with lastIndexedHeight := some height }
  | slots {t : List SlotRow} (h : SlotsStep db t) : TableStep env db { db with slots := t }
  | transactions {t : List TxRow} (h : TransactionsStep db t) :
      TableStep env db { db with transactions := t }
  | attestorSets {t : List AttestorSetRow} (h : AttestorSetsStep db t) :
      TableStep env db { db with attestorSets := t }
  | schemas {t : List SchemaRow} (h : SchemasStep db t) : TableStep env db { db with schemas := t }
  | attestations {t : List AttestationRow} (h : AttestationsStep db t) :
      TableStep env db { db with attestations := t }
  | summaries {t : List AddressSummaryRow} (h : SummariesStep db t) :
      TableStep env db { db with addressSummaries := t }
  | bounties {t : List BountyRow} (h : BountiesStep db t) :
      TableStep env db { db with bounties := t }
  | contracts {t : List ContractRow} (h : ContractsStep env db t) :
      TableStep env db { db with contracts := t }

section Steps

variable {env : Env} {db db' : Db} {hash : String} {n : UInt64} {timestamp : Int}

theorem insertTransaction_table {c : ClassifiedTx} {p : Int32} {d : Option DecodedTxBody}
    (h : insertTransaction c n p d db = .ok db') : TableStep env db db' := by
  cases hc : c.outcome with
  | skipped =>
    simp only [insertTransaction, hc, outcomeText, Except.ok.injEq] at h
    exact h ▸ .same
  | reverted => exact absurd h (insertTransaction_reverted hc)
  | committed =>
    rw [insertTransaction_committed hc] at h
    obtain ⟨hcheck, -, hfree, hslot, rfl⟩ := upsertTxRow_eq_ok.1 h
    exact .transactions (.put _ hcheck rfl hfree hslot)

/-- A threshold the CHECK accepts fits the column. -/
theorem toInt_threshold {k : Nat} (hk : k ≤ 64) : (Int32.ofNat k).toInt = k := by
  have hsize : Int32.size = 2 ^ 32 := rfl
  rw [Int32.toInt_ofNat', hsize]
  exact Int.bmod_eq_of_le (by omega) (by omega)

theorem insertAttestorSet_table {d : IndexerRegisterAttestorSet}
    (h : insertAttestorSet d hash n timestamp db = .ok db') : TableStep env db db' := by
  simp only [insertAttestorSet, require_bind_eq_ok, pure, Except.pure, Except.ok.injEq] at h
  obtain ⟨⟨hlow, hhigh⟩, hslot, htx, rfl⟩ := h
  refine .attestorSets (.put _ ?_ rfl hslot htx)
  have hthreshold := toInt_threshold hhigh
  dsimp only
  omega

theorem bumpAttestorSetSchemaCount_table {id : String}
    (h : bumpAttestorSetSchemaCount id db = .ok db') : TableStep env db db' := by
  rcases bumpAttestorSetSchemaCount_ok h with ⟨-, rfl⟩ | ⟨old, k, hold, hk, rfl⟩
  · exact .same
  · exact .attestorSets (.count id old k hold hk)

theorem insertSchema_table {d : IndexerRegisterSchema}
    (h : insertSchema d hash n timestamp db = .ok db') : TableStep env db db' := by
  by_cases hs : db.hasSchema d.schemaId
  · exact insertSchema_known hs h ▸ .same
  · obtain ⟨haccepted, hslot, htx, rfl⟩ := (insertSchema_new hs).1 h
    exact .schemas (.register d hash n timestamp hs haccepted hslot htx)

theorem bumpSchemaAttestationCount_table {id : String}
    (h : bumpSchemaAttestationCount id db = .ok db') : TableStep env db db' := by
  rcases bumpSchemaAttestationCount_ok h with ⟨-, rfl⟩ | ⟨old, k, hold, hk, rfl⟩
  · exact .same
  · exact .schemas (.count id old k hold hk)

theorem insertAttestation_table {d : IndexerSubmitAttestation}
    (h : insertAttestation d hash n timestamp db = .ok db') : TableStep env db db' := by
  by_cases hs : db.hasAttestation d.id
  · obtain ⟨hpos, rfl⟩ := (insertAttestation_known hs).1 h
    exact .attestations (.refresh d.id _ hpos)
  · obtain ⟨hpos, haccepted, hslot, htx, rfl⟩ := (insertAttestation_new hs).1 h
    exact .attestations (.submit d hash n timestamp hs haccepted hpos hslot htx)

theorem bumpAddressSchemasOwned_table {owner : String}
    (h : bumpAddressSchemasOwned owner n hash timestamp db = .ok db') : TableStep env db db' := by
  unfold bumpAddressSchemasOwned at h
  split at h
  · rename_i hl
    cases h
    refine .summaries (.sight _ hl ?_ rfl rfl)
    rw [AddressSummaryRow.check_eq_ok]
    simp [freshSummary, AddressSummaryRow.CountsNonneg]
  · rename_i old hl
    obtain ⟨k, hk, h⟩ := bind_eq_ok.1 h
    simp only [unit_bind_eq_ok, pure, Except.pure, Except.ok.injEq] at h
    obtain ⟨hcheck, rfl⟩ := h
    obtain rfl := Table.lookup_key hl
    exact .summaries (.owned old k hl (addInt32_ok hk) hcheck)

theorem upsertAddressActivity_table {a : String} {role : AddressRole}
    (h : upsertAddressActivity a role n hash timestamp db = .ok db') : TableStep env db db' := by
  unfold upsertAddressActivity at h
  cases hl : Table.lookup AddressSummaryRow.address a db.addressSummaries with
  | none =>
    simp only [hl, pure, Except.pure, Except.ok.injEq] at h
    subst h
    refine .summaries (.sight _ hl ?_ rfl rfl)
    rw [AddressSummaryRow.check_eq_ok]
    cases role <;> simp [freshSummary, AddressSummaryRow.CountsNonneg]
  | some old =>
    simp only [hl] at h
    obtain ⟨sent, hsent, h⟩ := bind_eq_ok.1 h
    obtain ⟨received, hreceived, h⟩ := bind_eq_ok.1 h
    simp only [unit_bind_eq_ok, pure, Except.pure, Except.ok.injEq] at h
    obtain ⟨hcheck, rfl⟩ := h
    obtain rfl := Table.lookup_key hl
    have hs := addInt64_ok hsent
    have hr := addInt64_ok hreceived
    refine .summaries (.activity old sent received _ hash timestamp hl ?_ ?_ hcheck)
    · rw [hs]
      cases role <;> simp
    · rw [hr]
      cases role <;> simp

theorem applyBountyClaim_table {id payout : String} {count : UInt32}
    (h : applyBountyClaim env id payout (clampInt32 count) n db = .ok db') :
    TableStep env db db' := by
  rcases applyBountyClaim_ok h with ⟨-, rfl⟩ | ⟨old, escrow, claims, hold, hclaims, rfl⟩
  · exact .same
  · refine .bounties (.claim id old escrow claims _ hold ?_)
    rw [hclaims, toInt_clampInt32]
    omega

/-- **Every accepted statement is a transition of one table.** -/
theorem Write.table (h : Write env db db') : TableStep env db db' := by
  cases h with
  | slot slot proposer daBlockHeight now lookupOk => exact .slots (.put _ now)
  | flip height now => exact .slots (.flip _ now)
  | cursor height => exact .cursor height
  | transaction h => exact insertTransaction_table h
  | activity h => exact upsertAddressActivity_table h
  | attestorSet h => exact insertAttestorSet_table h
  | schema h => exact insertSchema_table h
  | schemaCount h => exact bumpAttestorSetSchemaCount_table h
  | schemasOwned h => exact bumpAddressSchemasOwned_table h
  | attestation h => exact insertAttestation_table h
  | attestationCount h => exact bumpSchemaAttestationCount_table h
  | bounty h =>
    obtain ⟨hboard, rfl⟩ := upsertBounty_ok h
    exact .bounties (.put _ _ _ _ _ hboard)
  | bountyClaim h => exact applyBountyClaim_table h
  | bountyZero h =>
    cases h
    exact .bounties (.zero _)
  | contract h => exact upsertContract_eq h ▸ .contracts (.put _ _ _ _ _)
  | contractZero h =>
    cases h
    exact .contracts (.zero _)

end Steps

end LigateApi.Indexer
