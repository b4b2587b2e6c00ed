import LigateApi.Indexer.Ingest
import LigateApi.Lib.Run

/-!
# What the statements do

One lemma per statement: when it succeeds, which rows it has found and what the database is
afterwards. Below them the rule for a sequence of statements, `Keeps`: a part of the database that
no statement of the sequence writes is the same after it, whatever fails and wherever the process
dies. `processTx` writes `transactions` in its first statement only (`transactions_processTx`).
-/

namespace LigateApi.Indexer

open Lib Lib.Run

/-! ## Constraints -/

@[simp] theorem require_bind_eq_ok {α : Type} {p : Prop} [Decidable p] {e : DbError}
    {f : Unit → Except DbError α} {x : α} :
    (require p e >>= f) = .ok x ↔ p ∧ f () = .ok x := by
  by_cases h : p <;> simp [require, h, bind, Except.bind]

@[simp] theorem require_eq_ok {p : Prop} [Decidable p] {e : DbError} {u : Unit} :
    require p e = .ok u ↔ p := by
  by_cases h : p <;> simp [require, h]

theorem unit_bind_eq_ok {β : Type} {x : Except DbError Unit} {f : Unit → Except DbError β} {b : β} :
    (x >>= f) = .ok b ↔ x = .ok () ∧ f () = .ok b := by
  rw [bind_eq_ok]
  exact ⟨fun ⟨_, h⟩ => h, fun h => ⟨(), h⟩⟩

theorem addInt32_ok {n k m : Int32} (h : addInt32 n k = .ok m) : m.toInt = n.toInt + k.toInt := by
  unfold addInt32 at h
  split at h
  · rename_i hr
    cases h
    rw [Int32.toInt_add]
    exact Int.bmod_eq_of_le (by omega) (by omega)
  · cases h

theorem addInt64_ok {n k m : Int64} (h : addInt64 n k = .ok m) : m.toInt = n.toInt + k.toInt := by
  unfold addInt64 at h
  split at h
  · rename_i hr
    cases h
    rw [Int64.toInt_add]
    exact Int.bmod_eq_of_le (by omega) (by omega)
  · cases h

/-- `n as i64` keeps what fits. -/
theorem toInt_toInt64 {n : UInt64} (h : n.toNat < 2 ^ 63) : n.toInt64.toInt = n.toNat := by
  have hsmall : 2 * n.toBitVec.toNat < 2 ^ 64 := by
    rw [UInt64.toNat_toBitVec]
    omega
  exact BitVec.toInt_eq_toNat_of_lt hsmall

/-! ## Transactions -/

theorem TxRow.check_eq_ok {r : TxRow} {u : Unit} :
    r.check = .ok u ↔ r.kind ∈ knownKinds ∧ r.outcome ∈ ["committed", "reverted"] ∧
      ((r.outcome = "reverted" ∧ r.revertReason.isSome) ∨
        (r.outcome = "committed" ∧ r.revertReason.isNone)) := by
  simp only [check, require_bind_eq_ok, require_eq_ok]

theorem kindAndDetails_known (k : IndexerTx) : (kindAndDetails k).1 ∈ knownKinds := by
  cases k <;> simp [kindAndDetails, knownKinds]

/-- The proposed row passes the CHECKs exactly if its outcome is `committed`: it never carries a
revert reason. -/
theorem txRow_check {c : ClassifiedTx} {n : UInt64} {p : Int32} {d : Option DecodedTxBody}
    {o : String} {u : Unit} : (txRow c n p d o).check = .ok u ↔ o = "committed" := by
  rw [TxRow.check_eq_ok]
  simp only [txRow, kindAndDetails_known, true_and, Option.isSome_none, Option.isNone_none,
    Bool.false_eq_true, and_false, false_or, and_true]
  constructor
  · exact fun h => h.2
  · rintro rfl
    simp

/-- A committed row passes them over a stored row exactly if that has no revert reason. -/
theorem mergeTxRow_check {c : ClassifiedTx} {n : UInt64} {p : Int32} {d : Option DecodedTxBody}
    {old : TxRow} {u : Unit} :
    (mergeTxRow (txRow c n p d "committed") old).check = .ok u ↔ old.revertReason = none := by
  rw [TxRow.check_eq_ok]
  simp [mergeTxRow, txRow, kindAndDetails_known]

theorem upsertTxRow_eq_ok {row : TxRow} {db db' : Db} :
    upsertTxRow row db = .ok db' ↔ row.check = .ok () ∧
      (∀ old, Table.lookup TxRow.hash row.hash db.transactions = some old →
        (mergeTxRow row old).check = .ok ()) ∧
      ¬ db.positionTaken row ∧ db.hasSlot row.slot ∧
      db' = { db with
        transactions := Table.upsert TxRow.hash row (mergeTxRow row) db.transactions } := by
  unfold upsertTxRow
  cases hl : Table.lookup TxRow.hash row.hash db.transactions <;>
    simp only [unit_bind_eq_ok, require_eq_ok, pure, Except.pure, Except.ok.injEq,
      Option.some.injEq, forall_eq', reduceCtorEq, false_implies, implies_true, true_and,
      eq_comm (a := db')]

theorem insertTransaction_committed {c : ClassifiedTx} {n : UInt64} {p : Int32}
    {d : Option DecodedTxBody} {db : Db} (hc : c.outcome = .committed) :
    insertTransaction c n p d db = upsertTxRow (txRow c n p d "committed") db := by
  simp only [insertTransaction, hc, outcomeText]

/-- No reverted transaction ever gets a row. -/
theorem insertTransaction_reverted {c : ClassifiedTx} {n : UInt64} {p : Int32}
    {d : Option DecodedTxBody} {db db' : Db} (hc : c.outcome = .reverted) :
    insertTransaction c n p d db ≠ .ok db' := by
  simp only [insertTransaction, hc, outcomeText]
  intro h
  have := txRow_check.1 (upsertTxRow_eq_ok.1 h).1
  exact absurd this (by decide)

/-- What the insert does when it succeeds: nothing for a skipped transaction, and otherwise the
upsert of a committed row over a row without revert reason. -/
theorem insertTransaction_ok {c : ClassifiedTx} {n : UInt64} {p : Int32}
    {d : Option DecodedTxBody} {db db' : Db} (h : insertTransaction c n p d db = .ok db') :
    db' = db ∨ (∀ old, Table.lookup TxRow.hash c.hash db.transactions = some old →
        old.revertReason = none) ∧
      db' = { db with
        transactions := Table.upsert TxRow.hash (txRow c n p d "committed")
          (mergeTxRow (txRow c n p d "committed")) db.transactions } := by
  cases hc : c.outcome with
  | skipped =>
    simp only [insertTransaction, hc, outcomeText, Except.ok.injEq] at h
    exact .inl h.symm
  | reverted => exact absurd h (insertTransaction_reverted hc)
  | committed =>
    rw [insertTransaction_committed hc] at h
    obtain ⟨-, hmerge, -, -, hdb⟩ := upsertTxRow_eq_ok.1 h
    refine .inr ⟨fun old hl => ?_, hdb⟩
    exact mergeTxRow_check.1 (hmerge old hl)

theorem insertTransaction_frame {c : ClassifiedTx} {n : UInt64} {p : Int32}
    {d : Option DecodedTxBody} {db db' : Db} (h : insertTransaction c n p d db = .ok db') :
    db' = { db with transactions := db'.transactions } := by
  unfold insertTransaction at h
  split at h
  · rw [(upsertTxRow_eq_ok.1 h).2.2.2.2]
  · cases h
    rfl

/-! ## Attestor sets, schemas, attestations -/

section Resources

variable {txHash : String} {slotHeight : UInt64} {timestamp : Int} {db db' : Db}

theorem insertAttestorSet_ok {d : IndexerRegisterAttestorSet}
    (h : insertAttestorSet d txHash slotHeight timestamp db = .ok db') :
    ∃ row : AttestorSetRow, row.id = d.attestorSetId ∧ row.schemaCount = 0 ∧
      db' = { db with
        attestorSets := Table.upsert AttestorSetRow.id row
          (fun old => { row with id := old.id, schemaCount := old.schemaCount })
          db.attestorSets } := by
  simp only [insertAttestorSet, require_bind_eq_ok, pure, Except.pure, Except.ok.injEq] at h
  exact ⟨_, rfl, rfl, h.2.2.2.symm⟩

/-- The constraints a new schema meets besides its keys to slots and transactions. -/
structure SchemaAccepted (d : IndexerRegisterSchema) (db : Db) : Prop where
  bps : d.feeRoutingBps.toNat ≤ 10000
  addr : (0 < d.feeRoutingBps.toNat ∧ d.feeRoutingAddr.isSome) ∨
    (d.feeRoutingBps.toNat = 0 ∧ d.feeRoutingAddr.isNone)
  free : ¬ ∃ r ∈ db.schemas,
    r.owner = d.owner ∧ r.name = d.name ∧ r.version = clampInt32 d.version
  attestorSet : db.hasAttestorSet d.attestorSetId

theorem insertSchema_new {d : IndexerRegisterSchema} (hnew : ¬ db.hasSchema d.schemaId) :
    insertSchema d txHash slotHeight timestamp db = .ok db' ↔
      SchemaAccepted d db ∧ db.hasSlot slotHeight.toInt64 ∧ db.hasTx txHash ∧
        db' = { db with
          schemas := db.schemas ++ [schemaRow d txHash slotHeight timestamp] } := by
  have hnew' : ¬ db.hasSchema (schemaRow d txHash slotHeight timestamp).id := hnew
  simp only [insertSchema, if_neg hnew', require_bind_eq_ok, pure, Except.pure, Except.ok.injEq]
  constructor
  · rintro ⟨hbps, haddr, hfree, hset, hslot, htx, rfl⟩
    exact ⟨⟨hbps, haddr, hfree, hset⟩, hslot, htx, rfl⟩
  · rintro ⟨⟨hbps, haddr, hfree, hset⟩, hslot, htx, rfl⟩
    exact ⟨hbps, haddr, hfree, hset, hslot, htx, rfl⟩

theorem insertSchema_known {d : IndexerRegisterSchema} (hold : db.hasSchema d.schemaId)
    (h : insertSchema d txHash slotHeight timestamp db = .ok db') : db' = db := by
  have hold' : db.hasSchema (schemaRow d txHash slotHeight timestamp).id := hold
  simp only [insertSchema, if_pos hold', require_bind_eq_ok, pure, Except.pure,
    Except.ok.injEq] at h
  exact h.2.2.symm

theorem insertSchema_ok {d : IndexerRegisterSchema}
    (h : insertSchema d txHash slotHeight timestamp db = .ok db') :
    (db.hasSchema d.schemaId ∧ db' = db) ∨
    (¬ db.hasSchema d.schemaId ∧ db.hasAttestorSet d.attestorSetId ∧
      db' = { db with
        schemas := db.schemas ++ [schemaRow d txHash slotHeight timestamp] }) := by
  by_cases hs : db.hasSchema d.schemaId
  · exact .inl ⟨hs, insertSchema_known hs h⟩
  · obtain ⟨haccepted, -, -, hdb⟩ := (insertSchema_new hs).1 h
    exact .inr ⟨hs, haccepted.attestorSet, hdb⟩

/-- The same of a new attestation. -/
structure AttestationAccepted (d : IndexerSubmitAttestation) (txHash : String) (db : Db) : Prop where
  free : ¬ ∃ r ∈ db.attestations,
    r.schemaId = d.schemaId ∧ r.payloadHash = d.payloadHash ∧ r.submittedAtTx = txHash
  schema : db.hasSchema d.schemaId

theorem insertAttestation_new {d : IndexerSubmitAttestation} (hnew : ¬ db.hasAttestation d.id) :
    insertAttestation d txHash slotHeight timestamp db = .ok db' ↔
      1 ≤ (clampInt32 d.signatureCount).toInt ∧ AttestationAccepted d txHash db ∧
        db.hasSlot slotHeight.toInt64 ∧ db.hasTx txHash ∧
        db' = { db with
          attestations := db.attestations ++ [attestationRow d txHash slotHeight timestamp] } := by
  have hnew' : ¬ db.hasAttestation (attestationRow d txHash slotHeight timestamp).id := hnew
  simp only [insertAttestation, if_neg hnew', require_bind_eq_ok, pure, Except.pure,
    Except.ok.injEq]
  constructor
  · rintro ⟨hpos, hfree, hschema, hslot, htx, rfl⟩
    exact ⟨hpos, ⟨hfree, hschema⟩, hslot, htx, rfl⟩
  · rintro ⟨hpos, ⟨hfree, hschema⟩, hslot, htx, rfl⟩
    exact ⟨hpos, hfree, hschema, hslot, htx, rfl⟩

theorem insertAttestation_known {d : IndexerSubmitAttestation} (hold : db.hasAttestation d.id) :
    insertAttestation d txHash slotHeight timestamp db = .ok db' ↔
      1 ≤ (clampInt32 d.signatureCount).toInt ∧
        db' = { db with
          attestations := Table.update AttestationRow.id d.id
            (fun old => { old with signatureCount := clampInt32 d.signatureCount })
            db.attestations } := by
  have hold' : db.hasAttestation (attestationRow d txHash slotHeight timestamp).id := hold
  simp only [insertAttestation, if_pos hold', require_bind_eq_ok, pure, Except.pure,
    Except.ok.injEq, eq_comm (a := db')]
  rfl

theorem insertAttestation_ok {d : IndexerSubmitAttestation}
    (h : insertAttestation d txHash slotHeight timestamp db = .ok db') :
    (db.hasAttestation d.id ∧ ∃ n, db' = { db with
        attestations := Table.update AttestationRow.id d.id
          (fun old => { old with signatureCount := n }) db.attestations }) ∨
    (¬ db.hasAttestation d.id ∧ db.hasSchema d.schemaId ∧
      db' = { db with
        attestations := db.attestations ++
          [attestationRow d txHash slotHeight timestamp] }) := by
  by_cases hs : db.hasAttestation d.id
  · exact .inl ⟨hs, _, ((insertAttestation_known hs).1 h).2⟩
  · obtain ⟨-, haccepted, -, -, hdb⟩ := (insertAttestation_new hs).1 h
    exact .inr ⟨hs, haccepted.schema, hdb⟩

/-! ## Counters -/

theorem bumpAttestorSetSchemaCount_ok {id : String}
    (h : bumpAttestorSetSchemaCount id db = .ok db') :
    (Table.lookup AttestorSetRow.id id db.attestorSets = none ∧ db' = db) ∨
    ∃ r n, Table.lookup AttestorSetRow.id id db.attestorSets = some r ∧
      n.toInt = r.schemaCount.toInt + 1 ∧
      db' = { db with
        attestorSets := Table.update AttestorSetRow.id id
          (fun r => { r with schemaCount := n }) db.attestorSets } := by
  unfold bumpAttestorSetSchemaCount at h
  split at h
  · rename_i hl
    exact .inl ⟨hl, (Except.ok.inj h).symm⟩
  · rename_i r hl
    obtain ⟨n, hn, h⟩ := bind_eq_ok.1 h
    simp only [require_bind_eq_ok, pure, Except.pure, Except.ok.injEq] at h
    exact .inr ⟨r, n, hl, addInt32_ok hn, h.2.symm⟩

theorem bumpSchemaAttestationCount_ok {id : String}
    (h : bumpSchemaAttestationCount id db = .ok db') :
    (Table.lookup SchemaRow.id id db.schemas = none ∧ db' = db) ∨
    ∃ r n, Table.lookup SchemaRow.id id db.schemas = some r ∧
      n.toInt = r.attestationCount.toInt + 1 ∧
      db' = { db with
        schemas := Table.update SchemaRow.id id
          (fun r => { r with attestationCount := n }) db.schemas } := by
  unfold bumpSchemaAttestationCount at h
  split at h
  · rename_i hl
    exact .inl ⟨hl, (Except.ok.inj h).symm⟩
  · rename_i r hl
    obtain ⟨n, hn, h⟩ := bind_eq_ok.1 h
    simp only [require_bind_eq_ok, pure, Except.pure, Except.ok.injEq] at h
    exact .inr ⟨r, n, hl, addInt32_ok hn, h.2.symm⟩

theorem bumpAddressSchemasOwned_ok {owner : String}
    (h : bumpAddressSchemasOwned owner slotHeight txHash timestamp db = .ok db') :
    (Table.lookup AddressSummaryRow.address owner db.addressSummaries = none ∧
      ∃ row : AddressSummaryRow, row.address = owner ∧ row.schemasOwnedCount = 1 ∧
        db' = { db with addressSummaries := db.addressSummaries ++ [row] }) ∨
    ∃ old row : AddressSummaryRow,
      Table.lookup AddressSummaryRow.address owner db.addressSummaries = some old ∧
      row.address = old.address ∧
      row.schemasOwnedCount.toInt = old.schemasOwnedCount.toInt + 1 ∧
      db' = { db with
        addressSummaries := Table.update AddressSummaryRow.address owner (fun _ => row)
          db.addressSummaries } := by
  unfold bumpAddressSchemasOwned at h
  split at h
  · rename_i hl
    exact .inl ⟨hl, _, rfl, rfl, (Except.ok.inj h).symm⟩
  · rename_i old hl
    obtain ⟨n, hn, h⟩ := bind_eq_ok.1 h
    simp only [unit_bind_eq_ok, pure, Except.pure, Except.ok.injEq] at h
    exact .inr ⟨old, { old with schemasOwnedCount := n }, hl, rfl, addInt32_ok hn, h.2.symm⟩

theorem upsertAddressActivity_ok {address : String} {role : AddressRole}
    (h : upsertAddressActivity address role slotHeight txHash timestamp db = .ok db') :
    (Table.lookup AddressSummaryRow.address address db.addressSummaries = none ∧
      ∃ row : AddressSummaryRow, row.address = address ∧ row.schemasOwnedCount = 0 ∧
        db' = { db with addressSummaries := db.addressSummaries ++ [row] }) ∨
    ∃ old row : AddressSummaryRow,
      Table.lookup AddressSummaryRow.address address db.addressSummaries = some old ∧
      row.address = old.address ∧ row.schemasOwnedCount = old.schemasOwnedCount ∧
      db' = { db with
        addressSummaries := Table.update AddressSummaryRow.address address (fun _ => row)
          db.addressSummaries } := by
  unfold upsertAddressActivity at h
  cases hl : Table.lookup AddressSummaryRow.address address db.addressSummaries with
  | none =>
    simp only [hl, pure, Except.pure, Except.ok.injEq] at h
    exact .inl ⟨rfl, _, rfl, rfl, h.symm⟩
  | some old =>
    simp only [hl] at h
    obtain ⟨sent, -, h⟩ := bind_eq_ok.1 h
    obtain ⟨received, -, h⟩ := bind_eq_ok.1 h
    simp only [unit_bind_eq_ok, pure, Except.pure, Except.ok.injEq] at h
    exact .inr ⟨old, mergeActivity old sent received slotHeight.toInt64 txHash timestamp, rfl, rfl,
      rfl, h.2.symm⟩

end Resources

/-! ## Bounties and contracts -/

section Hydrated

variable {env : Env} {id : String} {db db' : Db}

theorem upsertBounty_ok {record : BountyRecord} {slot : UInt64} {tx : String} {timestamp : Int}
    (h : upsertBounty id record slot tx timestamp db = .ok db') :
    db.hasSchema record.boardSchemaId ∧
      db' = { db with
        bounties := Table.upsert BountyRow.id (bountyRow id record slot tx timestamp)
          (mergeBountyRow (bountyRow id record slot tx timestamp)) db.bounties } := by
  simp only [upsertBounty, require_bind_eq_ok, pure, Except.pure, Except.ok.injEq] at h
  exact ⟨h.2.1, h.2.2.symm⟩

/-- Only the board's schema can be missing: every chain status maps to a known one. -/
theorem upsertBounty_accepted {record : BountyRecord} {slot : UInt64} {tx : String}
    {timestamp : Int} (h : db.hasSchema record.boardSchemaId) :
    upsertBounty id record slot tx timestamp db = .ok { db with
      bounties := Table.upsert BountyRow.id (bountyRow id record slot tx timestamp)
        (mergeBountyRow (bountyRow id record slot tx timestamp)) db.bounties } := by
  simp only [upsertBounty, require_bind_eq_ok, pure, Except.pure]
  refine ⟨?_, h, trivial⟩
  simp only [bountyRow, mapBountyStatus]
  split <;> simp

theorem applyBountyClaim_ok {payout : String} {count : Int32} {slot : UInt64}
    (h : applyBountyClaim env id payout count slot db = .ok db') :
    (Table.lookup BountyRow.id id db.bounties = none ∧ db' = db) ∨
    ∃ r escrow claims, Table.lookup BountyRow.id id db.bounties = some r ∧
      claims.toInt = r.claimCount.toInt + count.toInt ∧
      db' = { db with
        bounties := Table.update BountyRow.id id
          (fun r => { r with escrowRemainingNano := escrow, claimCount := claims,
                             lastClaimAtSlot := some slot.toInt64 }) db.bounties } := by
  unfold applyBountyClaim at h
  split at h
  · rename_i hl
    exact .inl ⟨hl, (Except.ok.inj h).symm⟩
  · rename_i r hl
    split at h
    · cases h
    · rename_i escrow _
      obtain ⟨claims, hn, h⟩ := bind_eq_ok.1 h
      exact .inr ⟨r, escrow, claims, hl, addInt32_ok hn, (Except.ok.inj h).symm⟩

theorem upsertContract_eq {record : ContractRecord} {slot : UInt64} {tx : String}
    {timestamp : Int} (h : upsertContract env id record slot tx timestamp db = .ok db') :
    db' = { db with
      contracts := Table.upsert ContractRow.id (contractRow env.serde id record slot tx timestamp)
        (mergeContractRow (contractRow env.serde id record slot tx timestamp)) db.contracts } := by
  simp only [upsertContract, require_bind_eq_ok, pure, Except.pure, Except.ok.injEq] at h
  exact h.2.symm

theorem upsertContract_accepted {record : ContractRecord} {slot : UInt64} {tx : String}
    {timestamp : Int} : upsertContract env id record slot tx timestamp db = .ok { db with
      contracts := Table.upsert ContractRow.id (contractRow env.serde id record slot tx timestamp)
        (mergeContractRow (contractRow env.serde id record slot tx timestamp)) db.contracts } := by
  simp only [upsertContract, require_bind_eq_ok, pure, Except.pure]
  refine ⟨?_, trivial⟩
  simp only [contractRow, mapContractStatus]
  split <;> simp

theorem upsertContract_ok {record : ContractRecord} {slot : UInt64} {tx : String}
    {timestamp : Int} (h : upsertContract env id record slot tx timestamp db = .ok db') :
    db' = { db with contracts := db'.contracts } := by
  rw [upsertContract_eq h]

end Hydrated

/-! ## Sequences of statements -/

/-- `π` of the database is the same after the sequence as before it. -/
def Keeps {β : Type} (π : Db → β) (g : TxRun → TxRun) : Prop := ∀ r, π (g r).db = π r.db

section Keeps

variable {β : Type} {π : Db → β} {faults : TxStmt → Fault} {stmt : TxStmt}
  {f : Db → Except DbError Db} {g onOk onErr : TxRun → TxRun}

theorem Keeps.refl (π : Db → β) : Keeps π id := fun _ => rfl

theorem Keeps.comp (hf : Keeps π onOk) (hg : Keeps π g) : Keeps π fun r => onOk (g r) :=
  fun r => (hf (g r)).trans (hg r)

theorem Keeps.attempt (hf : ∀ db db', f db = .ok db' → π db' = π db) (hok : Keeps π onOk)
    (herr : Keeps π onErr) : Keeps π (TxRun.attempt faults stmt f onOk onErr) := by
  intro r
  unfold TxRun.attempt
  split
  · rfl
  · split
    · rfl
    · exact herr _
    · split
      · rename_i db' h
        exact (hok _).trans (hf _ _ h)
      · exact herr _

/-- A statement with something to follow: either nothing is written or it went through. -/
theorem attempt_same_or_ok (faults : TxStmt → Fault) (stmt : TxStmt)
    (f : Db → Except DbError Db) (onOk : TxRun → TxRun) (r : TxRun) :
    (TxRun.attempt faults stmt f onOk id r).db = r.db ∨
    ∃ db, r.crashed = false ∧ faults stmt = .none ∧ f r.db = .ok db ∧
      TxRun.attempt faults stmt f onOk id r = onOk { r with db } := by
  cases hr : r.crashed with
  | true =>
    rw [TxRun.attempt, if_pos hr]
    exact .inl rfl
  | false =>
    unfold TxRun.attempt
    simp only [hr, Bool.false_eq_true, if_false]
    cases faults stmt with
    | crash => exact .inl rfl
    | refuse => exact .inl rfl
    | none =>
      cases hf : f r.db with
      | ok db => exact .inr ⟨db, trivial, rfl, rfl, rfl⟩
      | error e => exact .inl rfl

/-- The predicate on the database survives the sequence of statements. -/
def Maintains (P : Db → Prop) (g : TxRun → TxRun) : Prop := ∀ r, P r.db → P (g r).db

theorem Maintains.refl (P : Db → Prop) : Maintains P id := fun _ h => h

theorem Maintains.attempt {P : Db → Prop} (hf : ∀ db db', f db = .ok db' → P db → P db')
    (hok : Maintains P onOk) (herr : Maintains P onErr) :
    Maintains P (TxRun.attempt faults stmt f onOk onErr) := by
  intro r hr
  unfold TxRun.attempt
  split
  · exact hr
  · split
    · exact hr
    · exact herr _ hr
    · split
      · rename_i db' h
        exact hok _ (hf _ _ h hr)
      · exact herr _ hr

/-- A last statement. -/
theorem Maintains.last {P : Db → Prop} (hf : ∀ db db', f db = .ok db' → P db → P db') :
    Maintains P (TxRun.attempt faults stmt f id id) :=
  Maintains.attempt hf (Maintains.refl P) (Maintains.refl P)

theorem Keeps.maintains {P : Db → Prop} (h : Keeps π g)
    (hP : ∀ db db', π db' = π db → P db → P db') : Maintains P g :=
  fun r hr => hP _ _ (h r) hr

/-- What has failed before the sequence is still on the list after it. -/
def Logs (g : TxRun → TxRun) : Prop := ∀ r : TxRun, r.failed ⊆ (g r).failed

theorem Logs.refl : Logs id := fun _ => List.Subset.refl _

theorem Logs.comp (hf : Logs onOk) (hg : Logs g) : Logs fun r => onOk (g r) :=
  fun r => List.Subset.trans (hg r) (hf (g r))

theorem Logs.attempt (hok : Logs onOk) (herr : Logs onErr) :
    Logs (TxRun.attempt faults stmt f onOk onErr) := by
  intro r
  have hfail := List.Subset.trans (List.subset_append_left r.failed [stmt])
    (herr { r with failed := r.failed ++ [stmt] })
  unfold TxRun.attempt
  split
  · exact List.Subset.refl _
  · split
    · exact List.Subset.refl _
    · exact hfail
    · split
      · rename_i db _
        exact hok { r with db }
      · exact hfail

/-- The owner's bump is all that the rows of a resource do to the summaries. -/
theorem schemasOwned_ignored (hπ : ∀ db t, π { db with addressSummaries := t } = π db)
    (owner : String) (slot : UInt64) (hash : String) (timestamp : Int) (db db' : Db)
    (h : bumpAddressSchemasOwned owner slot hash timestamp db = .ok db') : π db' = π db := by
  rcases bumpAddressSchemasOwned_ok h with ⟨-, row, -, -, rfl⟩ | ⟨old, row, -, -, -, rfl⟩
  · exact hπ _ _
  · exact hπ _ _

/-- `π` is not changed by what a transaction of kind `k` writes besides its own row and the
activity of its addresses. -/
structure IgnoresResources (k : IndexerTx) (π : Db → β) : Prop where
  attestorSets : ∀ db t, π { db with attestorSets := t } = π db
  schemas : ∀ db t, π { db with schemas := t } = π db
  attestations : ∀ db t, π { db with attestations := t } = π db
  schemasOwned : ∀ owner slot hash timestamp db db',
    bumpAddressSchemasOwned owner slot hash timestamp db = .ok db' → π db' = π db
  bounties : ∀ id kind, k = .bountyEvent id kind → ∀ db t, π { db with bounties := t } = π db
  contracts : ∀ id kind, k = .contractEvent id kind → ∀ db t, π { db with contracts := t } = π db

theorem keeps_countActivity {role : AddressRole} {w : TxWork} {address : Option String}
    (hπ : ∀ db t, π { db with addressSummaries := t } = π db) (hg : Keeps π g) :
    Keeps π (countActivity faults stmt role w address g) := by
  unfold countActivity
  cases address with
  | none => exact hg
  | some a =>
    refine Keeps.attempt (fun db db' h => ?_) hg (Keeps.refl π)
    rcases upsertAddressActivity_ok h with ⟨-, row, -, -, rfl⟩ | ⟨old, row, -, -, -, rfl⟩
    · exact hπ _ _
    · exact hπ _ _

theorem keeps_updateAddressSummaries {w : TxWork}
    (hπ : ∀ db t, π { db with addressSummaries := t } = π db) :
    Keeps π (updateAddressSummaries faults w) :=
  keeps_countActivity hπ (keeps_countActivity hπ (Keeps.refl π))

theorem Keeps.bountyDelta {env : Env} {w : TxWork} {bountyId : String} {kind : BountyEventKind}
    (hzero : ∀ db db', setBountyEscrowZero bountyId db = .ok db' → π db' = π db)
    (hclaim : ∀ payout count db db',
      applyBountyClaim env bountyId payout count w.slotNumber db = .ok db' → π db' = π db) :
    Keeps π (bountyDelta env faults w bountyId kind) := by
  cases kind with
  | claimed count payout =>
    exact Keeps.attempt (hclaim payout _) (Keeps.refl π) (Keeps.refl π)
  | expired => exact Keeps.attempt hzero (Keeps.refl π) (Keeps.refl π)
  | finalised => exact Keeps.attempt hzero (Keeps.refl π) (Keeps.refl π)
  | posted => exact Keeps.refl π
  | disputed => exact Keeps.refl π
  | disputeResolved => exact Keeps.refl π

theorem keeps_bountyDelta {env : Env} {w : TxWork} {id : String} {kind : BountyEventKind}
    (hπ : ∀ db t, π { db with bounties := t } = π db) :
    Keeps π (bountyDelta env faults w id kind) := by
  apply Keeps.bountyDelta
  · intro db db' h
    cases h
    exact hπ _ _
  · intro payout count db db' h
    rcases applyBountyClaim_ok h with ⟨-, rfl⟩ | ⟨r, escrow, claims, -, -, rfl⟩
    · rfl
    · exact hπ _ _

/-- A column the deltas of a bounty do not write. -/
theorem keeps_bountyColumn_delta {g : BountyRow → β} {env : Env} {w : TxWork} {b id : String}
    {kind : BountyEventKind} (hzero : ∀ r, g { r with escrowRemainingNano := "0" } = g r)
    (hclaim : ∀ r escrow claims slot,
      g { r with
        escrowRemainingNano := escrow
        claimCount := claims
        lastClaimAtSlot := slot } = g r) :
    Keeps (fun db => (Table.lookup BountyRow.id b db.bounties).map g)
      (bountyDelta env faults w id kind) := by
  apply Keeps.bountyDelta
  · intro db db' h
    cases h
    exact Table.map_lookup_update (fun _ => rfl) hzero
  · intro payout count db db' h
    rcases applyBountyClaim_ok h with ⟨-, rfl⟩ | ⟨r, escrow, claims, -, -, rfl⟩
    · rfl
    · exact Table.map_lookup_update (fun _ => rfl) fun r => hclaim r _ _ _

theorem Keeps.contractDelta {contractId : String} {kind : ContractEventKind}
    (hzero : ∀ db db', setContractEscrowZero contractId db = .ok db' → π db' = π db) :
    Keeps π (contractDelta faults contractId kind) := by
  have hset : Keeps π
      (TxRun.attempt faults .contractDelta (setContractEscrowZero contractId) id id) :=
    Keeps.attempt hzero (Keeps.refl π) (Keeps.refl π)
  cases kind <;> first | exact hset | exact Keeps.refl π

theorem keeps_contractDelta {contractId : String} {kind : ContractEventKind}
    (hπ : ∀ db t, π { db with contracts := t } = π db) :
    Keeps π (contractDelta faults contractId kind) := by
  apply Keeps.contractDelta
  intro db db' h
  cases h
  exact hπ _ _

/-- The same of a contract. -/
theorem keeps_contractColumn_delta {g : ContractRow → β} {c id : String} {kind : ContractEventKind}
    (hzero : ∀ r, g { r with escrowRemainingNano := "0" } = g r) :
    Keeps (fun db => (Table.lookup ContractRow.id c db.contracts).map g)
      (contractDelta faults id kind) := by
  apply Keeps.contractDelta
  intro db db' h
  cases h
  exact Table.map_lookup_update (fun _ => rfl) hzero

theorem keeps_insertResourceRows {env : Env} {client : NodeClient} {w : TxWork}
    (hπ : IgnoresResources w.classified.kind π) :
    Keeps π (insertResourceRows env faults client w) := by
  unfold insertResourceRows
  cases hk : w.classified.kind with
  | transfer t => exact Keeps.refl π
  | unknown keys => exact Keeps.refl π
  | registerAttestorSet d =>
    refine Keeps.attempt (fun db db' h => ?_) (Keeps.refl π) (Keeps.refl π)
    obtain ⟨row, -, -, rfl⟩ := insertAttestorSet_ok h
    exact hπ.attestorSets _ _
  | registerSchema d =>
    refine Keeps.attempt (fun db db' h => ?_) (Keeps.comp ?_ ?_) (Keeps.refl π)
    · rcases insertSchema_ok h with ⟨-, rfl⟩ | ⟨-, -, rfl⟩
      · rfl
      · exact hπ.schemas _ _
    · exact Keeps.attempt (hπ.schemasOwned _ _ _ _) (Keeps.refl π) (Keeps.refl π)
    · refine Keeps.attempt (fun db db' h => ?_) (Keeps.refl π) (Keeps.refl π)
      rcases bumpAttestorSetSchemaCount_ok h with ⟨-, rfl⟩ | ⟨r, n, -, -, rfl⟩
      · rfl
      · exact hπ.attestorSets _ _
  | submitAttestation d =>
    refine Keeps.attempt (fun db db' h => ?_) ?_ (Keeps.refl π)
    · rcases insertAttestation_ok h with ⟨-, n, rfl⟩ | ⟨-, -, rfl⟩
      · exact hπ.attestations _ _
      · exact hπ.attestations _ _
    · refine Keeps.attempt (fun db db' h => ?_) (Keeps.refl π) (Keeps.refl π)
      rcases bumpSchemaAttestationCount_ok h with ⟨-, rfl⟩ | ⟨r, n, -, -, rfl⟩
      · rfl
      · exact hπ.schemas _ _
  | bountyEvent bountyId kind =>
    dsimp only
    split
    · have hb := hπ.bounties bountyId kind hk
      refine Keeps.attempt (fun db db' h => ?_) (keeps_bountyDelta hb) (Keeps.refl π)
      rw [(upsertBounty_ok h).2]
      exact hb _ _
    · exact Keeps.refl π
    · exact Keeps.refl π
  | contractEvent contractId kind =>
    dsimp only
    split
    · have hc := hπ.contracts contractId kind hk
      refine Keeps.attempt (fun db db' h => ?_) (keeps_contractDelta hc) (Keeps.refl π)
      rw [upsertContract_ok h]
      exact hc _ _
    · exact Keeps.refl π
    · exact Keeps.refl π

/-- The predicate survives every statement that can follow the own row of a transaction and the
activity of its addresses. -/
structure SurvivesResources (w : TxWork) (P : Db → Prop) : Prop where
  attestorSet : ∀ d db db', w.classified.kind = .registerAttestorSet d →
    insertAttestorSet d w.classified.hash w.slotNumber w.timestamp db = .ok db' → P db → P db'
  schema : ∀ d db db', w.classified.kind = .registerSchema d →
    insertSchema d w.classified.hash w.slotNumber w.timestamp db = .ok db' → P db → P db'
  schemaCount : ∀ d db db', w.classified.kind = .registerSchema d →
    bumpAttestorSetSchemaCount d.attestorSetId db = .ok db' → P db → P db'
  schemasOwned : ∀ d db db', w.classified.kind = .registerSchema d →
    bumpAddressSchemasOwned d.owner w.slotNumber w.classified.hash w.timestamp db = .ok db' →
    P db → P db'
  attestation : ∀ d db db', w.classified.kind = .submitAttestation d →
    insertAttestation d w.classified.hash w.slotNumber w.timestamp db = .ok db' → P db → P db'
  attestationCount : ∀ d db db', w.classified.kind = .submitAttestation d →
    bumpSchemaAttestationCount d.schemaId db = .ok db' → P db → P db'
  bounties : ∀ db t, P db → P { db with bounties := t }
  contracts : ∀ db t, P db → P { db with contracts := t }

theorem maintains_insertResourceRows {P : Db → Prop} {env : Env} {client : NodeClient} {w : TxWork}
    (h : SurvivesResources w P) : Maintains P (insertResourceRows env faults client w) := by
  unfold insertResourceRows
  cases hk : w.classified.kind with
  | transfer t => exact Maintains.refl P
  | unknown keys => exact Maintains.refl P
  | registerAttestorSet d => exact Maintains.last fun db db' => h.attestorSet d db db' hk
  | registerSchema d =>
    refine Maintains.attempt (fun db db' => h.schema d db db' hk) ?_ (Maintains.refl P)
    intro r hr
    refine Maintains.last ?_ _ (Maintains.last ?_ r hr)
    · exact fun db db' => h.schemasOwned d db db' hk
    · exact fun db db' => h.schemaCount d db db' hk
  | submitAttestation d =>
    exact Maintains.attempt (fun db db' => h.attestation d db db' hk)
      (Maintains.last fun db db' => h.attestationCount d db db' hk) (Maintains.refl P)
  | bountyEvent bountyId kind =>
    dsimp only
    split
    · refine Maintains.attempt ?_ ?_ (Maintains.refl P)
      · intro db db' hok hP
        rw [(upsertBounty_ok hok).2]
        exact h.bounties _ _ hP
      · have hframe : Keeps (fun db : Db => { db with bounties := [] })
            (bountyDelta env faults w bountyId kind) := keeps_bountyDelta fun _ _ => rfl
        refine hframe.maintains fun db db' hdb hP => ?_
        have hdb' : db' = { db with bounties := db'.bounties } := by
          cases db'
          cases db
          cases hdb
          rfl
        rw [hdb']
        exact h.bounties _ _ hP
    · exact Maintains.refl P
    · exact Maintains.refl P
  | contractEvent contractId kind =>
    dsimp only
    split
    · refine Maintains.attempt ?_ ?_ (Maintains.refl P)
      · intro db db' hok hP
        rw [upsertContract_ok hok]
        exact h.contracts _ _ hP
      · have hframe : Keeps (fun db : Db => { db with contracts := [] })
            (contractDelta faults contractId kind) := keeps_contractDelta fun _ _ => rfl
        refine hframe.maintains fun db db' hdb hP => ?_
        have hdb' : db' = { db with contracts := db'.contracts } := by
          cases db'
          cases db
          cases hdb
          rfl
        rw [hdb']
        exact h.contracts _ _ hP
    · exact Maintains.refl P
    · exact Maintains.refl P

end Keeps

/-! ## One transaction -/

section ProcessTx

variable {env : Env} {client : NodeClient} {w : TxWork} {db : Db}

/-- What follows the transaction's own row. -/
theorem keeps_afterInsert {β : Type} {π : Db → β} {faults : TxStmt → Fault}
    (hπ : IgnoresResources w.classified.kind π)
    (hsum : ∀ db t, π { db with addressSummaries := t } = π db) :
    Keeps π fun r => insertResourceRows env faults client w (updateAddressSummaries faults w r) :=
  Keeps.comp (keeps_insertResourceRows hπ) (keeps_updateAddressSummaries hsum)

/-- Slots and cursor are not touched by a transaction, with whatever faults. -/
theorem keeps_processTx {β : Type} {π : Db → β} {faults : TxStmt → Fault}
    (hπ : IgnoresResources w.classified.kind π)
    (hsum : ∀ db t, π { db with addressSummaries := t } = π db)
    (htx : ∀ db t, π { db with transactions := t } = π db) :
    π (processTx env faults client w db).db = π db := by
  refine Keeps.attempt (fun db db' h => ?_) (keeps_afterInsert hπ hsum) (Keeps.refl π) { db := db }
  rw [insertTransaction_frame h]
  exact htx _ _

theorem slots_processTx {faults : TxStmt → Fault} :
    (processTx env faults client w db).db.slots = db.slots :=
  keeps_processTx ⟨fun _ _ => rfl, fun _ _ => rfl, fun _ _ => rfl,
    schemasOwned_ignored fun _ _ => rfl, fun _ _ _ _ _ => rfl, fun _ _ _ _ _ => rfl⟩
    (fun _ _ => rfl) fun _ _ => rfl

theorem hasSlot_processTx {faults : TxStmt → Fault} {n : Int64} :
    (processTx env faults client w db).db.hasSlot n ↔ db.hasSlot n := by
  unfold Db.hasSlot
  rw [slots_processTx]

theorem lastIndexedHeight_processTx {faults : TxStmt → Fault} :
    (processTx env faults client w db).db.lastIndexedHeight = db.lastIndexedHeight :=
  keeps_processTx ⟨fun _ _ => rfl, fun _ _ => rfl, fun _ _ => rfl,
    schemasOwned_ignored fun _ _ => rfl, fun _ _ _ _ _ => rfl, fun _ _ _ _ _ => rfl⟩
    (fun _ _ => rfl) fun _ _ => rfl

/-- What follows the own row leaves `transactions` alone. -/
theorem transactions_afterInsert {faults : TxStmt → Fault} {r : TxRun} :
    (insertResourceRows env faults client w (updateAddressSummaries faults w r)).db.transactions =
      r.db.transactions :=
  keeps_afterInsert (π := Db.transactions)
    ⟨fun _ _ => rfl, fun _ _ => rfl, fun _ _ => rfl, schemasOwned_ignored fun _ _ => rfl,
      fun _ _ _ _ _ => rfl, fun _ _ _ _ _ => rfl⟩ (fun _ _ => rfl) r

/-- A transaction changes `transactions` by its own insert only. -/
theorem transactions_processTx :
    (processTx env noFaults client w db).db.transactions =
      match insertTransaction w.classified w.slotNumber w.position w.decoded db with
      | .ok db' => db'.transactions
      | .error _ => db.transactions := by
  simp only [processTx, TxRun.attempt, noFaults, Bool.false_eq_true, if_false]
  cases h : insertTransaction w.classified w.slotNumber w.position w.decoded db with
  | ok db' => exact transactions_afterInsert
  | error e => rfl

end ProcessTx

/-! ## Surroundings for small examples -/

/-- Bodies that do not decode and events of no known kind: nothing outside is consulted. -/
def plainEnv : Env where
  codec := ⟨fun _ => none, fun _ _ => none, fun _ => none, fun bytes => bytes⟩
  serde := ⟨fun _ => none, fun _ => none, fun _ => none, fun _ => none, fun _ _ => none,
    fun _ _ => none, fun _ => none, fun _ => "null"⟩
  numericSub _ _ := none
  numericChainId := 1

/-- A node without batches, events and records. -/
def silentNode : NodeClient where
  eventsForSlot _ := .ok []
  batchAt _ := .ok none
  txAtNumber _ := .ok none
  bountyAt _ := .ok none
  contractAt _ := .ok none

end LigateApi.Indexer
