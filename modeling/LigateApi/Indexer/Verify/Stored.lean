import LigateApi.Indexer.Verify.Contract
import LigateApi.Indexer.Verify.Steps

/-!
# What a transaction leaves in its tables

The numbers of a resource go through narrowing binds: versions, signature counts and dispute windows
stop at `i32::MAX`, expiry heights wrap. Below is what each resource's row holds after its
transaction, against a database that refuses only what breaks a constraint: what was there before
decides whether the row is written (`Writes`), and a written row holds the emitted numbers exactly
if they fit (`stored_processTx`).
-/

namespace LigateApi.Indexer

open Lib Lib.Run

/-! ## Narrowing -/

theorem toInt_clampInt32 (n : UInt32) : (clampInt32 n).toInt = min n.toNat (2 ^ 31 - 1) := by
  unfold clampInt32
  split
  · rename_i h
    have hn : n.toInt32 = Int32.ofNat n.toNat := by
      rw [← UInt32.toInt32_ofNat', UInt32.ofNat_toNat]
    rw [hn, Int32.toInt_ofNat_of_lt h]
    omega
  · rename_i h
    have hmax : Int32.maxValue.toInt = 2 ^ 31 - 1 := by decide
    rw [hmax]
    omega

/-- The column holds the number if there is room for it. -/
theorem toInt_clampInt32_eq_iff {n : UInt32} : (clampInt32 n).toInt = n.toNat ↔ n.toNat < 2 ^ 31 := by
  rw [toInt_clampInt32]
  omega

theorem toInt_toInt64_eq_iff {n : UInt64} : n.toInt64.toInt = n.toNat ↔ n.toNat < 2 ^ 63 := by
  constructor
  · intro h
    have hlt := n.toInt64.toInt_lt
    omega
  · exact toInt_toInt64

/-- Cast back to the chain's type, a column that is not negative is its number. -/
theorem toUInt32_eq_iff {c : Int32} {n : UInt32} (hc : 0 ≤ c.toInt) :
    c.toUInt32 = n ↔ c.toInt = n.toNat := by
  have hnat : (c.toUInt32.toNat : Int) = c.toInt := by
    have hcast : c.toUInt32.toNat = c.toBitVec.toNat := rfl
    have hint : c.toInt = c.toBitVec.toInt := rfl
    rw [hint, BitVec.toInt_eq_toNat_cond] at hc ⊢
    have hlt := c.toBitVec.isLt
    rw [hcast]
    split at hc
    · rename_i h
      rw [if_pos h]
    · omega
  rw [← UInt32.toNat_inj, ← hnat]
  omega

theorem toUInt32_clampInt32_eq_iff {n : UInt32} : (clampInt32 n).toUInt32 = n ↔ n.toNat < 2 ^ 31 := by
  rw [toUInt32_eq_iff, toInt_clampInt32_eq_iff]
  rw [toInt_clampInt32]
  omega

/-! ## Keys of the schemas -/

/-- The primary key of `schemas` and its foreign key to `attestor_sets`. -/
structure SchemasKeyed (db : Db) : Prop where
  unique : (db.schemas.map SchemaRow.id).Nodup
  sets : ∀ r ∈ db.schemas, db.hasAttestorSet r.attestorSetId

section Keyed

variable {env : Env} {client : NodeClient} {faults : TxStmt → Fault} {w : TxWork} {db db' : Db}

theorem schemasKeyed_empty : SchemasKeyed Db.empty where
  unique := List.nodup_nil
  sets := by
    intro r hr
    cases hr

theorem SchemasKeyed.congr (h : SchemasKeyed db) (hs : db'.schemas = db.schemas)
    (hsets : db'.attestorSets = db.attestorSets) : SchemasKeyed db' := by
  obtain ⟨hunique, hset⟩ := h
  unfold Db.hasAttestorSet at hset
  rw [← hs, ← hsets] at hset
  rw [← hs] at hunique
  exact ⟨hunique, hset⟩

/-- A set that was there is there after an upsert or an update of the sets. -/
theorem SchemasKeyed.of_sets (h : SchemasKeyed db) (hs : db'.schemas = db.schemas)
    (hsets : ∀ id, db.hasAttestorSet id → db'.hasAttestorSet id) : SchemasKeyed db' where
  unique := hs ▸ h.unique
  sets r hr := hsets _ (h.sets r (hs ▸ hr))

theorem SchemasKeyed.insertSchema {d : IndexerRegisterSchema} {txHash : String}
    {slotHeight : UInt64} {timestamp : Int} (h : SchemasKeyed db)
    (hok : insertSchema d txHash slotHeight timestamp db = .ok db') : SchemasKeyed db' := by
  rcases insertSchema_ok hok with ⟨-, rfl⟩ | ⟨hnew, hset, rfl⟩
  · exact h
  · refine ⟨?_, fun r hr => ?_⟩
    · rw [List.map_append, List.map_singleton]
      refine List.nodup_append.2 ⟨h.unique, List.nodup_singleton _, ?_⟩
      intro id hid id' hid' heq
      obtain ⟨r, hr, rfl⟩ := List.mem_map.1 hid
      rw [List.mem_singleton.1 hid'] at heq
      exact hnew ⟨r, hr, heq⟩
    · rcases List.mem_append.1 hr with hr | hr
      · exact h.sets r hr
      · rw [List.mem_singleton.1 hr]
        exact hset

theorem survives_schemasKeyed : SurvivesResources w SchemasKeyed where
  attestorSet d db db' _ hok h := by
    obtain ⟨row, -, -, rfl⟩ := insertAttestorSet_ok hok
    refine h.of_sets rfl fun id hid => ?_
    exact Table.exists_key_upsert (fun _ => rfl) hid
  schema d db db' _ hok h := h.insertSchema hok
  schemaCount d db db' _ hok h := by
    rcases bumpAttestorSetSchemaCount_ok hok with ⟨-, rfl⟩ | ⟨r, n, -, -, rfl⟩
    · exact h
    · refine h.of_sets rfl fun id hid => ?_
      apply (Table.exists_key_update AttestorSetRow.id ?_).2 hid
      exact fun _ hr => hr
  schemasOwned d db db' _ hok h := by
    rcases bumpAddressSchemasOwned_ok hok with ⟨-, row, -, -, rfl⟩ | ⟨old, row, -, -, -, rfl⟩
    · exact h.congr rfl rfl
    · exact h.congr rfl rfl
  attestation d db db' _ hok h := by
    rcases insertAttestation_ok hok with ⟨-, n, rfl⟩ | ⟨-, -, rfl⟩
    · exact h.congr rfl rfl
    · exact h.congr rfl rfl
  attestationCount d db db' _ hok h := by
    rcases bumpSchemaAttestationCount_ok hok with ⟨-, rfl⟩ | ⟨r, n, -, -, rfl⟩
    · exact h
    · refine ⟨?_, fun x hx => ?_⟩
      · have hids : (Table.update SchemaRow.id d.schemaId
            (fun r => { r with attestationCount := n }) db.schemas).map SchemaRow.id =
            db.schemas.map SchemaRow.id := by
          apply Table.map_key_update
          exact fun _ hr => hr
        rw [hids]
        exact h.unique
      · obtain ⟨y, hy, ⟨-, rfl⟩ | ⟨-, rfl⟩⟩ := Table.mem_update.1 hx
        · exact h.sets y hy
        · exact h.sets x hy
  bounties db t h := h.congr rfl rfl
  contracts db t h := h.congr rfl rfl

theorem schemasKeyed_processTx (h : SchemasKeyed db) :
    SchemasKeyed (processTx env faults client w db).db := by
  refine Maintains.attempt ?_ ?_ (Maintains.refl _) { db := db } h
  · intro db db' hok h
    rw [insertTransaction_frame hok]
    exact h.congr rfl rfl
  · intro r hr
    have hsum : Keeps (fun db : Db => (db.schemas, db.attestorSets))
        (updateAddressSummaries faults w) := keeps_updateAddressSummaries fun _ _ => rfl
    apply maintains_insertResourceRows survives_schemasKeyed
    obtain ⟨hs, hsets⟩ := Prod.mk.inj (hsum r)
    exact hr.congr hs hsets

theorem DbStep.schemasKeyed {s : IndexerState} {e : Event} (h : DbStep env s e db)
    (hs : SchemasKeyed s.db) : SchemasKeyed db := by
  cases h with
  | same => exact hs
  | upsertSlot => exact hs.congr rfl rfl
  | processTx => exact schemasKeyed_processTx hs
  | cursor => exact hs.congr rfl rfl
  | flip => exact hs.congr rfl rfl

theorem schemasKeyed_run {es : List Event} {s : IndexerState}
    (hrun : exec (step env) IndexerState.init es = some s) : SchemasKeyed s.db :=
  exec_invariant (I := fun s => SchemasKeyed s.db)
    (fun _ _ _ hs hstep => (step_db hstep).schemasKeyed hs) schemasKeyed_empty hrun

end Keyed

/-! ## The row of a resource -/

/-- The constraints of `transactions` accept the row of a committed transaction: no revert reason is
stored under its hash, its position is free and its slot is there. -/
structure TxAccepted (w : TxWork) (db : Db) : Prop where
  reason : ∀ old, Table.lookup TxRow.hash w.classified.hash db.transactions = some old →
    old.revertReason = none
  free : ¬ ∃ r ∈ db.transactions, r.hash ≠ w.classified.hash ∧ r.slot = w.slotNumber.toInt64 ∧
    r.position = w.position
  slot : db.hasSlot w.slotNumber.toInt64

/-- The transaction is committed and its own row is accepted. -/
structure Recorded (w : TxWork) (db : Db) : Prop where
  committed : w.classified.outcome = .committed
  accepted : TxAccepted w db

section Rows

variable {env : Env} {client : NodeClient} {w : TxWork} {db : Db}

theorem insertTransaction_accepted (hc : w.classified.outcome = .committed) :
    (∃ db', insertTransaction w.classified w.slotNumber w.position w.decoded db = .ok db') ↔
      TxAccepted w db := by
  rw [insertTransaction_committed hc]
  simp only [upsertTxRow_eq_ok, txRow_check, mergeTxRow_check, true_and]
  constructor
  · intro h
    obtain ⟨db', hreason, hfree, hslot, -⟩ := h
    exact ⟨hreason, hfree, hslot⟩
  · intro h
    exact ⟨_, h.reason, h.free, h.slot, rfl⟩

/-- What the resource's statements find: its slot and its transaction, and the other tables as they
were. -/
theorem Recorded.before_resources (h : Recorded w db) :
    ∃ (r : TxRun) (txs : List TxRow) (summaries : List AddressSummaryRow), r.crashed = false ∧
      r.db = { db with transactions := txs, addressSummaries := summaries } ∧
      r.db.hasSlot w.slotNumber.toInt64 ∧ r.db.hasTx w.classified.hash ∧
      processTx env noFaults client w db = insertResourceRows env noFaults client w r := by
  obtain ⟨hc, haccepted⟩ := h
  obtain ⟨db₁, hok⟩ := (insertTransaction_accepted hc).2 haccepted
  have hattempt : processTx env noFaults client w db =
      insertResourceRows env noFaults client w (updateAddressSummaries noFaults w { db := db₁ }) := by
    simp only [processTx, TxRun.attempt, noFaults, Bool.false_eq_true, if_false, hok]
  have hsum : Keeps (fun db : Db => { db with addressSummaries := [] })
      (updateAddressSummaries noFaults w) := keeps_updateAddressSummaries fun _ _ => rfl
  have hframe := hsum { db := db₁ }
  have hlive := steady_updateAddressSummaries w { db := db₁ } rfl
  revert hframe hlive hattempt
  generalize updateAddressSummaries noFaults w { db := db₁ } = r
  intro hattempt hframe hlive
  rw [insertTransaction_committed hc] at hok
  obtain ⟨-, -, -, hslot, rfl⟩ := upsertTxRow_eq_ok.1 hok
  have hdb : r.db = { db with
      transactions := Table.upsert TxRow.hash
        (txRow w.classified w.slotNumber w.position w.decoded "committed")
        (mergeTxRow (txRow w.classified w.slotNumber w.position w.decoded "committed"))
        db.transactions
      addressSummaries := r.db.addressSummaries } := by
    cases hr : r.db
    simp only [hr, Db.mk.injEq] at hframe ⊢
    simpa using hframe
  refine ⟨r, _, _, hlive, hdb, ?_, ?_, hattempt⟩
  · rw [hdb]
    exact hslot
  · rw [hdb]
    obtain ⟨row, hrow, rfl | ⟨x, -, hx, rfl⟩⟩ := Table.exists_mem_upsert TxRow.hash
      (txRow w.classified w.slotNumber w.position w.decoded "committed")
      (mergeTxRow (txRow w.classified w.slotNumber w.position w.decoded "committed"))
      db.transactions
    · exact ⟨_, hrow, rfl⟩
    · exact ⟨_, hrow, hx⟩

/-- A schema is stored once, and only if its constraints hold. -/
theorem schemas_registered {d : IndexerRegisterSchema} (h : Recorded w db)
    (hk : w.classified.kind = .registerSchema d) :
    ((db.hasSchema d.schemaId ∨ ¬ SchemaAccepted d db) ∧
        (processTx env noFaults client w db).db.schemas = db.schemas) ∨
      ¬ db.hasSchema d.schemaId ∧ SchemaAccepted d db ∧
        (processTx env noFaults client w db).db.schemas =
          db.schemas ++ [schemaRow d w.classified.hash w.slotNumber w.timestamp] := by
  obtain ⟨r, txs, summaries, hlive, hdb, hslot, htx, heq⟩ := h.before_resources
  have hschemas : r.db.schemas = db.schemas := by rw [hdb]
  have hknown : r.db.hasSchema d.schemaId ↔ db.hasSchema d.schemaId := by rw [hdb]; rfl
  have haccepted : SchemaAccepted d r.db ↔ SchemaAccepted d db := by
    rw [hdb]
    exact ⟨fun h => ⟨h.bps, h.addr, h.free, h.attestorSet⟩,
      fun h => ⟨h.bps, h.addr, h.free, h.attestorSet⟩⟩
  rw [heq, ← hknown, ← haccepted, ← hschemas]
  unfold insertResourceRows
  simp only [hk]
  rcases attempt_outcome hlive with ⟨db', hok, hafter⟩ | ⟨⟨e, herr⟩, hsame⟩
  · rw [hafter]
    have hcounts : Keeps Db.schemas fun r => TxRun.attempt noFaults .schemasOwned
        (bumpAddressSchemasOwned d.owner w.slotNumber w.classified.hash w.timestamp) id id
        (TxRun.attempt noFaults .setSchemaCount
          (bumpAttestorSetSchemaCount d.attestorSetId) id id r) := by
      apply Keeps.comp
      · exact Keeps.attempt (schemasOwned_ignored (fun _ _ => rfl) _ _ _ _) (Keeps.refl _)
          (Keeps.refl _)
      · refine Keeps.attempt (fun db db' h => ?_) (Keeps.refl _) (Keeps.refl _)
        rcases bumpAttestorSetSchemaCount_ok h with ⟨-, rfl⟩ | ⟨_, _, -, -, rfl⟩
        · rfl
        · rfl
    rw [hcounts]
    by_cases hold : r.db.hasSchema d.schemaId
    · rw [insertSchema_known hold hok]
      exact .inl ⟨.inl hold, rfl⟩
    · obtain ⟨hacc, -, -, rfl⟩ := (insertSchema_new hold).1 hok
      exact .inr ⟨hold, hacc, rfl⟩
  · rw [hsame]
    refine .inl ⟨?_, rfl⟩
    by_cases hold : r.db.hasSchema d.schemaId
    · exact .inl hold
    · refine .inr fun hacc => ?_
      rw [(insertSchema_new hold).2 ⟨hacc, hslot, htx, rfl⟩] at herr
      cases herr

/-- An attestation is accepted if it is there or its constraints hold. -/
theorem insertAttestation_accepted {d : IndexerSubmitAttestation} {txHash : String}
    {slotHeight : UInt64} {timestamp : Int} (hone : 1 ≤ (clampInt32 d.signatureCount).toInt)
    (hslot : db.hasSlot slotHeight.toInt64) (htx : db.hasTx txHash) :
    (∃ db', insertAttestation d txHash slotHeight timestamp db = .ok db') ↔
      db.hasAttestation d.id ∨ AttestationAccepted d txHash db := by
  by_cases hold : db.hasAttestation d.id
  · exact iff_of_true ⟨_, (insertAttestation_known hold).2 ⟨hone, rfl⟩⟩ (.inl hold)
  · constructor
    · intro h
      obtain ⟨db', hok⟩ := h
      exact .inr ((insertAttestation_new hold).1 hok).2.1
    · intro h
      rcases h with h | hacc
      · exact absurd h hold
      · exact ⟨_, (insertAttestation_new hold).2 ⟨hone, hacc, hslot, htx, rfl⟩⟩

/-- Once accepted, new or refreshed, it has the count of the event. -/
theorem lookup_insertAttestation {d : IndexerSubmitAttestation} {txHash : String}
    {slotHeight : UInt64} {timestamp : Int} {db' : Db}
    (hok : insertAttestation d txHash slotHeight timestamp db = .ok db') :
    ∃ row, Table.lookup AttestationRow.id d.id db'.attestations = some row ∧
      row.signatureCount = clampInt32 d.signatureCount := by
  by_cases hold : db.hasAttestation d.id
  · obtain ⟨-, rfl⟩ := (insertAttestation_known hold).1 hok
    obtain ⟨x, hx, hid⟩ := hold
    obtain ⟨old, hlookup⟩ := Option.isSome_iff_exists.1
      (hid ▸ Table.lookup_isSome_of_mem AttestationRow.id hx)
    refine ⟨{ old with signatureCount := clampInt32 d.signatureCount }, ?_, rfl⟩
    have hupdate : Table.lookup AttestationRow.id d.id (Table.update AttestationRow.id d.id
        (fun old => { old with signatureCount := clampInt32 d.signatureCount })
        db.attestations) = _ := Table.lookup_update_self fun _ => rfl
    rw [hlookup] at hupdate
    exact hupdate
  · obtain ⟨-, -, -, -, rfl⟩ := (insertAttestation_new hold).1 hok
    refine ⟨attestationRow d txHash slotHeight timestamp, ?_, rfl⟩
    have hnone : Table.lookup AttestationRow.id d.id db.attestations = none :=
      Table.lookup_eq_none.2 fun x hx hid => hold ⟨x, hx, hid⟩
    rw [Table.lookup_append_singleton, hnone]
    exact if_pos rfl

/-- An attestation is stored if its constraints hold, and refreshed if it is there. -/
theorem lookup_attestation_submitted {d : IndexerSubmitAttestation} (h : Recorded w db)
    (hk : w.classified.kind = .submitAttestation d) (hpos : 1 ≤ d.signatureCount.toNat) :
    ((db.hasAttestation d.id ∨ AttestationAccepted d w.classified.hash db) ∧
        ∃ row, Table.lookup AttestationRow.id d.id
          (processTx env noFaults client w db).db.attestations = some row ∧
          row.signatureCount = clampInt32 d.signatureCount) ∨
      ¬ (db.hasAttestation d.id ∨ AttestationAccepted d w.classified.hash db) ∧
        Table.lookup AttestationRow.id d.id
          (processTx env noFaults client w db).db.attestations = none := by
  obtain ⟨r, txs, summaries, hlive, hdb, hslot, htx, heq⟩ := h.before_resources
  have hknown : r.db.hasAttestation d.id ↔ db.hasAttestation d.id := by rw [hdb]; rfl
  have haccepted : AttestationAccepted d w.classified.hash r.db ↔
      AttestationAccepted d w.classified.hash db := by
    rw [hdb]
    exact ⟨fun h => ⟨h.free, h.schema⟩, fun h => ⟨h.free, h.schema⟩⟩
  have hone : 1 ≤ (clampInt32 d.signatureCount).toInt := by
    rw [toInt_clampInt32]
    omega
  rw [heq, ← hknown, ← haccepted,
    ← @insertAttestation_accepted _ _ _ _ w.timestamp hone hslot htx]
  unfold insertResourceRows
  simp only [hk]
  rcases attempt_outcome hlive with ⟨db', hok, hafter⟩ | ⟨⟨e, herr⟩, hsame⟩
  · have hcount : Keeps Db.attestations (TxRun.attempt noFaults .attestationCount
        (bumpSchemaAttestationCount d.schemaId) id id) := by
      refine Keeps.attempt (fun db db' h => ?_) (Keeps.refl _) (Keeps.refl _)
      rcases bumpSchemaAttestationCount_ok h with ⟨-, rfl⟩ | ⟨_, _, -, -, rfl⟩
      · rfl
      · rfl
    rw [hafter, hcount]
    exact .inl ⟨⟨db', hok⟩, lookup_insertAttestation hok⟩
  · have hrefused : ¬ ∃ db', insertAttestation d w.classified.hash w.slotNumber w.timestamp r.db =
        .ok db' := by
      rw [herr]
      simp
    rw [hsame]
    refine .inr ⟨hrefused, Table.lookup_eq_none.2 fun x hx hid => hrefused ?_⟩
    exact (insertAttestation_accepted hone hslot htx).2 (.inl ⟨x, hx, hid⟩)

/-- Expiry and dispute window of a bounty. -/
def bountyTerms (id : String) (db : Db) : Option (Int64 × Int32) :=
  (Table.lookup BountyRow.id id db.bounties).map fun r => (r.expiryDaHeight, r.disputeWindowBlocks)

def contractTerms (id : String) (db : Db) : Option (Int64 × Int32) :=
  (Table.lookup ContractRow.id id db.contracts).map fun r =>
    (r.expiryDaHeight, r.disputeWindowBlocks)

/-- A hydrate writes the terms of the record, unless the board's schema is missing. -/
theorem bounty_terms_hydrated {id : String} {kind : BountyEventKind} {record : BountyRecord}
    (h : Recorded w db) (hy : Hydrated client w id kind record) :
    bountyTerms id (processTx env noFaults client w db).db =
      if db.hasSchema record.boardSchemaId then
        some (record.expiryDaHeight.toInt64, clampInt32 record.disputeWindowBlocks)
      else bountyTerms id db := by
  obtain ⟨r, txs, summaries, hlive, hdb, -, -, heq⟩ := h.before_resources
  have hschema : r.db.hasSchema record.boardSchemaId ↔ db.hasSchema record.boardSchemaId := by
    rw [hdb]; rfl
  have hbefore : bountyTerms id r.db = bountyTerms id db := by rw [hdb]; rfl
  rw [heq, ← hbefore]
  simp only [← hschema]
  unfold insertResourceRows
  simp only [hy.kind, hy.record]
  rcases attempt_outcome hlive with ⟨db', hok, hafter⟩ | ⟨⟨e, herr⟩, hsame⟩
  · obtain ⟨hboard, rfl⟩ := upsertBounty_ok hok
    have hdelta : Keeps (bountyTerms id) (bountyDelta env noFaults w id kind) :=
      keeps_bountyColumn_delta (fun _ => rfl) fun _ _ _ _ => rfl
    rw [hafter, hdelta, if_pos hboard, bountyTerms]
    have hrow : Table.lookup BountyRow.id id
        (hydrateTable (w.bountyRow id record) r.db.bounties) =
        some ((Table.lookup BountyRow.id id r.db.bounties).elim (w.bountyRow id record)
          (mergeBountyRow (w.bountyRow id record))) :=
      lookup_hydrateTable.trans (if_pos rfl)
    refine (congrArg _ hrow).trans ?_
    cases Table.lookup BountyRow.id id r.db.bounties with
    | none => rfl
    | some old => rfl
  · rw [hsame, if_neg]
    intro hboard
    rw [upsertBounty_accepted hboard] at herr
    cases herr

/-- A contract's hydrate always does. -/
theorem contract_terms_hydrated {id : String} {kind : ContractEventKind} {record : ContractRecord}
    (h : Recorded w db) (hy : HydratedContract client w id kind record) :
    contractTerms id (processTx env noFaults client w db).db =
      some (record.expiryDaHeight.toInt64, clampInt32 record.disputeWindowBlocks) := by
  obtain ⟨r, txs, summaries, hlive, -, -, -, heq⟩ := h.before_resources
  rw [heq]
  unfold insertResourceRows
  simp only [hy.kind, hy.record]
  rcases attempt_outcome hlive with ⟨db', hok, hafter⟩ | ⟨⟨e, herr⟩, -⟩
  · have hdelta : Keeps (contractTerms id) (contractDelta noFaults id kind) :=
      keeps_contractColumn_delta fun _ => rfl
    rw [hafter, hdelta, upsertContract_eq hok, contractTerms]
    have hrow : Table.lookup ContractRow.id id
        (Table.upsert ContractRow.id (w.contractRow env id record)
          (mergeContractRow (w.contractRow env id record)) r.db.contracts) =
        some ((Table.lookup ContractRow.id id r.db.contracts).elim (w.contractRow env id record)
          (mergeContractRow (w.contractRow env id record))) := by
      have hid : id = (w.contractRow env id record).id := rfl
      rw [Table.lookup_upsert (by intro _; rfl), if_pos hid]
    refine (congrArg _ hrow).trans ?_
    cases Table.lookup ContractRow.id id r.db.contracts with
    | none => rfl
    | some old => rfl
  · rw [upsertContract_accepted] at herr
    cases herr

end Rows

/-! ## Emitted and stored -/

/-- Expiry height and dispute window are those of a hydrated record. -/
def TermsShown (expiry : Int64) (window : Int32) (expiryDaHeight : UInt64)
    (disputeWindowBlocks : UInt32) : Prop :=
  expiry.toInt = expiryDaHeight.toNat ∧ window.toInt = disputeWindowBlocks.toNat

/-- The terms fit `BIGINT` and `INTEGER`. -/
def TermsFit (expiryDaHeight : UInt64) (disputeWindowBlocks : UInt32) : Prop :=
  expiryDaHeight.toNat < 2 ^ 63 ∧ disputeWindowBlocks.toNat < 2 ^ 31

/-- The columns of a hydrated record show its terms if these fit. -/
theorem termsShown_hydrated {expiryDaHeight : UInt64} {disputeWindowBlocks : UInt32} :
    TermsShown expiryDaHeight.toInt64 (clampInt32 disputeWindowBlocks) expiryDaHeight
      disputeWindowBlocks ↔ TermsFit expiryDaHeight disputeWindowBlocks := by
  unfold TermsShown TermsFit
  rw [toInt_toInt64_eq_iff, toInt_clampInt32_eq_iff]

/-- The row of the transaction's resource holds the numbers the chain emitted. -/
def Stored (client : NodeClient) (k : IndexerTx) (db : Db) : Prop :=
  match k with
  | .registerSchema d => ∃ r, Table.lookup SchemaRow.id d.schemaId db.schemas = some r ∧
    r.version.toUInt32 = d.version
  | .submitAttestation d => ∃ r, Table.lookup AttestationRow.id d.id db.attestations = some r ∧
    r.signatureCount.toUInt32 = d.signatureCount
  | .bountyEvent id _ => ∀ record, client.bountyAt id = .ok (some record) →
    ∃ expiry window, bountyTerms id db = some (expiry, window) ∧
      TermsShown expiry window record.expiryDaHeight record.disputeWindowBlocks
  | .contractEvent id _ => ∀ record, client.contractAt id = .ok (some record) →
    ∃ expiry window, contractTerms id db = some (expiry, window) ∧
      TermsShown expiry window record.expiryDaHeight record.disputeWindowBlocks
  | .transfer _ | .registerAttestorSet _ | .unknown _ => True

/-- The emitted numbers fit their columns. -/
def NumbersFit (client : NodeClient) : IndexerTx → Prop
  | .registerSchema d => d.version.toNat < 2 ^ 31
  | .submitAttestation d => d.signatureCount.toNat < 2 ^ 31
  | .bountyEvent id _ => ∀ record, client.bountyAt id = .ok (some record) →
    TermsFit record.expiryDaHeight record.disputeWindowBlocks
  | .contractEvent id _ => ∀ record, client.contractAt id = .ok (some record) →
    TermsFit record.expiryDaHeight record.disputeWindowBlocks
  | .transfer _ | .registerAttestorSet _ | .unknown _ => True

/-- The constraints let the transaction write the row of its resource. A schema that is there is
left alone. -/
def Writes (client : NodeClient) (w : TxWork) (db : Db) : Prop :=
  TxAccepted w db ∧
    match w.classified.kind with
    | .registerSchema d => ¬ db.hasSchema d.schemaId ∧ SchemaAccepted d db
    | .submitAttestation d => db.hasAttestation d.id ∨ AttestationAccepted d w.classified.hash db
    | .bountyEvent id _ => ∀ record, client.bountyAt id = .ok (some record) →
      db.hasSchema record.boardSchemaId
    | .contractEvent _ _ | .transfer _ | .registerAttestorSet _ | .unknown _ => True

section Emitted

variable {env : Env} {client : NodeClient} {w : TxWork} {db : Db}

theorem stored_schema {d : IndexerRegisterSchema} (h : Recorded w db)
    (hk : w.classified.kind = .registerSchema d) :
    (∃ r, Table.lookup SchemaRow.id d.schemaId (processTx env noFaults client w db).db.schemas =
        some r ∧ r.version.toUInt32 = d.version) ↔
      ((¬ db.hasSchema d.schemaId ∧ SchemaAccepted d db) ∧ d.version.toNat < 2 ^ 31) ∨
        (¬ (¬ db.hasSchema d.schemaId ∧ SchemaAccepted d db) ∧
          ∃ r, Table.lookup SchemaRow.id d.schemaId db.schemas = some r ∧
            r.version.toUInt32 = d.version) := by
  rcases @schemas_registered env client _ _ _ h hk with
    ⟨hold, hsame⟩ | ⟨hnew, hacc, hrow⟩
  · have hno : ¬ (¬ db.hasSchema d.schemaId ∧ SchemaAccepted d db) := by
      intro h
      obtain ⟨hnew, hacc⟩ := h
      rcases hold with hold | hrefused
      · exact hnew hold
      · exact hrefused hacc
    rw [hsame]
    simp only [hno, false_and, not_false_eq_true, true_and, false_or]
  · have hnone : Table.lookup SchemaRow.id d.schemaId db.schemas = none :=
      Table.lookup_eq_none.2 fun x hx hid => hnew ⟨x, hx, hid⟩
    have hlast : Table.lookup SchemaRow.id d.schemaId
        (db.schemas ++ [schemaRow d w.classified.hash w.slotNumber w.timestamp]) =
        some (schemaRow d w.classified.hash w.slotNumber w.timestamp) := by
      rw [Table.lookup_append_singleton, hnone]
      exact if_pos rfl
    rw [hrow, hlast, ← toUInt32_clampInt32_eq_iff]
    constructor
    · intro h
      obtain ⟨r, hr, hversion⟩ := h
      cases hr
      exact .inl ⟨⟨hnew, hacc⟩, hversion⟩
    · intro h
      rcases h with ⟨-, hversion⟩ | ⟨hno, -⟩
      · exact ⟨_, rfl, hversion⟩
      · exact absurd ⟨hnew, hacc⟩ hno

theorem stored_attestation {d : IndexerSubmitAttestation} (h : Recorded w db)
    (hk : w.classified.kind = .submitAttestation d) (hpos : 1 ≤ d.signatureCount.toNat) :
    (∃ r, Table.lookup AttestationRow.id d.id (processTx env noFaults client w db).db.attestations =
        some r ∧ r.signatureCount.toUInt32 = d.signatureCount) ↔
      ((db.hasAttestation d.id ∨ AttestationAccepted d w.classified.hash db) ∧
          d.signatureCount.toNat < 2 ^ 31) ∨
        (¬ (db.hasAttestation d.id ∨ AttestationAccepted d w.classified.hash db) ∧
          ∃ r, Table.lookup AttestationRow.id d.id db.attestations = some r ∧
            r.signatureCount.toUInt32 = d.signatureCount) := by
  rcases @lookup_attestation_submitted env client _ _ _ h hk hpos with
    ⟨hwrites, row, hrow, hcount⟩ | ⟨hno, hnone⟩
  · rw [hrow, ← toUInt32_clampInt32_eq_iff, ← hcount]
    constructor
    · intro h
      obtain ⟨r, hr, hshown⟩ := h
      cases hr
      exact .inl ⟨hwrites, hshown⟩
    · intro h
      rcases h with ⟨-, hshown⟩ | ⟨hno, -⟩
      · exact ⟨row, rfl, hshown⟩
      · exact absurd hwrites hno
  · have hbefore : Table.lookup AttestationRow.id d.id db.attestations = none :=
      Table.lookup_eq_none.2 fun x hx hid => hno (.inl ⟨x, hx, hid⟩)
    rw [hnone, hbefore]
    simp only [hno, false_and, reduceCtorEq, exists_false, and_false, or_self]

theorem stored_bounty {id : String} {kind : BountyEventKind} {record : BountyRecord}
    (h : Recorded w db) (hy : Hydrated client w id kind record) :
    (∃ expiry window, bountyTerms id (processTx env noFaults client w db).db =
        some (expiry, window) ∧
        TermsShown expiry window record.expiryDaHeight record.disputeWindowBlocks) ↔
      (db.hasSchema record.boardSchemaId ∧
          TermsFit record.expiryDaHeight record.disputeWindowBlocks) ∨
        (¬ db.hasSchema record.boardSchemaId ∧
          ∃ expiry window, bountyTerms id db = some (expiry, window) ∧
            TermsShown expiry window record.expiryDaHeight record.disputeWindowBlocks) := by
  rw [bounty_terms_hydrated h hy]
  by_cases hboard : db.hasSchema record.boardSchemaId
  · rw [if_pos hboard, ← termsShown_hydrated]
    simp only [Option.some.injEq, Prod.mk.injEq, hboard, true_and, not_true_eq_false, false_and,
      or_false]
    constructor
    · intro h
      obtain ⟨_, _, ⟨rfl, rfl⟩, hshown⟩ := h
      exact hshown
    · intro hshown
      exact ⟨_, _, ⟨rfl, rfl⟩, hshown⟩
  · rw [if_neg hboard]
    simp only [hboard, false_and, not_false_eq_true, true_and, false_or]

theorem stored_contract {id : String} {kind : ContractEventKind} {record : ContractRecord}
    (h : Recorded w db) (hy : HydratedContract client w id kind record) :
    (∃ expiry window, contractTerms id (processTx env noFaults client w db).db =
        some (expiry, window) ∧
        TermsShown expiry window record.expiryDaHeight record.disputeWindowBlocks) ↔
      TermsFit record.expiryDaHeight record.disputeWindowBlocks := by
  rw [contract_terms_hydrated h hy, ← termsShown_hydrated]
  simp only [Option.some.injEq, Prod.mk.injEq]
  constructor
  · intro h
    obtain ⟨_, _, ⟨rfl, rfl⟩, hshown⟩ := h
    exact hshown
  · intro hshown
    exact ⟨_, _, ⟨rfl, rfl⟩, hshown⟩

/-- A transaction whose own row is refused changes nothing. -/
theorem processTx_refused (hc : w.classified.outcome = .committed) (h : ¬ TxAccepted w db) :
    (processTx env noFaults client w db).db = db := by
  rcases attempt_outcome (r := { db := db }) rfl with ⟨db', hok, -⟩ | ⟨-, hsame⟩
  · exact absurd ((insertTransaction_accepted hc).1 ⟨db', hok⟩) h
  · exact hsame

/-- What is written holds the numbers if they fit; what is not written holds what it held. -/
theorem stored_processTx (hc : w.classified.outcome = .committed)
    (hsig : ∀ d, w.classified.kind = .submitAttestation d → 1 ≤ d.signatureCount.toNat) :
    Stored client w.classified.kind (processTx env noFaults client w db).db ↔
      (Writes client w db ∧ NumbersFit client w.classified.kind) ∨
        (¬ Writes client w db ∧ Stored client w.classified.kind db) := by
  by_cases hacc : TxAccepted w db
  · have hrec : Recorded w db := ⟨hc, hacc⟩
    have hwrites : Writes client w db ↔ _ := and_iff_right hacc
    rw [hwrites]
    cases hk : w.classified.kind with
    | registerSchema d => exact stored_schema hrec hk
    | submitAttestation d => exact stored_attestation hrec hk (hsig d hk)
    | bountyEvent id kind =>
      simp only [Stored, NumbersFit]
      by_cases hy : ∃ record, client.bountyAt id = .ok (some record)
      · obtain ⟨record, hrecord⟩ := hy
        simp only [hrecord, Except.ok.injEq, Option.some.injEq, forall_eq']
        exact stored_bounty hrec ⟨hk, hrecord⟩
      · have hnone : ∀ record, client.bountyAt id ≠ .ok (some record) := fun r hr => hy ⟨r, hr⟩
        simp only [hnone, false_implies, implies_true, not_true_eq_false, and_true, or_false]
    | contractEvent id kind =>
      simp only [Stored, NumbersFit, true_and, not_true_eq_false, false_and, or_false]
      apply forall_congr'
      intro record
      apply imp_congr_right
      intro hrecord
      exact stored_contract hrec ⟨hk, hrecord⟩
    | transfer t => exact iff_of_true trivial (.inl ⟨trivial, trivial⟩)
    | registerAttestorSet d => exact iff_of_true trivial (.inl ⟨trivial, trivial⟩)
    | unknown keys => exact iff_of_true trivial (.inl ⟨trivial, trivial⟩)
  · have hno : ¬ Writes client w db := fun h => hacc h.1
    rw [processTx_refused hc hacc]
    simp only [hno, false_and, not_false_eq_true, true_and, false_or]

end Emitted

end LigateApi.Indexer
