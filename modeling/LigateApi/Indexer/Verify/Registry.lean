import LigateApi.Indexer.Verify.Intact
import LigateApi.Indexer.Verify.Mirror

/-!
# The registries mirror the chain

What the transactions of the chain register has a row behind the walk: every attestor set, schema
and attestation. A row hangs on others by its foreign keys, so this is by induction along the chain:
what a registration refers to was registered earlier (`Registers`), and a re-walk after a crash
finds or repeats it. In return every row of the three tables was registered on the chain
(`RegistryFrom`).
-/

namespace LigateApi.Indexer

open Lib Lib.Run

/-! ## Registrations of the chain -/

namespace Chain

variable (chain : Chain) (env : Env)

/-- What the transaction is read as. -/
def kind (n : UInt64) (tx : LedgerTx) : IndexerTx :=
  classifyEvents env.codec env.serde
    ((chain.slotAt n).events.filter fun e => e.txHash = tx.hash)

/-- The transaction is committed, and registers an attestor set. -/
structure Sets (n : UInt64) (i : Nat) (tx : LedgerTx) (d : IndexerRegisterAttestorSet) : Prop where
  commits : chain.Commits n i tx
  kind : chain.kind env n tx = .registerAttestorSet d

/-- It registers a schema. -/
structure Declares (n : UInt64) (i : Nat) (tx : LedgerTx) (d : IndexerRegisterSchema) : Prop where
  commits : chain.Commits n i tx
  kind : chain.kind env n tx = .registerSchema d

/-- It submits an attestation. -/
structure Attests (n : UInt64) (i : Nat) (tx : LedgerTx) (d : IndexerSubmitAttestation) :
    Prop where
  commits : chain.Commits n i tx
  kind : chain.kind env n tx = .submitAttestation d

/-- The `j`-th transaction of slot `m` lies before the `i`-th one of slot `n`, and not in the
genesis slot, which is not walked. -/
def Earlier (m : UInt64) (j : Nat) (n : UInt64) (i : Nat) : Prop :=
  1 ≤ m ∧ (m < n ∨ m = n ∧ j < i)

/-- What the chain checks before it accepts a registration; that versions fit the column is no check
of the chain. -/
structure Registers : Prop where
  threshold : ∀ n i tx d, chain.Sets env n i tx d →
    1 ≤ d.threshold.toNat ∧ d.threshold.toNat ≤ 64
  routing : ∀ n i tx d, chain.Declares env n i tx d → d.feeRoutingBps.toNat ≤ 10000 ∧
    ((0 < d.feeRoutingBps.toNat ∧ d.feeRoutingAddr.isSome) ∨
      (d.feeRoutingBps.toNat = 0 ∧ d.feeRoutingAddr.isNone))
  name : ∀ n i tx d m j tx' d', chain.Declares env n i tx d → chain.Declares env m j tx' d' →
    d.owner = d'.owner → d.name = d'.name → d.version = d'.version → d.schemaId = d'.schemaId
  version : ∀ n i tx d, chain.Declares env n i tx d → d.version.toNat < 2 ^ 31
  attestorSet : ∀ n i tx d, chain.Declares env n i tx d →
    ∃ m j tx' d', Earlier m j n i ∧ chain.Sets env m j tx' d' ∧ d'.attestorSetId = d.attestorSetId
  signatures : ∀ n i tx d, chain.Attests env n i tx d → 1 ≤ d.signatureCount.toNat
  schema : ∀ n i tx d, chain.Attests env n i tx d →
    ∃ m j tx' d', Earlier m j n i ∧ chain.Declares env m j tx' d' ∧ d'.schemaId = d.schemaId

/-- What the transaction registers has its row. -/
def registered : Task := fun db n _ tx =>
  match chain.kind env n tx with
  | .registerAttestorSet d => db.hasAttestorSet d.attestorSetId
  | .registerSchema d => db.hasSchema d.schemaId
  | .submitAttestation d => db.hasAttestation d.id
  | .transfer _ | .bountyEvent _ _ | .contractEvent _ _ | .unknown _ => True

end Chain

/-- Every row of the registries comes from a transaction of the chain. -/
structure RegistryFrom (env : Env) (chain : Chain) (db : Db) : Prop where
  attestorSets : ∀ r ∈ db.attestorSets, ∃ n i tx d, chain.Sets env n i tx d ∧
    r.id = d.attestorSetId
  schemas : ∀ r ∈ db.schemas, ∃ n i tx d, chain.Declares env n i tx d ∧
    (r.id, r.owner, r.name, r.version) = (d.schemaId, d.owner, d.name, clampInt32 d.version)
  attestations : ∀ r ∈ db.attestations, ∃ n i tx d, chain.Attests env n i tx d ∧
    (r.id, r.schemaId, r.submitter, r.submittedAtTx) = (d.id, d.schemaId, d.submitter, tx.hash)

section Turn

variable {env : Env} {chain : Chain} {n : UInt64} {i : Nat} {tx : LedgerTx} {w : TxWork}
  {db db' : Db} {faults : TxStmt → Fault} {client : NodeClient}

theorem Turn.hash (h : Turn env chain n i tx w) : w.classified.hash = tx.hash := by
  obtain ⟨slot, -, rfl⟩ := h.work
  rfl

theorem Turn.kind (h : Turn env chain n i tx w) : w.classified.kind = chain.kind env n tx := by
  obtain ⟨slot, -, rfl⟩ := h.work
  rfl

theorem Turn.slotNumber (h : Turn env chain n i tx w) : w.slotNumber = n := by
  obtain ⟨slot, hshow, rfl⟩ := h.work
  exact hshow.number

/-- Only a committed transaction gets past its own row. -/
theorem Turn.commits (h : Turn env chain n i tx w)
    (hok : insertTransaction w.classified w.slotNumber w.position w.decoded db = .ok db') :
    chain.Commits n i tx := by
  refine ⟨h.place, ?_⟩
  obtain ⟨slot, -, rfl⟩ := h.work
  have happlied : tx.applied = true := (List.mem_filter.1 (List.mem_of_getElem? h.place)).2
  refine (applied_iff.1 happlied).resolve_right fun hrev => ?_
  exact insertTransaction_reverted (outcomeOf_eq_reverted.2 hrev) hok

/-! ## Nothing invented -/

theorem RegistryFrom.congr (h : RegistryFrom env chain db)
    (hsets : db'.attestorSets = db.attestorSets) (hschemas : db'.schemas = db.schemas)
    (hatts : db'.attestations = db.attestations) : RegistryFrom env chain db' :=
  ⟨hsets ▸ h.attestorSets, hschemas ▸ h.schemas, hatts ▸ h.attestations⟩

/-- The statements on the registries write what the transaction registers. -/
theorem survives_registryFrom (h : Turn env chain n i tx w) (hc : chain.Commits n i tx) :
    SurvivesResources w (RegistryFrom env chain) where
  attestorSet d db db' hk hok hdb := by
    obtain ⟨row, hid, -, rfl⟩ := insertAttestorSet_ok hok
    refine { hdb with attestorSets := fun r hr => ?_ }
    rcases Table.mem_upsert hr with ⟨hr, -⟩ | rfl | ⟨old, hold, -, rfl⟩
    · exact hdb.attestorSets r hr
    · exact ⟨n, i, tx, d, ⟨hc, h.kind ▸ hk⟩, hid⟩
    · exact hdb.attestorSets old hold
  schema d db db' hk hok hdb := by
    rcases insertSchema_ok hok with ⟨-, rfl⟩ | ⟨-, -, rfl⟩
    · exact hdb
    · refine { hdb with schemas := fun r hr => ?_ }
      rcases List.mem_append.1 hr with hr | hr
      · exact hdb.schemas r hr
      · rw [List.mem_singleton.1 hr]
        exact ⟨n, i, tx, d, ⟨hc, h.kind ▸ hk⟩, rfl⟩
  schemaCount d db db' hk hok hdb := by
    rcases bumpAttestorSetSchemaCount_ok hok with ⟨-, rfl⟩ | ⟨old, k, -, -, rfl⟩
    · exact hdb
    · refine { hdb with attestorSets := fun r hr => ?_ }
      obtain ⟨x, hx, ⟨-, rfl⟩ | ⟨-, rfl⟩⟩ := Table.mem_update.1 hr
      · exact hdb.attestorSets x hx
      · exact hdb.attestorSets r hx
  schemasOwned d db db' hk hok hdb := by
    rcases bumpAddressSchemasOwned_ok hok with ⟨-, row, -, -, rfl⟩ | ⟨old, row, -, -, -, rfl⟩
    · exact hdb.congr rfl rfl rfl
    · exact hdb.congr rfl rfl rfl
  attestation d db db' hk hok hdb := by
    rcases insertAttestation_ok hok with ⟨-, k, rfl⟩ | ⟨-, -, rfl⟩
    · refine { hdb with attestations := fun r hr => ?_ }
      obtain ⟨x, hx, ⟨-, rfl⟩ | ⟨-, rfl⟩⟩ := Table.mem_update.1 hr
      · exact hdb.attestations x hx
      · exact hdb.attestations r hx
    · refine { hdb with attestations := fun r hr => ?_ }
      rcases List.mem_append.1 hr with hr | hr
      · exact hdb.attestations r hr
      · rw [List.mem_singleton.1 hr]
        exact ⟨n, i, tx, d, ⟨hc, h.kind ▸ hk⟩, by rw [← h.hash]; rfl⟩
  attestationCount d db db' hk hok hdb := by
    rcases bumpSchemaAttestationCount_ok hok with ⟨-, rfl⟩ | ⟨old, k, -, -, rfl⟩
    · exact hdb
    · refine { hdb with schemas := fun r hr => ?_ }
      obtain ⟨x, hx, ⟨-, rfl⟩ | ⟨-, rfl⟩⟩ := Table.mem_update.1 hr
      · exact hdb.schemas x hx
      · exact hdb.schemas r hx
  bounties db t hdb := hdb.congr rfl rfl rfl
  contracts db t hdb := hdb.congr rfl rfl rfl

theorem RegistryFrom.turn (hdb : RegistryFrom env chain db) (h : Turn env chain n i tx w) :
    RegistryFrom env chain (processTx env faults client w db).db := by
  rcases attempt_same_or_ok faults .transaction
    (insertTransaction w.classified w.slotNumber w.position w.decoded)
    (fun r => insertResourceRows env faults client w (updateAddressSummaries faults w r))
    { db := db } with hsame | ⟨db', -, -, hok, hafter⟩
  · rw [processTx, hsame]
    exact hdb
  · have hsum : ∀ r, RegistryFrom env chain r.db →
        RegistryFrom env chain (updateAddressSummaries faults w r).db := fun r hr =>
      hr.congr (keeps_updateAddressSummaries (π := Db.attestorSets) (fun _ _ => rfl) r)
        (keeps_updateAddressSummaries (π := Db.schemas) (fun _ _ => rfl) r)
        (keeps_updateAddressSummaries (π := Db.attestations) (fun _ _ => rfl) r)
    rw [processTx, hafter]
    refine maintains_insertResourceRows (survives_registryFrom h (h.commits hok)) _ (hsum _ ?_)
    rw [insertTransaction_frame hok]
    exact hdb.congr rfl rfl rfl

/-! ## Nothing lost -/

/-- A process that has died issues nothing more. -/
theorem crashed_insertResourceRows {r : TxRun} (hr : r.crashed = true) :
    insertResourceRows env faults client w r = r := by
  unfold insertResourceRows
  cases w.classified.kind with
  | transfer t => rfl
  | registerAttestorSet d => exact attempt_crashed hr
  | registerSchema d => exact attempt_crashed hr
  | submitAttestation d => exact attempt_crashed hr
  | bountyEvent bountyId kind =>
    dsimp only
    rcases client.bountyAt bountyId with err | _ | record
    · rfl
    · rfl
    · exact attempt_crashed hr
  | contractEvent contractId kind =>
    dsimp only
    rcases client.contractAt contractId with err | _ | record
    · rfl
    · rfl
    · exact attempt_crashed hr
  | unknown keys => rfl

/-- An acceptable statement goes through if it is not turned down and the process lives on. -/
theorem attempt_survived {stmt : TxStmt} {f : Db → Except DbError Db} {onOk : TxRun → TxRun}
    {r : TxRun} (hr : r.crashed = false) (hf : faults stmt ≠ .refuse) (hok : f r.db = .ok db')
    (hlive : (TxRun.attempt faults stmt f onOk id r).crashed = false) :
    TxRun.attempt faults stmt f onOk id r = onOk { r with db := db' } := by
  unfold TxRun.attempt at hlive ⊢
  simp only [hr, hok, Bool.false_eq_true, if_false] at hlive ⊢
  cases hfault : faults stmt with
  | none => rfl
  | refuse => exact absurd hfault hf
  | crash =>
    rw [hfault] at hlive
    cases hlive

/-- Where a turn that the process survives issues the statements on the registries. -/
theorem Turn.before_resources (h : Turn env chain n i tx w) (hc : chain.Commits n i tx)
    (hrows : FromChain env chain db.transactions) (hslot : db.hasSlot n.toInt64)
    (hf : faults .transaction ≠ .refuse)
    (hlive : (processTx env faults client w db).crashed = false) :
    ∃ r : TxRun, r.crashed = false ∧ r.db.hasSlot w.slotNumber.toInt64 ∧
      r.db.hasTx w.classified.hash ∧ r.db.attestorSets = db.attestorSets ∧
      r.db.schemas = db.schemas ∧ r.db.attestations = db.attestations ∧
      processTx env faults client w db = insertResourceRows env faults client w r := by
  obtain ⟨slot, hshow, hwork⟩ := h.work
  have hafter := attempt_survived rfl hf (hrows.inserts hshow hc hslot hwork) hlive
  refine ⟨_, ?_, ?_, ?_, ?_, ?_, ?_, hafter⟩
  · rw [processTx, hafter] at hlive
    cases hcrash : (updateAddressSummaries faults w _).crashed with
    | false => rfl
    | true =>
      rw [crashed_insertResourceRows hcrash, hcrash] at hlive
      cases hlive
  · have hsame : Keeps Db.slots (updateAddressSummaries faults w) :=
      keeps_updateAddressSummaries fun _ _ => rfl
    rw [Db.hasSlot, hsame, h.slotNumber]
    exact hslot
  · have hsame : Keeps Db.transactions (updateAddressSummaries faults w) :=
      keeps_updateAddressSummaries fun _ _ => rfl
    rw [Db.hasTx, hsame, h.hash]
    exact ⟨chain.row env n i tx, (hrows.mem_upsert hc).2 (.inr rfl), rfl⟩
  · exact keeps_updateAddressSummaries (π := Db.attestorSets) (fun _ _ => rfl) _
  · exact keeps_updateAddressSummaries (π := Db.schemas) (fun _ _ => rfl) _
  · exact keeps_updateAddressSummaries (π := Db.attestations) (fun _ _ => rfl) _

/-- The database does not turn down the insert of a row for a reason of its own. -/
def Lenient (faults : TxStmt → Fault) : Prop :=
  ∀ stmt ∈ [TxStmt.transaction, .attestorSet, .schema, .attestation], faults stmt ≠ .refuse

instance (faults : TxStmt → Fault) : Decidable (Lenient faults) :=
  inferInstanceAs (Decidable (∀ stmt ∈ [TxStmt.transaction, .attestorSet, .schema, .attestation],
    faults stmt ≠ .refuse))

section Inserts

variable {r : TxRun} {timestamp : Int} {hash : String}

/-- A set within the limits is accepted. -/
theorem insertAttestorSet_accepted {d : IndexerRegisterAttestorSet}
    (hthreshold : 1 ≤ d.threshold.toNat ∧ d.threshold.toNat ≤ 64) (hslot : db.hasSlot n.toInt64)
    (htx : db.hasTx hash) : ∃ db', insertAttestorSet d hash n timestamp db = .ok db' := by
  unfold insertAttestorSet
  simp only [require, if_pos hthreshold, if_pos hslot, if_pos htx]
  exact ⟨_, rfl⟩

theorem hasAttestorSet_insertAttestorSet {d : IndexerRegisterAttestorSet}
    (h : insertAttestorSet d hash n timestamp db = .ok db') :
    db'.hasAttestorSet d.attestorSetId := by
  obtain ⟨row, hid, -, rfl⟩ := insertAttestorSet_ok h
  obtain ⟨r, hr, rfl | ⟨old, -, hold, rfl⟩⟩ := Table.exists_mem_upsert AttestorSetRow.id row
    (fun old => { row with id := old.id, schemaCount := old.schemaCount }) db.attestorSets
  · exact ⟨_, hr, hid⟩
  · exact ⟨_, hr, hold.trans hid⟩

/-- A version that fits is not clamped. -/
theorem clampInt32_inj {a b : UInt32} (ha : a.toNat < 2 ^ 31) (hb : b.toNat < 2 ^ 31)
    (h : clampInt32 a = clampInt32 b) : a = b := by
  simp only [clampInt32, ha, hb, if_true] at h
  exact (UInt32.toUInt32_toInt32 a).symm.trans ((congrArg Int32.toUInt32 h).trans
    (UInt32.toUInt32_toInt32 b))

/-- A schema of the chain that has no row yet is accepted once its set has one. -/
theorem schemaAccepted_of_declares (hreg : chain.Registers env) (hdb : RegistryFrom env chain db)
    {d : IndexerRegisterSchema} (hd : chain.Declares env n i tx d)
    (hset : db.hasAttestorSet d.attestorSetId) (hnew : ¬ db.hasSchema d.schemaId) :
    SchemaAccepted d db where
  bps := (hreg.routing n i tx d hd).1
  addr := (hreg.routing n i tx d hd).2
  free := by
    rintro ⟨r, hr, howner, hname, hversion⟩
    obtain ⟨m, j, tx', d', hd', hcols⟩ := hdb.schemas r hr
    simp only [Prod.mk.injEq] at hcols
    obtain ⟨hid, howner', hname', hversion'⟩ := hcols
    have hsame := hreg.name m j tx' d' n i tx d hd' hd (howner'.symm.trans howner)
      (hname'.symm.trans hname) (clampInt32_inj (hreg.version m j tx' d' hd')
        (hreg.version n i tx d hd) (hversion'.symm.trans hversion))
    exact hnew ⟨r, hr, hid.trans hsame⟩
  attestorSet := hset

/-- An attestation of the chain that has no row yet is accepted once its schema has one. -/
theorem attestationAccepted_of_attests (hdb : RegistryFrom env chain db)
    {d : IndexerSubmitAttestation} (hd : chain.Attests env n i tx d)
    (hschema : db.hasSchema d.schemaId) (hnew : ¬ db.hasAttestation d.id) :
    AttestationAccepted d tx.hash db where
  free := by
    rintro ⟨r, hr, -, -, htx⟩
    obtain ⟨m, j, tx', d', hd', hcols⟩ := hdb.attestations r hr
    simp only [Prod.mk.injEq] at hcols
    obtain ⟨hid, -, -, htx'⟩ := hcols
    obtain ⟨rfl, rfl, rfl⟩ := hd'.commits.unique hd.commits (htx'.symm.trans htx)
    have hsame : d' = d := IndexerTx.submitAttestation.inj (hd'.kind.symm.trans hd.kind)
    exact hnew ⟨r, hr, hid.trans (congrArg IndexerSubmitAttestation.id hsame)⟩
  schema := hschema

theorem hasSchema_insertSchema {d : IndexerRegisterSchema}
    (h : insertSchema d hash n timestamp db = .ok db') : db'.hasSchema d.schemaId := by
  rcases insertSchema_ok h with ⟨hold, rfl⟩ | ⟨-, -, rfl⟩
  · exact hold
  · exact ⟨_, List.mem_append_right _ (List.mem_singleton.2 rfl), rfl⟩

theorem hasAttestation_insertAttestation {d : IndexerSubmitAttestation}
    (h : insertAttestation d hash n timestamp db = .ok db') : db'.hasAttestation d.id := by
  rcases insertAttestation_ok h with ⟨hold, k, rfl⟩ | ⟨-, -, rfl⟩
  · exact (Table.exists_key_update AttestationRow.id
      (f := fun old => { old with signatureCount := k }) fun _ hr => hr).2 hold
  · exact ⟨_, List.mem_append_right _ (List.mem_singleton.2 rfl), rfl⟩

/-- A schema of the chain is accepted once its set has a row, the first time and ever after. -/
theorem insertSchema_accepted (hreg : chain.Registers env) (hdb : RegistryFrom env chain db)
    {d : IndexerRegisterSchema} (hd : chain.Declares env n i tx d)
    (hset : db.hasAttestorSet d.attestorSetId) {height : UInt64}
    (hslot : db.hasSlot height.toInt64) (htx : db.hasTx hash) :
    ∃ db', insertSchema d hash height timestamp db = .ok db' := by
  by_cases hold : db.hasSchema d.schemaId
  · obtain ⟨hbps, haddr⟩ := hreg.routing n i tx d hd
    have hold' : db.hasSchema (schemaRow d hash height timestamp).id := hold
    unfold insertSchema
    simp only [require, if_pos hbps, if_pos haddr, if_pos hold']
    exact ⟨_, rfl⟩
  · exact ⟨_, (insertSchema_new hold).2
      ⟨schemaAccepted_of_declares hreg hdb hd hset hold, hslot, htx, rfl⟩⟩

end Inserts

/-! An accepted insert of a registry, in the place of the loop where it is issued. -/

section Issued

variable {r : TxRun} (hr : r.crashed = false) (hf : Lenient faults)
  (hlive : (insertResourceRows env faults client w r).crashed = false)
include hr hf hlive

theorem attestorSet_issued {d : IndexerRegisterAttestorSet}
    (hk : w.classified.kind = .registerAttestorSet d)
    (h : ∃ db', insertAttestorSet d w.classified.hash w.slotNumber w.timestamp r.db = .ok db') :
    (insertResourceRows env faults client w r).db.hasAttestorSet d.attestorSetId := by
  obtain ⟨db', hok⟩ := h
  unfold insertResourceRows at hlive ⊢
  simp only [hk] at hlive ⊢
  rw [attempt_survived hr (hf _ (by simp)) hok hlive]
  exact hasAttestorSet_insertAttestorSet hok

theorem schema_issued {d : IndexerRegisterSchema} (hk : w.classified.kind = .registerSchema d)
    (h : ∃ db', insertSchema d w.classified.hash w.slotNumber w.timestamp r.db = .ok db') :
    (insertResourceRows env faults client w r).db.hasSchema d.schemaId := by
  obtain ⟨db', hok⟩ := h
  unfold insertResourceRows at hlive ⊢
  simp only [hk] at hlive ⊢
  have hcounts : Keeps Db.schemas fun r => TxRun.attempt faults .schemasOwned
      (bumpAddressSchemasOwned d.owner w.slotNumber w.classified.hash w.timestamp) id id
      (TxRun.attempt faults .setSchemaCount
        (bumpAttestorSetSchemaCount d.attestorSetId) id id r) := by
    apply Keeps.comp
    · exact Keeps.attempt (schemasOwned_ignored (fun _ _ => rfl) _ _ _ _) (Keeps.refl _)
        (Keeps.refl _)
    · refine Keeps.attempt (fun db db' h => ?_) (Keeps.refl _) (Keeps.refl _)
      rcases bumpAttestorSetSchemaCount_ok h with ⟨-, rfl⟩ | ⟨_, _, -, -, rfl⟩ <;> rfl
  rw [attempt_survived hr (hf _ (by simp)) hok hlive, Db.hasSchema, hcounts]
  exact hasSchema_insertSchema hok

theorem attestation_issued {d : IndexerSubmitAttestation}
    (hk : w.classified.kind = .submitAttestation d)
    (h : ∃ db', insertAttestation d w.classified.hash w.slotNumber w.timestamp r.db = .ok db') :
    (insertResourceRows env faults client w r).db.hasAttestation d.id := by
  obtain ⟨db', hok⟩ := h
  unfold insertResourceRows at hlive ⊢
  simp only [hk] at hlive ⊢
  have hcount : Keeps Db.attestations (TxRun.attempt faults .attestationCount
      (bumpSchemaAttestationCount d.schemaId) id id) := by
    refine Keeps.attempt (fun db db' h => ?_) (Keeps.refl _) (Keeps.refl _)
    rcases bumpSchemaAttestationCount_ok h with ⟨-, rfl⟩ | ⟨_, _, -, -, rfl⟩ <;> rfl
  rw [attempt_survived hr (hf _ (by simp)) hok hlive, Db.hasAttestation, hcount]
  exact hasAttestation_insertAttestation hok

end Issued

/-- A turn that the process survives brings the rows of what its transaction registers. -/
theorem registered_turn (h : Turn env chain n i tx w) (hc : chain.Commits n i tx)
    (hreg : chain.Registers env) (hrows : FromChain env chain db.transactions)
    (hdb : RegistryFrom env chain db) (hslot : db.hasSlot n.toInt64) (hf : Lenient faults)
    (hbefore : ∀ m j tx', Chain.Earlier m j n i → chain.Commits m j tx' →
      chain.registered env db m j tx')
    (hlive : (processTx env faults client w db).crashed = false) :
    chain.registered env (processTx env faults client w db).db n i tx := by
  obtain ⟨r, hr, hslot, htx, hsets, hschemas, hatts, hafter⟩ :=
    h.before_resources hc hrows hslot (hf _ (by simp)) hlive
  have hfrom : RegistryFrom env chain r.db := hdb.congr hsets hschemas hatts
  rw [hafter] at hlive ⊢
  unfold Chain.registered at hbefore ⊢
  cases hk : chain.kind env n tx with
  | registerAttestorSet d =>
    refine attestorSet_issued hr hf hlive (h.kind.trans hk) ?_
    exact insertAttestorSet_accepted (hreg.threshold n i tx d ⟨hc, hk⟩) hslot htx
  | registerSchema d =>
    have hd : chain.Declares env n i tx d := ⟨hc, hk⟩
    -- its set was registered earlier, and has its row
    obtain ⟨m, j, tx', d', hearlier, hd', hid⟩ := hreg.attestorSet n i tx d hd
    have hset := hbefore m j tx' hearlier hd'.commits
    simp only [hd'.kind, hid] at hset
    refine schema_issued hr hf hlive (h.kind.trans hk) ?_
    refine insertSchema_accepted hreg hfrom hd ?_ hslot htx
    rw [Db.hasAttestorSet, hsets]
    exact hset
  | submitAttestation d =>
    have hd : chain.Attests env n i tx d := ⟨hc, hk⟩
    -- its schema was registered earlier, and has its row
    obtain ⟨m, j, tx', d', hearlier, hd', hid⟩ := hreg.schema n i tx d hd
    have hschema := hbefore m j tx' hearlier hd'.commits
    simp only [hd'.kind, hid] at hschema
    have hpos : 1 ≤ (clampInt32 d.signatureCount).toInt := by
      have hone := hreg.signatures n i tx d hd
      rw [toInt_clampInt32]
      omega
    refine attestation_issued hr hf hlive (h.kind.trans hk) ?_
    refine (insertAttestation_accepted hpos hslot htx).2 ?_
    by_cases hold : r.db.hasAttestation d.id
    · exact .inl hold
    · rw [h.hash]
      refine .inr (attestationAccepted_of_attests hfrom hd ?_ hold)
      rw [Db.hasSchema, hschemas]
      exact hschema
  | transfer t => trivial
  | bountyEvent bountyId kind => trivial
  | contractEvent contractId kind => trivial
  | unknown keys => trivial

end Turn

/-! ## Runs -/

/-- No height is answered 404, and no insert of a registry is turned down. -/
def Unbroken : Event → Prop
  | .slotAt (.ok none) => False
  | .processTx _ faults => Lenient faults
  | _ => True

instance (e : Event) : Decidable (Unbroken e) :=
  match e with
  | .slotAt (.ok none) => .isFalse id
  | .processTx _ faults => inferInstanceAs (Decidable (Lenient faults))
  | .slotAt (.ok (some _)) | .slotAt (.error _) | .start _ _ | .head _ | .crash
  | .upsertSlot _ _ _ _ | .walkSlot _ | .cursor _ | .scan _ | .refetch _ | .flip _ _ =>
    .isTrue trivial

structure RegistryInv (env : Env) (chain : Chain) (s : IndexerState) : Prop where
  mirror : MirrorInv env chain s
  found : s.notFound = []
  rows : RegistryFrom env chain s.db
  progress : Progress env chain (chain.registered env) s

section Runs

variable {env : Env} {chain : Chain} {s s' : IndexerState} {e : Event} {es : List Event}
  {db db' : Db}

theorem TableStep.hasAttestation {id : String} (h : TableStep env db db')
    (hs : db.hasAttestation id) : db'.hasAttestation id := by
  cases h with
  | attestations h =>
    cases h with
    | submit => exact hs.imp fun r hr => ⟨List.mem_append_left _ hr.1, hr.2⟩
    | refresh k m =>
      exact (Table.exists_key_update AttestationRow.id
        (f := fun r => { r with signatureCount := m }) fun _ hr => hr).2 hs
  | _ => exact hs

theorem Written.registered (h : Written env db db') {n : UInt64} {i : Nat} {tx : LedgerTx}
    (hs : chain.registered env db n i tx) : chain.registered env db' n i tx := by
  unfold Chain.registered at hs ⊢
  cases hk : chain.kind env n tx with
  | registerAttestorSet d =>
    simp only [hk] at hs
    exact h.refers.attestorSet _ hs
  | registerSchema d =>
    simp only [hk] at hs
    exact h.refers.schema _ hs
  | submitAttestation d =>
    simp only [hk] at hs
    exact h.keeps (fun _ _ hw => hw.table.hasAttestation) hs
  | transfer t => trivial
  | bountyEvent bountyId kind => trivial
  | contractEvent contractId kind => trivial
  | unknown keys => trivial

theorem RegistryInv.registry (h : RegistryInv env chain s) (hdb : DbStep env s e db) :
    RegistryFrom env chain db := by
  cases hdb with
  | same => exact h.rows
  | upsertSlot => exact h.rows.congr rfl rfl rfl
  | @processTx next head w works client faults hw =>
    obtain ⟨i, tx, ht, -, -⟩ := (h.progress.left (next, w :: works) (by rw [hw]; rfl)).turn
    exact h.rows.turn ht
  | cursor => exact h.rows.congr rfl rfl rfl
  | flip => exact h.rows.congr rfl rfl rfl

/-- What was registered before the transaction of the current turn has its row. -/
theorem RegistryInv.earlier (h : RegistryInv env chain s) {n head : UInt64} {i : Nat}
    {works : List TxWork} (hw : s.walker = .ingesting n head works)
    (hbefore : ∀ j tx, j < i → chain.Commits n j tx → chain.registered env s.db n j tx)
    {m : UInt64} {j : Nat} {tx : LedgerTx} (hm : Chain.Earlier m j n i)
    (hc : chain.Commits m j tx) : chain.registered env s.db m j tx := by
  obtain ⟨hone, hlt | ⟨rfl, hlt⟩⟩ := hm
  · rcases h.progress.passed.next n (by rw [hw]; rfl) m hone hlt with ⟨head, hmem⟩ | hdone
    · rw [h.found] at hmem
      cases hmem
    · exact hdone j tx hc
  · exact hbefore j tx hlt hc

theorem notFound_step (he : Unbroken e) (hstep : step env s e = some s')
    (h : s.notFound = []) : s'.notFound = [] := by
  cases step_cases hstep with
  | notFound => exact he.elim
  | processTx => split <;> exact h
  | _ => exact h

theorem registryInv_step (hreg : chain.Registers env) (h : RegistryInv env chain s)
    (he : Honest chain s e) (hu : Unbroken e) (hstep : step env s e = some s') :
    RegistryInv env chain s' := by
  refine ⟨mirrorInv_step h.mirror he hstep, notFound_step hu hstep h.found,
    h.registry (step_db hstep), ?_⟩
  refine h.progress.step he (fun n i tx hs => (step_db hstep).written.registered hs) ?_ hstep
  rintro n head i tx w works client faults hw rfl ht hlive hbefore hc
  have hslot : s.db.hasSlot n.toInt64 := h.mirror.cursor.walker.row n (by rw [hw]; rfl)
  exact registered_turn ht hc hreg h.mirror.rows h.rows hslot hu
    (fun m j tx' hm hc' => h.earlier hw hbefore hm hc') hlive

theorem registryInv_run (hreg : chain.Registers env)
    (hr : Along (step env) (Honest chain) .init es) (hu : ∀ e ∈ es, Unbroken e)
    (hrun : exec (step env) .init es = some s) : RegistryInv env chain s := by
  refine exec_invariant_along (fun _ _ _ hI he hs => registryInv_step hreg hI he.1 he.2 hs) ?_
    (hr.and (along_of_mem fun e he _ => hu e he)) hrun
  exact ⟨mirrorInv_init, rfl,
    ⟨List.forall_mem_nil _, List.forall_mem_nil _, List.forall_mem_nil _⟩, progress_init⟩

/-- What the chain registers behind the walk has its row. -/
theorem RegistryInv.behind (hinv : RegistryInv env chain s) {k : UInt64} (hk : 1 ≤ k)
    (hpassed : (∃ n ∈ s.walker.nextHeight, k < n) ∨ ∃ h ∈ s.db.lastIndexedHeight, k ≤ h) :
    (∀ i tx d, chain.Sets env k i tx d → s.db.hasAttestorSet d.attestorSetId) ∧
      (∀ i tx d, chain.Declares env k i tx d → s.db.hasSchema d.schemaId) ∧
      ∀ i tx d, chain.Attests env k i tx d → s.db.hasAttestation d.id := by
  have haccounted : Accounted chain (chain.registered env) s k := by
    rcases hpassed with ⟨n, hn, hlt⟩ | ⟨h, hh, hle⟩
    · exact hinv.progress.passed.next n hn k hk hlt
    · exact hinv.progress.passed.cursor h hh k hk hle
  have hdone : ∀ i tx, chain.Commits k i tx → chain.registered env s.db k i tx := by
    refine haccounted.resolve_left ?_
    rintro ⟨head, hmem⟩
    rw [hinv.found] at hmem
    cases hmem
  refine ⟨fun i tx d hd => ?_, fun i tx d hd => ?_, fun i tx d hd => ?_⟩
  · have hs := hdone i tx hd.commits
    simp only [Chain.registered, hd.kind] at hs
    exact hs
  · have hs := hdone i tx hd.commits
    simp only [Chain.registered, hd.kind] at hs
    exact hs
  · have hs := hdone i tx hd.commits
    simp only [Chain.registered, hd.kind] at hs
    exact hs

end Runs

/-! ## A set and its schema -/

section OneSlot

/-- The transaction of slot 1 at position 0 or 1. -/
def registryTx (i : Nat) : LedgerTx :=
  { hash := if i = 0 then "0xaa" else "0xbb", number := UInt64.ofNat i, batchNumber := 0,
    body := "", result := "successful" }

def registeredSet : IndexerRegisterAttestorSet :=
  { attestorSetId := "las1", members := ["lpk1"], threshold := 1, registeredBy := "lig1" }

def registeredSchema : IndexerRegisterSchema :=
  { schemaId := "lsc1", name := "proof", version := 1, owner := "lig1", attestorSetId := "las1",
    feeRoutingBps := 0, feeRoutingAddr := none, payloadShapeHash := "0x00" }

theorem commits_registryChain {n : UInt64} {i : Nat} {tx : LedgerTx}
    (h : registryChain.Commits n i tx) :
    n = 1 ∧ (i = 0 ∧ tx = registryTx 0 ∨ i = 1 ∧ tx = registryTx 1) := by
  obtain ⟨rfl, hplace⟩ := singleSlot_registryChain _ _ _ h.place
  have happlied : (registryChainSlot 1).applied = [registryTx 0, registryTx 1] := by decide
  rw [happlied] at hplace
  refine ⟨rfl, ?_⟩
  rcases i with _ | _ | i
  · exact .inl ⟨rfl, (Option.some.inj hplace).symm⟩
  · exact .inr ⟨rfl, (Option.some.inj hplace).symm⟩
  · cases hplace

theorem kind_registryTx :
    registryChain.kind registryEnv 1 (registryTx 0) = .registerAttestorSet registeredSet ∧
      registryChain.kind registryEnv 1 (registryTx 1) = .registerSchema registeredSchema :=
  ⟨rfl, rfl⟩

theorem sets_registryChain {n : UInt64} {i : Nat} {tx : LedgerTx} {d : IndexerRegisterAttestorSet}
    (h : registryChain.Sets registryEnv n i tx d) : n = 1 ∧ i = 0 ∧ d = registeredSet := by
  obtain ⟨rfl, ⟨rfl, rfl⟩ | ⟨rfl, rfl⟩⟩ := commits_registryChain h.commits
  · exact ⟨rfl, rfl, IndexerTx.registerAttestorSet.inj (h.kind.symm.trans kind_registryTx.1)⟩
  · cases h.kind.symm.trans kind_registryTx.2

theorem declares_registryChain {n : UInt64} {i : Nat} {tx : LedgerTx} {d : IndexerRegisterSchema}
    (h : registryChain.Declares registryEnv n i tx d) : n = 1 ∧ i = 1 ∧ d = registeredSchema := by
  obtain ⟨rfl, ⟨rfl, rfl⟩ | ⟨rfl, rfl⟩⟩ := commits_registryChain h.commits
  · cases h.kind.symm.trans kind_registryTx.1
  · exact ⟨rfl, rfl, IndexerTx.registerSchema.inj (h.kind.symm.trans kind_registryTx.2)⟩

theorem not_attests_registryChain {n : UInt64} {i : Nat} {tx : LedgerTx}
    {d : IndexerSubmitAttestation} : ¬ registryChain.Attests registryEnv n i tx d := by
  intro h
  obtain ⟨rfl, ⟨rfl, rfl⟩ | ⟨rfl, rfl⟩⟩ := commits_registryChain h.commits
  · cases h.kind.symm.trans kind_registryTx.1
  · cases h.kind.symm.trans kind_registryTx.2

theorem sets_registryTx : registryChain.Sets registryEnv 1 0 (registryTx 0) registeredSet :=
  ⟨⟨by decide, rfl⟩, kind_registryTx.1⟩

theorem declares_registryTx :
    registryChain.Declares registryEnv 1 1 (registryTx 1) registeredSchema :=
  ⟨⟨by decide, rfl⟩, kind_registryTx.2⟩

theorem registers_registryChain : registryChain.Registers registryEnv where
  threshold n i tx d h := by
    obtain ⟨-, -, rfl⟩ := sets_registryChain h
    decide
  routing n i tx d h := by
    obtain ⟨-, -, rfl⟩ := declares_registryChain h
    decide
  name n i tx d m j tx' d' h h' _ _ _ := by
    obtain ⟨-, -, rfl⟩ := declares_registryChain h
    obtain ⟨-, -, rfl⟩ := declares_registryChain h'
    rfl
  version n i tx d h := by
    obtain ⟨-, -, rfl⟩ := declares_registryChain h
    decide
  attestorSet n i tx d h := by
    obtain ⟨rfl, rfl, rfl⟩ := declares_registryChain h
    exact ⟨1, 0, _, _, ⟨by decide, .inr ⟨rfl, by decide⟩⟩, sets_registryTx, rfl⟩
  signatures n i tx d h := absurd h not_attests_registryChain
  schema n i tx d h := absurd h not_attests_registryChain

end OneSlot

end LigateApi.Indexer
