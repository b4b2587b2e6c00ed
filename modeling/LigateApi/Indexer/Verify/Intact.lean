import LigateApi.Indexer.Verify.Counters
import LigateApi.Indexer.Verify.TableSteps
import LigateApi.Lib.Rows

/-!
# The constraints of the schema over whole tables

A statement checks the row it writes. Over a run this keeps the tables as the migrations ask: keys
are unique, every CHECK holds of every row, and no reference dangles (`Intact`). Nothing is ever
deleted and no key rewritten, so what can be referred to can be referred to ever after (`Refers`).
A row is stated against the database its references go to, which lets a table stay as it is while
another one grows (`IntactIn.mono`).
-/

namespace LigateApi.Indexer

open Lib Lib.Run

/-! ## Rows -/

/-- A row of `transactions`: its CHECKs, its slot, and that no reverted transaction is stored. -/
structure TxRow.Valid (db : Db) (r : TxRow) : Prop where
  check : r.check = .ok ()
  committed : r.outcome = "committed"
  slot : db.hasSlot r.slot

structure AttestorSetRow.Valid (db : Db) (r : AttestorSetRow) : Prop where
  threshold : 1 ≤ r.threshold.toInt ∧ r.threshold.toInt ≤ 64
  schemaCount : 0 ≤ r.schemaCount.toInt
  slot : db.hasSlot r.registeredAtSlot
  tx : db.hasTx r.registeredAtTx

structure SchemaRow.Valid (db : Db) (r : SchemaRow) : Prop where
  bps : 0 ≤ r.feeRoutingBps.toInt ∧ r.feeRoutingBps.toInt ≤ 10000
  addr : (0 < r.feeRoutingBps.toInt ∧ r.feeRoutingAddr.isSome) ∨
    (r.feeRoutingBps.toInt = 0 ∧ r.feeRoutingAddr.isNone)
  attestationCount : 0 ≤ r.attestationCount.toInt
  attestorSet : db.hasAttestorSet r.attestorSetId
  slot : db.hasSlot r.registeredAtSlot
  tx : db.hasTx r.registeredAtTx

structure AttestationRow.Valid (db : Db) (r : AttestationRow) : Prop where
  signatures : 1 ≤ r.signatureCount.toInt
  schema : db.hasSchema r.schemaId
  slot : db.hasSlot r.submittedAtSlot
  tx : db.hasTx r.submittedAtTx

structure BountyRow.Valid (db : Db) (r : BountyRow) : Prop where
  status : r.status ∈ ["open", "exhausted", "expired", "cancelled", "finalised"]
  board : db.hasSchema r.boardSchemaId

def ContractRow.Valid (r : ContractRow) : Prop :=
  r.status ∈ ["open", "committed", "delivered", "accepted", "rejected", "disputed", "cancelled",
    "expired"]

/-- An address has a row once it was seen. -/
structure AddressSummaryRow.Valid (r : AddressSummaryRow) : Prop where
  check : r.check = .ok ()
  first : r.firstSeenSlot.isSome
  last : r.lastSeenSlot.isSome

/-- The tables of `db` meet their constraints, where references go to `refs`. -/
structure IntactIn (refs db : Db) : Prop where
  slots : (db.slots.map SlotRow.height).Nodup
  transactions : Table.Sound TxRow.hash (TxRow.Valid refs) db.transactions
  positions : (db.transactions.map fun r => (r.slot, r.position)).Nodup
  attestorSets : Table.Sound AttestorSetRow.id (AttestorSetRow.Valid refs) db.attestorSets
  schemas : Table.Sound SchemaRow.id (SchemaRow.Valid refs) db.schemas
  schemaNames : (db.schemas.map fun r => (r.owner, r.name, r.version)).Nodup
  attestations : Table.Sound AttestationRow.id (AttestationRow.Valid refs) db.attestations
  submissions :
    (db.attestations.map fun r => (r.schemaId, r.payloadHash, r.submittedAtTx)).Nodup
  summaries : Table.Sound AddressSummaryRow.address AddressSummaryRow.Valid db.addressSummaries
  bounties : Table.Sound BountyRow.id (BountyRow.Valid refs) db.bounties
  contracts : Table.Sound ContractRow.id ContractRow.Valid db.contracts

/-- The tables meet the constraints of the schema. -/
abbrev Intact (db : Db) : Prop := IntactIn db db

theorem intact_empty : Intact Db.empty where
  slots := List.nodup_nil
  transactions := Table.sound_nil
  positions := List.nodup_nil
  attestorSets := Table.sound_nil
  schemas := Table.sound_nil
  schemaNames := List.nodup_nil
  attestations := Table.sound_nil
  submissions := List.nodup_nil
  summaries := Table.sound_nil
  bounties := Table.sound_nil
  contracts := Table.sound_nil

/-! ## References -/

/-- What a row of `db` can refer to, a row of `db'` can. -/
structure Refers (db db' : Db) : Prop where
  slot : ∀ height, db.hasSlot height → db'.hasSlot height
  tx : ∀ hash, db.hasTx hash → db'.hasTx hash
  attestorSet : ∀ id, db.hasAttestorSet id → db'.hasAttestorSet id
  schema : ∀ id, db.hasSchema id → db'.hasSchema id

section Refers

variable {env : Env} {refs refs' db db' : Db}

theorem Refers.refl (db : Db) : Refers db db :=
  ⟨fun _ h => h, fun _ h => h, fun _ h => h, fun _ h => h⟩

theorem Refers.trans {c : Db} (h : Refers db db') (h' : Refers db' c) : Refers db c :=
  ⟨fun _ hr => h'.slot _ (h.slot _ hr), fun _ hr => h'.tx _ (h.tx _ hr),
    fun _ hr => h'.attestorSet _ (h.attestorSet _ hr), fun _ hr => h'.schema _ (h.schema _ hr)⟩

theorem TxRow.Valid.mono {r : TxRow} (hr : r.Valid refs) (h : Refers refs refs') : r.Valid refs' :=
  { hr with slot := h.slot _ hr.slot }

theorem AttestorSetRow.Valid.mono {r : AttestorSetRow} (hr : r.Valid refs) (h : Refers refs refs') :
    r.Valid refs' :=
  { hr with slot := h.slot _ hr.slot, tx := h.tx _ hr.tx }

theorem SchemaRow.Valid.mono {r : SchemaRow} (hr : r.Valid refs) (h : Refers refs refs') :
    r.Valid refs' :=
  { hr with
    attestorSet := h.attestorSet _ hr.attestorSet
    slot := h.slot _ hr.slot
    tx := h.tx _ hr.tx }

theorem AttestationRow.Valid.mono {r : AttestationRow} (hr : r.Valid refs) (h : Refers refs refs') :
    r.Valid refs' :=
  { hr with schema := h.schema _ hr.schema, slot := h.slot _ hr.slot, tx := h.tx _ hr.tx }

theorem BountyRow.Valid.mono {r : BountyRow} (hr : r.Valid refs) (h : Refers refs refs') :
    r.Valid refs' :=
  { hr with board := h.schema _ hr.board }

/-- References into a database that has more. -/
theorem IntactIn.mono (hdb : IntactIn refs db) (h : Refers refs refs') : IntactIn refs' db :=
  { hdb with
    transactions := hdb.transactions.imp fun _ hr => hr.mono h
    attestorSets := hdb.attestorSets.imp fun _ hr => hr.mono h
    schemas := hdb.schemas.imp fun _ hr => hr.mono h
    attestations := hdb.attestations.imp fun _ hr => hr.mono h
    bounties := hdb.bounties.imp fun _ hr => hr.mono h }

/-- No transition loses a key that is referred to. -/
theorem TableStep.refers (h : TableStep env db db') : Refers db db' := by
  have hrefl := Refers.refl db
  cases h with
  | same => exact hrefl
  | cursor height => exact { hrefl with }
  | slots h =>
    refine { hrefl with slot := fun height hs => ?_ }
    cases h with
    | put row now => exact Table.exists_key_upsert (fun _ => rfl) hs
    | flip k now =>
      refine (Table.exists_key_update SlotRow.height fun r hr => ?_).2 hs
      unfold flipRow
      split
      · exact hr
      · exact hr
  | transactions h =>
    cases h with
    | put row => exact { hrefl with tx := fun _ => Table.exists_key_upsert fun _ => rfl }
  | attestorSets h =>
    refine { hrefl with attestorSet := fun id hs => ?_ }
    cases h with
    | put row => exact Table.exists_key_upsert (fun _ => rfl) hs
    | count =>
      refine (Table.exists_key_update AttestorSetRow.id ?_).2 hs
      exact fun _ hr => hr
  | schemas h =>
    refine { hrefl with schema := fun id hs => ?_ }
    cases h with
    | register d =>
      obtain ⟨r, hr, hid⟩ := hs
      exact ⟨r, List.mem_append_left _ hr, hid⟩
    | count =>
      refine (Table.exists_key_update SchemaRow.id ?_).2 hs
      exact fun _ hr => hr
  | attestations => exact { hrefl with }
  | summaries => exact { hrefl with }
  | bounties => exact { hrefl with }
  | contracts => exact { hrefl with }

end Refers

/-! ## One table at a time -/

section Tables

variable {env : Env} {refs db db' : Db}

theorem heights_slotsStep {t : List SlotRow} (h : SlotsStep db t)
    (hn : (db.slots.map SlotRow.height).Nodup) : (t.map SlotRow.height).Nodup := by
  cases h with
  | put row now => exact Table.nodup_upsert (fun _ => rfl) hn
  | flip k now =>
    refine Table.nodup_update_same hn fun r _ _ => ?_
    unfold flipRow
    split <;> rfl

/-- The CHECKs of a stored row that is committed leave it without a revert reason. -/
theorem TxRow.Valid.revertReason {r : TxRow} (h : r.Valid refs) : r.revertReason = none := by
  obtain ⟨-, -, ⟨hrev, -⟩ | ⟨-, hnone⟩⟩ := TxRow.check_eq_ok.1 h.check
  · rw [h.committed] at hrev
    exact absurd hrev (by decide)
  · exact Option.isNone_iff_eq_none.1 hnone

theorem valid_mergeTxRow {row old : TxRow} (hrow : row.Valid refs) (hold : old.Valid refs) :
    (mergeTxRow row old).Valid refs := by
  obtain ⟨hkind, houtcome, -⟩ := TxRow.check_eq_ok.1 hrow.check
  refine ⟨TxRow.check_eq_ok.2 ⟨hkind, houtcome, .inr ⟨hrow.committed, ?_⟩⟩, hrow.committed,
    hrow.slot⟩
  exact Option.isNone_iff_eq_none.2 hold.revertReason

theorem sound_transactionsStep {t : List TxRow} (h : TransactionsStep db t)
    (hs : Table.Sound TxRow.hash (TxRow.Valid db) db.transactions) :
    Table.Sound TxRow.hash (TxRow.Valid db) t := by
  cases h with
  | put row hcheck hcommitted hfree hslot =>
    have hrow : row.Valid db := ⟨hcheck, hcommitted, hslot⟩
    exact hs.upsert (fun _ => rfl) (fun _ => hrow) fun r hr _ hvalid =>
      valid_mergeTxRow hrow hvalid

theorem positions_transactionsStep {t : List TxRow} (h : TransactionsStep db t)
    (hkeys : (db.transactions.map TxRow.hash).Nodup)
    (hn : (db.transactions.map fun r => (r.slot, r.position)).Nodup) :
    (t.map fun r => (r.slot, r.position)).Nodup := by
  cases h with
  | put row hcheck hcommitted hfree hslot =>
    have hother : ∀ r ∈ db.transactions, r.hash ≠ row.hash →
        (r.slot, r.position) ≠ (row.slot, row.position) := by
      intro r hr hne heq
      obtain ⟨hs, hp⟩ := Prod.mk.inj heq
      exact hfree ⟨r, hr, hne, hs, hp⟩
    cases hl : Table.lookup TxRow.hash row.hash db.transactions with
    | none =>
      rw [Table.upsert_fresh hl]
      exact Table.nodup_snoc hn fun r hr => hother r hr (Table.lookup_eq_none.1 hl r hr)
    | some old =>
      rw [Table.upsert_present hl]
      exact Table.nodup_update hkeys hn (fun _ _ _ => rfl) hother

theorem sound_attestorSetsStep {t : List AttestorSetRow} (h : AttestorSetsStep db t)
    (hs : Table.Sound AttestorSetRow.id (AttestorSetRow.Valid db) db.attestorSets) :
    Table.Sound AttestorSetRow.id (AttestorSetRow.Valid db) t := by
  cases h with
  | put row hthreshold hcount hslot htx =>
    refine hs.upsert (fun _ => rfl) (fun _ => ⟨hthreshold, ?_, hslot, htx⟩) ?_
    · rw [hcount]
      decide
    · intro r _ _ hvalid
      exact ⟨hthreshold, hvalid.schemaCount, hslot, htx⟩
  | count id old n hold hn =>
    refine hs.update (fun _ hr => hr) fun r _ _ hvalid => { hvalid with schemaCount := ?_ }
    have hnonneg := (hs.rows old (Table.lookup_mem hold)).schemaCount
    dsimp only
    omega

/-- A fee the CHECK accepts fits the column. -/
theorem toInt_bps {k : Nat} (hk : k ≤ 10000) : (Int32.ofNat k).toInt = k := by
  have hsize : Int32.size = 2 ^ 32 := rfl
  rw [Int32.toInt_ofNat', hsize]
  exact Int.bmod_eq_of_le (by omega) (by omega)

theorem valid_schemaRow {d : IndexerRegisterSchema} {hash : String} {n : UInt64} {timestamp : Int}
    (haccepted : SchemaAccepted d db) (hslot : db.hasSlot n.toInt64) (htx : db.hasTx hash) :
    (schemaRow d hash n timestamp).Valid db := by
  have hbps := toInt_bps haccepted.bps
  have hle := haccepted.bps
  have hcount : (schemaRow d hash n timestamp).attestationCount = 0 := rfl
  refine ⟨?_, ?_, ?_, haccepted.attestorSet, hslot, htx⟩
  · simp only [schemaRow, hbps]
    omega
  · simp only [schemaRow, hbps]
    rcases haccepted.addr with ⟨hpos, hsome⟩ | ⟨hzero, hnone⟩
    · exact .inl ⟨by omega, hsome⟩
    · exact .inr ⟨by omega, hnone⟩
  · rw [hcount]
    decide

theorem sound_schemasStep {t : List SchemaRow} (h : SchemasStep db t)
    (hs : Table.Sound SchemaRow.id (SchemaRow.Valid db) db.schemas) :
    Table.Sound SchemaRow.id (SchemaRow.Valid db) t := by
  cases h with
  | register d hash n timestamp hnew haccepted hslot htx =>
    refine hs.snoc (fun r hr heq => hnew ⟨r, hr, heq⟩) ?_
    exact valid_schemaRow haccepted hslot htx
  | count id old n hold hn =>
    refine hs.update (fun _ hr => hr) fun r _ _ hvalid => { hvalid with attestationCount := ?_ }
    have hnonneg := (hs.rows old (Table.lookup_mem hold)).attestationCount
    dsimp only
    omega

theorem names_schemasStep {t : List SchemaRow} (h : SchemasStep db t)
    (hn : (db.schemas.map fun r => (r.owner, r.name, r.version)).Nodup) :
    (t.map fun r => (r.owner, r.name, r.version)).Nodup := by
  cases h with
  | register d hash n timestamp hnew haccepted =>
    refine Table.nodup_snoc hn fun r hr heq => ?_
    simp only [schemaRow, Prod.mk.injEq] at heq
    exact haccepted.free ⟨r, hr, heq⟩
  | count id old n =>
    refine Table.nodup_update_same hn ?_
    exact fun _ _ _ => rfl

theorem sound_attestationsStep {t : List AttestationRow} (h : AttestationsStep db t)
    (hs : Table.Sound AttestationRow.id (AttestationRow.Valid db) db.attestations) :
    Table.Sound AttestationRow.id (AttestationRow.Valid db) t := by
  cases h with
  | submit d hash n timestamp hnew haccepted hsignatures hslot htx =>
    refine hs.snoc (fun r hr heq => hnew ⟨r, hr, heq⟩) ?_
    exact ⟨hsignatures, haccepted.schema, hslot, htx⟩
  | refresh id n hn =>
    exact hs.update (fun _ hr => hr) fun r _ _ hvalid => { hvalid with signatures := hn }

theorem submissions_attestationsStep {t : List AttestationRow} (h : AttestationsStep db t)
    (hn : (db.attestations.map fun r => (r.schemaId, r.payloadHash, r.submittedAtTx)).Nodup) :
    (t.map fun r => (r.schemaId, r.payloadHash, r.submittedAtTx)).Nodup := by
  cases h with
  | submit d hash n timestamp hnew haccepted =>
    refine Table.nodup_snoc hn fun r hr heq => ?_
    simp only [attestationRow, Prod.mk.injEq] at heq
    exact haccepted.free ⟨r, hr, heq⟩
  | refresh id n =>
    refine Table.nodup_update_same hn ?_
    exact fun _ _ _ => rfl

theorem sound_summariesStep {t : List AddressSummaryRow} (h : SummariesStep db t)
    (hs : Table.Sound AddressSummaryRow.address AddressSummaryRow.Valid db.addressSummaries) :
    Table.Sound AddressSummaryRow.address AddressSummaryRow.Valid t := by
  cases h with
  | sight row hnew hcheck hfirst hlast =>
    exact hs.snoc (Table.lookup_eq_none.1 hnew) ⟨hcheck, hfirst, hlast⟩
  | activity old sent received slot hash timestamp hold hsent hreceived hcheck =>
    exact hs.update (fun _ _ => rfl) fun _ _ _ _ => ⟨hcheck, rfl, rfl⟩
  | owned old n hold hn hcheck =>
    have hvalid := hs.rows old (Table.lookup_mem hold)
    exact hs.update (fun _ _ => rfl) fun _ _ _ _ => ⟨hcheck, hvalid.first, hvalid.last⟩

theorem mapBountyStatus_known (status : String) :
    mapBountyStatus status ∈ ["open", "exhausted", "expired", "cancelled", "finalised"] := by
  unfold mapBountyStatus
  split <;> simp

theorem mapContractStatus_known (status : String) :
    mapContractStatus status ∈ ["open", "committed", "delivered", "accepted", "rejected",
      "disputed", "cancelled", "expired"] := by
  unfold mapContractStatus
  split <;> simp

theorem sound_bountiesStep {t : List BountyRow} (h : BountiesStep db t)
    (hs : Table.Sound BountyRow.id (BountyRow.Valid db) db.bounties) :
    Table.Sound BountyRow.id (BountyRow.Valid db) t := by
  cases h with
  | put id record n hash timestamp hboard =>
    have hstatus := mapBountyStatus_known record.status
    exact hs.upsert (fun _ => rfl) (fun _ => ⟨hstatus, hboard⟩) fun _ _ _ _ => ⟨hstatus, hboard⟩
  | claim id old escrow claims slot =>
    exact hs.update (fun _ hr => hr) fun _ _ _ hvalid => { hvalid with }
  | zero id => exact hs.update (fun _ hr => hr) fun _ _ _ hvalid => { hvalid with }

theorem sound_contractsStep {t : List ContractRow} (h : ContractsStep env db t)
    (hs : Table.Sound ContractRow.id ContractRow.Valid db.contracts) :
    Table.Sound ContractRow.id ContractRow.Valid t := by
  cases h with
  | put id record n hash timestamp =>
    have hstatus := mapContractStatus_known record.status
    exact hs.upsert (fun _ => rfl) (fun _ => hstatus) fun _ _ _ _ => hstatus
  | zero id => exact hs.update (fun _ hr => hr) fun _ _ _ hvalid => hvalid

end Tables

/-! ## Runs -/

section Runs

variable {env : Env} {db db' : Db}

/-- A table changes by its own transition, the others stay with more to refer to. -/
theorem TableStep.intact (hstep : TableStep env db db') (h : Intact db) : Intact db' := by
  have hrefs := hstep.refers
  have hall : IntactIn db' db := h.mono hrefs
  cases hstep with
  | same => exact h
  | cursor height => exact { hall with }
  | slots hs => exact { hall with slots := heights_slotsStep hs h.slots }
  | transactions hs =>
    exact { hall with
      transactions := (sound_transactionsStep hs h.transactions).imp fun _ hr => hr.mono hrefs
      positions := positions_transactionsStep hs h.transactions.unique h.positions }
  | attestorSets hs =>
    exact { hall with
      attestorSets := (sound_attestorSetsStep hs h.attestorSets).imp fun _ hr => hr.mono hrefs }
  | schemas hs =>
    exact { hall with
      schemas := (sound_schemasStep hs h.schemas).imp fun _ hr => hr.mono hrefs
      schemaNames := names_schemasStep hs h.schemaNames }
  | attestations hs =>
    exact { hall with
      attestations := (sound_attestationsStep hs h.attestations).imp fun _ hr => hr.mono hrefs
      submissions := submissions_attestationsStep hs h.submissions }
  | summaries hs => exact { hall with summaries := sound_summariesStep hs h.summaries }
  | bounties hs =>
    exact { hall with
      bounties := (sound_bountiesStep hs h.bounties).imp fun _ hr => hr.mono hrefs }
  | contracts hs => exact { hall with contracts := sound_contractsStep hs h.contracts }

theorem Written.intact (hw : Written env db db') (h : Intact db) : Intact db' :=
  hw.keeps (fun _ _ hstep => hstep.table.intact) h

theorem Written.refers (hw : Written env db db') : Refers db db' :=
  hw.related (P := fun _ => True) Refers.refl (fun _ _ _ => Refers.trans) (fun _ _ _ _ => trivial)
    (fun _ _ hstep _ => hstep.table.refers) trivial

/-- **No reference dangles.** In every state of every run, with whatever fetches and statements
failing and wherever the process dies, the tables meet all constraints of the schema. -/
theorem intact_of_run {es : List Event} {s : IndexerState}
    (hrun : exec (step env) .init es = some s) : Intact s.db :=
  (written_run hrun).intact intact_empty

/-- The schema of a slot walked twice refers to its set, its slot and its transaction. -/
theorem intact_of_run_rewalked :
    ∃ s, exec (step registryEnv) .init rewalkRun = some s ∧
      s.db.schemas.map SchemaRow.id = ["lsc1"] ∧ Intact s.db := by
  have hids : (exec (step registryEnv) .init rewalkRun).map
      (fun s => s.db.schemas.map SchemaRow.id) = some ["lsc1"] := by decide
  obtain ⟨s, hs, hid⟩ := Option.map_eq_some_iff.1 hids
  exact ⟨s, hs, hid, intact_of_run hs⟩

end Runs

end LigateApi.Indexer
