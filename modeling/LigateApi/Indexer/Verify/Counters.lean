import LigateApi.Indexer.Verify.Steps

/-!
# Denormalised counters

`attestation_count`, `schema_count` and `schemas_owned_count` agree with the rows they count
(`CountersAgree`) as long as each counter update goes with a new row: the row inserts are upserts,
the counter updates are blind increments after them. A transaction that brings a row that is there
already counts it again, and one that dies between its row and the counters leaves it uncounted;
along runs without such steps (`CountsOnce`) the counters are right.
-/

namespace LigateApi.Indexer

open Lib Lib.Run

/-! ## The invariant -/

def attestationsOf (db : Db) (id : String) : Nat :=
  db.attestations.countP fun r => r.schemaId = id

def schemasOfSet (db : Db) (id : String) : Nat :=
  db.schemas.countP fun r => r.attestorSetId = id

def schemasOwnedBy (db : Db) (owner : String) : Nat :=
  db.schemas.countP fun r => r.owner = owner

/-- Each counter is the number of rows it stands for; an address without a summary owns nothing. -/
structure CountersAgree (db : Db) : Prop where
  attestations : Table.Counts SchemaRow.id (fun r => r.attestationCount.toInt) (attestationsOf db)
    db.schemas
  schemas : Table.Counts AttestorSetRow.id (fun r => r.schemaCount.toInt) (schemasOfSet db)
    db.attestorSets
  owned : Table.Counts AddressSummaryRow.address (fun r => r.schemasOwnedCount.toInt)
    (schemasOwnedBy db) db.addressSummaries
  unseen : ∀ a, (∀ r ∈ db.addressSummaries, r.address ≠ a) → schemasOwnedBy db a = 0

/-- With the foreign keys, which make a fresh row start from zero. -/
structure CountersInv (db : Db) : Prop extends CountersAgree db where
  schemaSet : ∀ r ∈ db.schemas, db.hasAttestorSet r.attestorSetId
  attestationSchema : ∀ r ∈ db.attestations, db.hasSchema r.schemaId

theorem countersInv_empty : CountersInv Db.empty where
  attestations := by
    intro r hr
    cases hr
  schemas := by
    intro r hr
    cases hr
  owned := by
    intro r hr
    cases hr
  unseen _ _ := rfl
  schemaSet := by
    intro r hr
    cases hr
  attestationSchema := by
    intro r hr
    cases hr

/-- The invariant reads four tables. -/
theorem CountersInv.congr {db db' : Db} (h : CountersInv db) (hs : db'.schemas = db.schemas)
    (ha : db'.attestations = db.attestations) (hset : db'.attestorSets = db.attestorSets)
    (hsum : db'.addressSummaries = db.addressSummaries) : CountersInv db' := by
  obtain ⟨⟨h1, h2, h3, h4⟩, h5, h6⟩ := h
  unfold attestationsOf at h1
  unfold schemasOfSet at h2
  unfold schemasOwnedBy at h3 h4
  rw [← hs, ← ha] at h1
  rw [← hs, ← hset] at h2
  rw [← hs, ← hsum] at h3 h4
  unfold Db.hasAttestorSet at h5
  rw [← hs, ← hset] at h5
  unfold Db.hasSchema at h6
  rw [← hs, ← ha] at h6
  exact ⟨⟨h1, h2, h3, h4⟩, h5, h6⟩

/-! ## Statements that count nothing -/

section Statements

variable {db db' : Db} {txHash : String} {slotHeight : UInt64} {timestamp : Int}

theorem countersInv_insertAttestorSet {d : IndexerRegisterAttestorSet} (h : CountersInv db)
    (hi : insertAttestorSet d txHash slotHeight timestamp db = .ok db') : CountersInv db' := by
  obtain ⟨row, hid, hzero, rfl⟩ := insertAttestorSet_ok hi
  refine ⟨⟨h.attestations, ?_, h.owned, h.unseen⟩, fun r hr => ?_, h.attestationSchema⟩
  · -- no schema refers to a set without a row
    refine Table.Counts.upsert h.schemas (fun _ => rfl) (fun _ => rfl) fun hnone => ?_
    have hcount : schemasOfSet db row.id = 0 := by
      apply List.countP_eq_zero.2
      intro r hr
      obtain ⟨x, hx, hxid⟩ := h.schemaSet r hr
      simpa [hxid] using Table.lookup_eq_none.1 hnone x hx
    rw [hzero]
    exact (congrArg Int.ofNat hcount).symm
  · exact Table.exists_key_upsert (fun _ => rfl) (h.schemaSet r hr)

/-- A summary keeps the number of schemas of its address, or starts with none. -/
theorem countersInv_upsertAddressActivity {address : String} {role : AddressRole}
    (h : CountersInv db)
    (hi : upsertAddressActivity address role slotHeight txHash timestamp db = .ok db') :
    CountersInv db' := by
  rcases upsertAddressActivity_ok hi with ⟨hnone, row, haddr, hzero, rfl⟩ |
    ⟨old, row, hold, haddr, hcount, rfl⟩
  · refine ⟨⟨h.attestations, h.schemas, ?_, fun a ha => ?_⟩, h.schemaSet, h.attestationSchema⟩
    · apply Table.Counts.append h.owned
      have hunseen : schemasOwnedBy db row.address = 0 :=
        h.unseen _ (haddr ▸ Table.lookup_eq_none.1 hnone)
      rw [hzero]
      exact (congrArg Int.ofNat hunseen).symm
    · exact h.unseen a fun r hr => ha r (List.mem_append_left _ hr)
  · have hkey : row.address = address := haddr.trans (Table.lookup_key hold)
    refine ⟨⟨h.attestations, h.schemas, ?_, fun a ha => ?_⟩, h.schemaSet, h.attestationSchema⟩
    · exact Table.Counts.replace h.owned hold hkey (congrArg Int32.toInt hcount)
    · apply h.unseen a
      intro r hr hra
      obtain ⟨x, hx, hxa⟩ := (Table.exists_key_update _ fun _ _ => hkey).2 ⟨r, hr, hra⟩
      exact ha x hx hxa

/-- A refreshed signature count is counted nowhere. -/
theorem countersInv_refreshAttestation {id : String} {n : Int32} (h : CountersInv db) :
    CountersInv { db with
      attestations := Table.update AttestationRow.id id
        (fun old => { old with signatureCount := n }) db.attestations } := by
  have hcount : ∀ s, attestationsOf db s = (Table.update AttestationRow.id id
      (fun old => { old with signatureCount := n }) db.attestations).countP
        fun r => r.schemaId = s := fun s =>
    (Table.countP_update (f := fun old : AttestationRow => { old with signatureCount := n })
      fun _ => rfl).symm
  refine ⟨⟨?_, h.schemas, h.owned, h.unseen⟩, h.schemaSet, fun x hx => ?_⟩
  · exact fun x hx => (h.attestations x hx).trans (congrArg Int.ofNat (hcount _))
  · obtain ⟨y, hy, ⟨-, rfl⟩ | ⟨-, rfl⟩⟩ := Table.mem_update.1 hx
    · exact h.attestationSchema y hy
    · exact h.attestationSchema x hy

/-! ## A new row with its counters -/

section NewRow

variable {α : Type} {t : List α} {row : α} {p : α → Bool}

theorem countP_new (h : p row = true) : (t ++ [row]).countP p = t.countP p + 1 := by
  rw [List.countP_append, List.countP_singleton, if_pos h]

theorem countP_other (h : ¬ p row = true) : (t ++ [row]).countP p = t.countP p := by
  rw [List.countP_append, List.countP_singleton, if_neg h]
  rfl

end NewRow

/-- The last counter of a registration: the owner is one schema behind. -/
theorem countersInv_bumpAddressSchemasOwned {owner : String} {n : String → Nat}
    (hi : bumpAddressSchemasOwned owner slotHeight txHash timestamp db = .ok db')
    (hatt : Table.Counts SchemaRow.id (fun r => r.attestationCount.toInt) (attestationsOf db)
      db.schemas)
    (hsets : Table.Counts AttestorSetRow.id (fun r => r.schemaCount.toInt) (schemasOfSet db)
      db.attestorSets)
    (hset : ∀ r ∈ db.schemas, db.hasAttestorSet r.attestorSetId)
    (hschema : ∀ r ∈ db.attestations, db.hasSchema r.schemaId)
    (howned : Table.Counts AddressSummaryRow.address (fun r => r.schemasOwnedCount.toInt) n
      db.addressSummaries)
    (hunseen : ∀ a, (∀ r ∈ db.addressSummaries, r.address ≠ a) → n a = 0)
    (hmine : schemasOwnedBy db owner = n owner + 1)
    (hothers : ∀ a, a ≠ owner → schemasOwnedBy db a = n a) : CountersInv db' := by
  rcases bumpAddressSchemasOwned_ok hi with ⟨hnone, row, haddr, hone, rfl⟩ |
    ⟨old, row, hold, haddr, hcount, rfl⟩
  · refine ⟨⟨hatt, hsets, fun r hr => ?_, fun a ha => ?_⟩, hset, hschema⟩
    · rcases List.mem_append.1 hr with hr | hr
      · have hne : r.address ≠ owner := Table.lookup_eq_none.1 hnone r hr
        rw [howned r hr]
        exact (congrArg Int.ofNat (hothers _ hne)).symm
      · have hcount : schemasOwnedBy db row.address = 1 := by
          rw [haddr, hmine, hunseen owner (Table.lookup_eq_none.1 hnone)]
        rw [List.mem_singleton.1 hr]
        exact (congrArg Int32.toInt hone).trans (congrArg Int.ofNat hcount).symm
    · have hne : a ≠ owner := fun he => ha row (by simp) (haddr.trans he.symm)
      exact (hothers a hne).trans (hunseen a fun r hr => ha r (List.mem_append_left _ hr))
  · have hkey : row.address = owner := haddr.trans (Table.lookup_key hold)
    refine ⟨⟨hatt, hsets, ?_, fun a ha => ?_⟩, hset, hschema⟩
    · exact howned.bump hold (fun _ _ => hkey) (fun _ => hcount) hmine hothers
    · have hold' : ∀ r ∈ db.addressSummaries, r.address ≠ a := by
        intro r hr hra
        obtain ⟨x, hx, hxa⟩ := (Table.exists_key_update _ fun _ _ => hkey).2 ⟨r, hr, hra⟩
        exact ha x hx hxa
      have hne : a ≠ owner := fun he => hold' old (Table.lookup_mem hold)
        ((Table.lookup_key hold).trans he.symm)
      exact (hothers a hne).trans (hunseen a hold')

theorem countersInv_registerSchema {d : IndexerRegisterSchema} {db₁ db₂ : Db} (h : CountersInv db)
    (hnew : ¬ db.hasSchema d.schemaId) (hset : db.hasAttestorSet d.attestorSetId)
    (h₁ : bumpAttestorSetSchemaCount d.attestorSetId
      { db with schemas := db.schemas ++ [schemaRow d txHash slotHeight timestamp] } = .ok db₁)
    (h₂ : bumpAddressSchemasOwned d.owner slotHeight txHash timestamp db₁ = .ok db₂) :
    CountersInv db₂ := by
  rcases bumpAttestorSetSchemaCount_ok h₁ with ⟨hnone, -⟩ | ⟨r, n, hr, hn, rfl⟩
  · -- the set has a row
    obtain ⟨x, hx, hxid⟩ := hset
    exact absurd hxid (Table.lookup_eq_none.1 hnone x hx)
  · refine countersInv_bumpAddressSchemasOwned h₂ ?_ ?_ ?_ ?_ h.owned h.unseen ?_ ?_
    · apply h.attestations.append
      have hzero : attestationsOf db d.schemaId = 0 := by
        refine List.countP_eq_zero.2 fun x hx hxid => hnew ?_
        have := h.attestationSchema x hx
        rwa [of_decide_eq_true hxid] at this
      exact (congrArg Int.ofNat hzero).symm
    · refine h.schemas.bump hr (fun _ hk => hk) (fun _ => hn) (countP_new ?_) fun a ha => ?_
      · exact decide_eq_true rfl
      · exact countP_other fun hd => ha (of_decide_eq_true hd).symm
    · intro x hx
      refine (Table.exists_key_update AttestorSetRow.id
        (f := fun r => { r with schemaCount := n }) fun _ hk => hk).2 ?_
      rcases List.mem_append.1 hx with hx | hx
      · exact h.schemaSet x hx
      · rw [List.mem_singleton.1 hx]
        exact hset
    · intro x hx
      obtain ⟨y, hy, hyid⟩ := h.attestationSchema x hx
      exact ⟨y, List.mem_append_left _ hy, hyid⟩
    · exact countP_new (decide_eq_true rfl)
    · exact fun a ha => countP_other fun hd => ha (of_decide_eq_true hd).symm

theorem countersInv_submitAttestation {d : IndexerSubmitAttestation} {db₁ : Db}
    (h : CountersInv db) (hschema : db.hasSchema d.schemaId)
    (h₁ : bumpSchemaAttestationCount d.schemaId
      { db with
        attestations := db.attestations ++ [attestationRow d txHash slotHeight timestamp] } =
      .ok db₁) : CountersInv db₁ := by
  rcases bumpSchemaAttestationCount_ok h₁ with ⟨hnone, -⟩ | ⟨r, n, hr, hn, rfl⟩
  · obtain ⟨x, hx, hxid⟩ := hschema
    exact absurd hxid (Table.lookup_eq_none.1 hnone x hx)
  · -- the update of the schemas leaves owners, sets and ids alone
    have hcount : ∀ p : SchemaRow → Bool,
        (∀ r : SchemaRow, p { r with attestationCount := n } = p r) →
        (Table.update SchemaRow.id d.schemaId (fun r => { r with attestationCount := n })
          db.schemas).countP p = db.schemas.countP p := fun p hp => Table.countP_update hp
    have hsets : ∀ a, schemasOfSet db a = (Table.update SchemaRow.id d.schemaId
        (fun r => { r with attestationCount := n }) db.schemas).countP
          fun r => r.attestorSetId = a := fun a => (hcount _ fun _ => rfl).symm
    have howned : ∀ a, schemasOwnedBy db a = (Table.update SchemaRow.id d.schemaId
        (fun r => { r with attestationCount := n }) db.schemas).countP
          fun r => r.owner = a := fun a => (hcount _ fun _ => rfl).symm
    refine ⟨⟨?_, ?_, ?_, ?_⟩, ?_, ?_⟩
    · refine h.attestations.bump hr (fun _ hk => hk) (fun _ => hn) (countP_new ?_) fun a ha => ?_
      · exact decide_eq_true rfl
      · exact countP_other fun hd => ha (of_decide_eq_true hd).symm
    · exact fun x hx => (h.schemas x hx).trans (congrArg Int.ofNat (hsets _))
    · exact fun x hx => (h.owned x hx).trans (congrArg Int.ofNat (howned _))
    · exact fun a ha => (howned a).symm.trans (h.unseen a ha)
    · intro x hx
      obtain ⟨y, hy, ⟨-, rfl⟩ | ⟨-, rfl⟩⟩ := Table.mem_update.1 hx
      · exact h.schemaSet y hy
      · exact h.schemaSet x hy
    · intro x hx
      refine (Table.exists_key_update SchemaRow.id
        (f := fun r => { r with attestationCount := n }) fun _ hk => hk).2 ?_
      rcases List.mem_append.1 hx with hx | hx
      · exact h.attestationSchema x hx
      · rw [List.mem_singleton.1 hx]
        exact hschema

end Statements

/-! ## Sequences of statements -/

/-- The sequence keeps the invariant, whatever fails and wherever the process dies. -/
def Preserves (g : TxRun → TxRun) : Prop := ∀ r, CountersInv r.db → CountersInv (g r).db

section Sequences

variable {faults : TxStmt → Fault} {stmt : TxStmt} {f : Db → Except DbError Db}
  {g onOk onErr : TxRun → TxRun} {w : TxWork}

theorem Preserves.refl : Preserves id := fun _ h => h

theorem Preserves.attempt (hf : ∀ db db', CountersInv db → f db = .ok db' → CountersInv db')
    (hok : Preserves onOk) (herr : Preserves onErr) :
    Preserves (TxRun.attempt faults stmt f onOk onErr) :=
  Maintains.attempt (fun db db' h hP => hf db db' hP h) hok herr

theorem preserves_countActivity {role : AddressRole} {address : Option String} (hg : Preserves g) :
    Preserves (countActivity faults stmt role w address g) := by
  unfold countActivity
  cases address with
  | none => exact hg
  | some a =>
    exact Preserves.attempt (fun _ _ => countersInv_upsertAddressActivity) hg Preserves.refl

theorem preserves_updateAddressSummaries : Preserves (updateAddressSummaries faults w) :=
  preserves_countActivity (preserves_countActivity Preserves.refl)

/-- The kinds that bring neither a schema nor an attestation. -/
theorem preserves_insertResourceRows {env : Env} {client : NodeClient}
    (hs : ∀ d, w.classified.kind ≠ .registerSchema d)
    (ha : ∀ d, w.classified.kind ≠ .submitAttestation d) :
    Preserves (insertResourceRows env faults client w) := by
  apply maintains_insertResourceRows
  exact {
    attestorSet := fun _ _ _ _ hok h => countersInv_insertAttestorSet h hok
    schema := fun d _ _ hk => absurd hk (hs d)
    schemaCount := fun d _ _ hk => absurd hk (hs d)
    schemasOwned := fun d _ _ hk => absurd hk (hs d)
    attestation := fun d _ _ hk => absurd hk (ha d)
    attestationCount := fun d _ _ hk => absurd hk (ha d)
    bounties := fun _ _ h => h.congr rfl rfl rfl rfl
    contracts := fun _ _ h => h.congr rfl rfl rfl rfl }

/-- How a last statement ends in a process that is alive. -/
theorem attempt_cases (faults : TxStmt → Fault) (stmt : TxStmt) (f : Db → Except DbError Db)
    {r : TxRun} (hr : r.crashed = false) :
    (faults stmt = .crash ∧ TxRun.attempt faults stmt f id id r = { r with crashed := true }) ∨
    (stmt ∈ (TxRun.attempt faults stmt f id id r).failed) ∨
    ∃ db, faults stmt = .none ∧ f r.db = .ok db ∧
      TxRun.attempt faults stmt f id id r = { r with db } := by
  unfold TxRun.attempt
  simp only [hr, Bool.false_eq_true, if_false]
  cases faults stmt with
  | crash => exact .inl ⟨rfl, rfl⟩
  | refuse => exact .inr (.inl (List.mem_append_right _ (List.mem_singleton.2 rfl)))
  | none =>
    cases hf : f r.db with
    | ok db => exact .inr (.inr ⟨db, rfl, rfl, rfl⟩)
    | error e => exact .inr (.inl (List.mem_append_right _ (List.mem_singleton.2 rfl)))

theorem attempt_crashed {r : TxRun} (hr : r.crashed = true) :
    TxRun.attempt faults stmt f onOk onErr r = r := if_pos hr

end Sequences

/-! ## Transactions that count once -/

/-- The statement that brings the row of a resource is reached and accepted. -/
def RowAccepted (faults : TxStmt → Fault) (w : TxWork) (stmt : TxStmt)
    (insert : Db → Except DbError Db) (db : Db) : Prop :=
  faults .transaction = .none ∧ faults .senderActivity ≠ .crash ∧ faults stmt = .none ∧
    (insertTransaction w.classified w.slotNumber w.position w.decoded db >>= insert).isOk = true

instance (faults : TxStmt → Fault) (w : TxWork) (stmt : TxStmt) (insert : Db → Except DbError Db)
    (db : Db) : Decidable (RowAccepted faults w stmt insert db) :=
  inferInstanceAs (Decidable (_ ∧ _ ∧ _ ∧ _))

/-- A new row is counted, a row that is there already is not. -/
def CountsOnce (faults : TxStmt → Fault) (w : TxWork) (db : Db) : IndexerTx → Prop
  | .registerSchema d =>
    RowAccepted faults w .schema (insertSchema d w.classified.hash w.slotNumber w.timestamp) db →
      if db.hasSchema d.schemaId then faults .setSchemaCount = .crash
      else faults .setSchemaCount ≠ .crash ∧ faults .schemasOwned ≠ .crash
  | .submitAttestation d =>
    RowAccepted faults w .attestation
        (insertAttestation d w.classified.hash w.slotNumber w.timestamp) db →
      if db.hasAttestation d.id then faults .attestationCount = .crash
      else faults .attestationCount ≠ .crash
  | _ => True

instance (faults : TxStmt → Fault) (w : TxWork) (db : Db) (kind : IndexerTx) :
    Decidable (CountsOnce faults w db kind) :=
  match kind with
  | .registerSchema d => inferInstanceAs (Decidable (RowAccepted faults w .schema
      (insertSchema d w.classified.hash w.slotNumber w.timestamp) db →
      if db.hasSchema d.schemaId then faults .setSchemaCount = .crash
      else faults .setSchemaCount ≠ .crash ∧ faults .schemasOwned ≠ .crash))
  | .submitAttestation d => inferInstanceAs (Decidable (RowAccepted faults w .attestation
      (insertAttestation d w.classified.hash w.slotNumber w.timestamp) db →
      if db.hasAttestation d.id then faults .attestationCount = .crash
      else faults .attestationCount ≠ .crash))
  | .transfer _ | .registerAttestorSet _ | .bountyEvent _ _ | .contractEvent _ _ | .unknown _ =>
    .isTrue trivial

def counterStmts : List TxStmt := [.setSchemaCount, .schemasOwned, .attestationCount]

section Arms

variable {env : Env} {client : NodeClient} {faults : TxStmt → Fault} {w : TxWork} {r : TxRun}

/-- The counter updates after a schema's row. -/
def schemaBumps (faults : TxStmt → Fault) (w : TxWork) (d : IndexerRegisterSchema) (r : TxRun) :
    TxRun :=
  TxRun.attempt faults .schemasOwned
    (bumpAddressSchemasOwned d.owner w.slotNumber w.classified.hash w.timestamp) id id
    (TxRun.attempt faults .setSchemaCount (bumpAttestorSetSchemaCount d.attestorSetId) id id r)

/-- Dying before the first counter leaves the row as it is. -/
theorem schemaBumps_crash {d : IndexerRegisterSchema} (hlive : r.crashed = false)
    (hc : faults .setSchemaCount = .crash) : (schemaBumps faults w d r).db = r.db := by
  have hfirst : TxRun.attempt faults .setSchemaCount (bumpAttestorSetSchemaCount d.attestorSetId)
      id id r = { r with crashed := true } := by
    unfold TxRun.attempt
    simp only [hlive, hc, Bool.false_eq_true, if_false]
  rw [schemaBumps, hfirst, attempt_crashed rfl]

/-- Neither dying nor failing, both counters are updated. -/
theorem schemaBumps_ok {d : IndexerRegisterSchema}
    (hfail : ∀ stmt ∈ counterStmts, stmt ∉ (schemaBumps faults w d r).failed)
    (hlive : r.crashed = false) (hset : faults .setSchemaCount ≠ .crash)
    (howned : faults .schemasOwned ≠ .crash) :
    ∃ db, bumpAttestorSetSchemaCount d.attestorSetId r.db = .ok db ∧
      bumpAddressSchemasOwned d.owner w.slotNumber w.classified.hash w.timestamp db =
        .ok (schemaBumps faults w d r).db := by
  unfold schemaBumps at hfail ⊢
  rcases attempt_cases faults .setSchemaCount (bumpAttestorSetSchemaCount d.attestorSetId) hlive
    with ⟨hcrash, -⟩ | hf | ⟨db, -, hdb, heq⟩
  · exact absurd hcrash hset
  · exact absurd (Logs.attempt Logs.refl Logs.refl _ hf) (hfail _ (by decide))
  · rw [heq] at hfail ⊢
    rcases attempt_cases faults .schemasOwned
      (bumpAddressSchemasOwned d.owner w.slotNumber w.classified.hash w.timestamp)
      (r := { r with db }) hlive with ⟨hcrash, -⟩ | hf | ⟨db', -, hdb', heq'⟩
    · exact absurd hcrash howned
    · exact absurd hf (hfail _ (by decide))
    · rw [heq']
      exact ⟨db, hdb, hdb'⟩

theorem countersInv_schemaArm {d : IndexerRegisterSchema}
    (hk : w.classified.kind = .registerSchema d) (hr : CountersInv r.db)
    (hc : ∀ db, r.crashed = false → faults .schema = .none →
      insertSchema d w.classified.hash w.slotNumber w.timestamp r.db = .ok db →
      if r.db.hasSchema d.schemaId then faults .setSchemaCount = .crash
      else faults .setSchemaCount ≠ .crash ∧ faults .schemasOwned ≠ .crash)
    (hfail : ∀ stmt ∈ counterStmts, stmt ∉ (insertResourceRows env faults client w r).failed) :
    CountersInv (insertResourceRows env faults client w r).db := by
  have harm : insertResourceRows env faults client w r = TxRun.attempt faults .schema
      (insertSchema d w.classified.hash w.slotNumber w.timestamp) (schemaBumps faults w d) id r := by
    simp only [insertResourceRows, hk]
    rfl
  rw [harm] at hfail ⊢
  rcases attempt_same_or_ok faults .schema
    (insertSchema d w.classified.hash w.slotNumber w.timestamp) (schemaBumps faults w d) r
    with hsame | ⟨db, hlive, hnone, hdb, heq⟩
  · rw [hsame]
    exact hr
  · rw [heq] at hfail ⊢
    have hcase := hc db hlive hnone hdb
    rcases insertSchema_ok hdb with ⟨hpresent, rfl⟩ | ⟨hnew, hset, rfl⟩
    · rw [if_pos hpresent] at hcase
      rw [schemaBumps_crash hlive hcase]
      exact hr
    · rw [if_neg hnew] at hcase
      obtain ⟨db₁, h₁, h₂⟩ := schemaBumps_ok hfail hlive hcase.1 hcase.2
      exact countersInv_registerSchema hr hnew hset h₁ h₂

theorem countersInv_attestationArm {d : IndexerSubmitAttestation}
    (hk : w.classified.kind = .submitAttestation d) (hr : CountersInv r.db)
    (hc : ∀ db, r.crashed = false → faults .attestation = .none →
      insertAttestation d w.classified.hash w.slotNumber w.timestamp r.db = .ok db →
      if r.db.hasAttestation d.id then faults .attestationCount = .crash
      else faults .attestationCount ≠ .crash)
    (hfail : ∀ stmt ∈ counterStmts, stmt ∉ (insertResourceRows env faults client w r).failed) :
    CountersInv (insertResourceRows env faults client w r).db := by
  have harm : insertResourceRows env faults client w r = TxRun.attempt faults .attestation
      (insertAttestation d w.classified.hash w.slotNumber w.timestamp)
      (TxRun.attempt faults .attestationCount (bumpSchemaAttestationCount d.schemaId) id id) id r := by
    simp only [insertResourceRows, hk]
  rw [harm] at hfail ⊢
  rcases attempt_same_or_ok faults .attestation
    (insertAttestation d w.classified.hash w.slotNumber w.timestamp)
    (TxRun.attempt faults .attestationCount (bumpSchemaAttestationCount d.schemaId) id id) r with
    hsame | ⟨db, hlive, hnone, hdb, heq⟩
  · rw [hsame]
    exact hr
  · rw [heq] at hfail ⊢
    have hcase := hc db hlive hnone hdb
    rcases attempt_cases faults .attestationCount (bumpSchemaAttestationCount d.schemaId)
      (r := { r with db }) hlive with ⟨hcrash, hend⟩ | hf | ⟨db', hgo, hdb', hend⟩
    · -- no counter update: the row was there
      rw [hend]
      rcases insertAttestation_ok hdb with ⟨-, n, rfl⟩ | ⟨hnew, -, -⟩
      · exact countersInv_refreshAttestation hr
      · rw [if_neg hnew] at hcase
        exact absurd hcrash hcase
    · exact absurd hf (hfail _ (by decide))
    · -- the counter is updated: the row is new
      rw [hend]
      rcases insertAttestation_ok hdb with ⟨hpresent, -, -⟩ | ⟨-, hschema, rfl⟩
      · rw [if_pos hpresent, hgo] at hcase
        cases hcase
      · exact countersInv_submitAttestation hr hschema hdb'

end Arms

section ProcessTx

variable {env : Env} {client : NodeClient} {faults : TxStmt → Fault} {w : TxWork} {db : Db}

/-- The summaries leave everything else alone. -/
theorem updateAddressSummaries_frame (r : TxRun) :
    { (updateAddressSummaries faults w r).db with addressSummaries := [] } =
      { r.db with addressSummaries := [] } :=
  keeps_updateAddressSummaries (π := fun db : Db => { db with addressSummaries := [] })
    (fun _ _ => rfl) r

theorem sender_of_live {a : String} {r : TxRun} (hs : summarySender w.classified.kind = some a)
    (hr : r.crashed = false) (h : (updateAddressSummaries faults w r).crashed = false) :
    faults .senderActivity ≠ .crash := by
  intro hc
  simp only [updateAddressSummaries, countActivity, hs, TxRun.attempt, hr, hc, Bool.false_eq_true,
    if_false, Bool.true_eq_false] at h

/-- No constraint of a schema reads the summaries. -/
theorem insertSchema_summaries {d : IndexerRegisterSchema} {txHash : String} {slotHeight : UInt64}
    {timestamp : Int} {db' : Db} (h : insertSchema d txHash slotHeight timestamp db = .ok db')
    (l : List AddressSummaryRow) :
    insertSchema d txHash slotHeight timestamp { db with addressSummaries := l } =
      .ok { db' with addressSummaries := l } := by
  simp only [insertSchema, require_bind_eq_ok, pure, Except.pure] at h ⊢
  refine ⟨h.1, h.2.1, ?_⟩
  replace h := h.2.2
  split at h
  · rename_i hs
    cases h
    exact if_pos hs
  · rename_i hs
    simp only [require_bind_eq_ok] at h
    obtain ⟨hname, hset, hslot, htx, hdb⟩ := h
    cases hdb
    apply (if_neg hs).trans
    simp only [require_bind_eq_ok]
    exact ⟨hname, hset, hslot, htx, trivial⟩

theorem insertAttestation_summaries {d : IndexerSubmitAttestation} {txHash : String}
    {slotHeight : UInt64} {timestamp : Int} {db' : Db}
    (h : insertAttestation d txHash slotHeight timestamp db = .ok db')
    (l : List AddressSummaryRow) :
    insertAttestation d txHash slotHeight timestamp { db with addressSummaries := l } =
      .ok { db' with addressSummaries := l } := by
  simp only [insertAttestation, require_bind_eq_ok, pure, Except.pure] at h ⊢
  refine ⟨h.1, ?_⟩
  replace h := h.2
  split at h
  · rename_i hs
    cases h
    exact if_pos hs
  · rename_i hs
    simp only [require_bind_eq_ok] at h
    obtain ⟨hpair, hschema, hslot, htx, hdb⟩ := h
    cases hdb
    apply (if_neg hs).trans
    simp only [require_bind_eq_ok]
    exact ⟨hpair, hschema, hslot, htx, trivial⟩

/-- A row the summaries do not matter for, inserted after them, would have been accepted before. -/
theorem rowAccepted {a : String} {stmt : TxStmt} {insert : Db → Except DbError Db} {db₁ db₂ : Db}
    (hframe : ∀ {db db' : Db}, insert db = .ok db' → ∀ l, insert { db with addressSummaries := l } =
      .ok { db' with addressSummaries := l })
    (hs : summarySender w.classified.kind = some a) (htx : faults .transaction = .none)
    (hdb₁ : insertTransaction w.classified w.slotNumber w.position w.decoded db = .ok db₁)
    (hlive : (updateAddressSummaries faults w { db := db₁ }).crashed = false)
    (hgo : faults stmt = .none)
    (hins : insert (updateAddressSummaries faults w { db := db₁ }).db = .ok db₂) :
    RowAccepted faults w stmt insert db := by
  refine ⟨htx, sender_of_live hs rfl hlive, hgo, ?_⟩
  have hempty := hframe hins []
  rw [updateAddressSummaries_frame] at hempty
  have hback := hframe hempty db₁.addressSummaries
  rw [hdb₁]
  change (insert db₁).isOk = true
  rw [show insert db₁ = _ from hback]
  rfl

theorem countersInv_processTx (h : CountersInv db) (hc : CountsOnce faults w db w.classified.kind)
    (hfail : ∀ stmt ∈ counterStmts, stmt ∉ (processTx env faults client w db).failed) :
    CountersInv (processTx env faults client w db).db := by
  unfold processTx at hfail ⊢
  rcases attempt_same_or_ok faults .transaction
    (insertTransaction w.classified w.slotNumber w.position w.decoded)
    (fun r => insertResourceRows env faults client w (updateAddressSummaries faults w r)) { db }
    with hsame | ⟨db₁, -, htx, hdb₁, heq⟩
  · rw [hsame]
    exact h
  · rw [heq] at hfail ⊢
    obtain ⟨hs, ha, hset, ha'⟩ : db₁.schemas = db.schemas ∧ db₁.attestations = db.attestations ∧
        db₁.attestorSets = db.attestorSets ∧ db₁.addressSummaries = db.addressSummaries := by
      rw [insertTransaction_frame hdb₁]
      exact ⟨rfl, rfl, rfl, rfl⟩
    have h₁ : CountersInv db₁ := h.congr hs ha hset ha'
    have hr : CountersInv (updateAddressSummaries faults w { db := db₁ }).db :=
      preserves_updateAddressSummaries _ h₁
    have hsum : { (updateAddressSummaries faults w { db := db₁ }).db with addressSummaries := [] } =
        { db₁ with addressSummaries := [] } := updateAddressSummaries_frame _
    have hschemas : (updateAddressSummaries faults w { db := db₁ }).db.schemas = db.schemas :=
      (congrArg Db.schemas hsum :).trans hs
    have hatts : (updateAddressSummaries faults w { db := db₁ }).db.attestations =
        db.attestations :=
      (congrArg Db.attestations hsum :).trans ha
    cases hk : w.classified.kind with
    | registerSchema d =>
      rw [hk] at hc
      refine countersInv_schemaArm hk hr (fun db₂ hlive hgo hins => ?_) hfail
      have hiff : (updateAddressSummaries faults w { db := db₁ }).db.hasSchema d.schemaId ↔
          db.hasSchema d.schemaId := by
        simp only [Db.hasSchema, hschemas]
      rw [if_congr hiff rfl rfl]
      exact hc (rowAccepted insertSchema_summaries (by rw [hk]; rfl) htx hdb₁ hlive hgo hins)
    | submitAttestation d =>
      rw [hk] at hc
      refine countersInv_attestationArm hk hr (fun db₂ hlive hgo hins => ?_) hfail
      have hiff : (updateAddressSummaries faults w { db := db₁ }).db.hasAttestation d.id ↔
          db.hasAttestation d.id := by
        simp only [Db.hasAttestation, hatts]
      rw [if_congr hiff rfl rfl]
      exact hc (rowAccepted insertAttestation_summaries (by rw [hk]; rfl) htx hdb₁ hlive hgo hins)
    | _ =>
      exact preserves_insertResourceRows (fun d hd => by rw [hk] at hd; cases hd)
        (fun d hd => by rw [hk] at hd; cases hd) _ hr

end ProcessTx

/-! ## Runs -/

/-- The transaction an ingesting process writes next. -/
def Walker.nextWork : Walker → Option TxWork
  | .ingesting _ _ (w :: _) => some w
  | _ => none

/-- A condition on the transactions a run writes. -/
def EachTx (P : NodeClient → (TxStmt → Fault) → TxWork → Prop) (s : IndexerState) : Event → Prop
  | .processTx client faults => ∀ w ∈ s.walker.nextWork, P client faults w
  | _ => True

instance (P : NodeClient → (TxStmt → Fault) → TxWork → Prop) [∀ c f w, Decidable (P c f w)]
    (s : IndexerState) (e : Event) : Decidable (EachTx P s e) :=
  match e with
  | .processTx client faults =>
    inferInstanceAs (Decidable (∀ w ∈ s.walker.nextWork, P client faults w))
  | .start _ _ | .crash | .head _ | .slotAt _ | .upsertSlot _ _ _ _ | .walkSlot _ | .cursor _
  | .scan _ | .refetch _ | .flip _ _ => .isTrue trivial

/-- No counter update fails. -/
def CountersWritten (env : Env) (s : IndexerState) : Event → Prop :=
  EachTx (fun client faults w =>
    ∀ stmt ∈ counterStmts, stmt ∉ (processTx env faults client w s.db).failed) s

/-- No row is counted twice and none is left uncounted. -/
def NoRecount (s : IndexerState) : Event → Prop :=
  EachTx (fun _ faults w => CountsOnce faults w s.db w.classified.kind) s

instance (env : Env) (s : IndexerState) (e : Event) : Decidable (CountersWritten env s e) :=
  inferInstanceAs (Decidable (EachTx _ s e))

instance (s : IndexerState) (e : Event) : Decidable (NoRecount s e) :=
  inferInstanceAs (Decidable (EachTx _ s e))

section Runs

variable {env : Env} {s t : IndexerState} {e : Event} {es : List Event}

theorem DbStep.countersInv {db : Db} (h : DbStep env s e db) (hw : CountersWritten env s e)
    (hn : NoRecount s e) (hs : CountersInv s.db) : CountersInv db := by
  cases h with
  | same => exact hs
  | upsertSlot => exact hs.congr rfl rfl rfl rfl
  | @processTx _ _ w _ _ _ hwalk =>
    have hmem : w ∈ s.walker.nextWork := by
      rw [hwalk]
      rfl
    exact countersInv_processTx hs (hn _ hmem) (hw _ hmem)
  | cursor => exact hs.congr rfl rfl rfl rfl
  | flip => exact hs.congr rfl rfl rfl rfl

/-- **Counters agree with their tables.** -/
theorem countersAgree_of_noRecount (hw : Along (step env) (CountersWritten env) .init es)
    (hn : Along (step env) NoRecount .init es) (h : exec (step env) .init es = some t) :
    CountersAgree t.db := by
  have hinv : CountersInv t.db :=
    exec_invariant_along (I := fun m => CountersInv m.db)
      (fun m e m' hI hP hm => (step_db hm).countersInv hP.1 hP.2 hI) countersInv_empty
      (hw.and hn) h
  exact hinv.toCountersAgree

end Runs

/-! ## A slot that registers a set and a schema -/

section Registry

def Json.number : Json → Option Nat
  | .num n => some n
  | _ => none

/-- The two payloads of the slot, read as their derived deserialisers do. -/
def registryEnv : Env :=
  { plainEnv with
    serde :=
      { plainEnv.serde with
        attestorSetRegistered v := do
          let d ← v.field "AttestorSetRegistered"
          let .arr members ← d.field "members" | none
          return {
            attestorSetId := ← (← d.field "attestor_set_id").text
            members := ← members.mapM Json.text
            threshold := UInt8.ofNat (← (← d.field "threshold").number)
            registeredBy := ← (← d.field "registered_by").text }
        schemaRegistered v := do
          let d ← v.field "SchemaRegistered"
          return {
            schemaId := ← (← d.field "schema_id").text
            name := ← (← d.field "name").text
            version := UInt32.ofNat (← (← d.field "version").number)
            owner := ← (← d.field "owner").text
            attestorSetId := ← (← d.field "attestor_set_id").text
            feeRoutingBps := UInt16.ofNat (← (← d.field "fee_routing_bps").number)
            feeRoutingAddr := (d.field "fee_routing_addr").bind Json.text
            payloadShapeHash := ← d.field "payload_shape_hash" } } }

/-- Transaction 0 registers `las1`, transaction 1 the schema `lsc1` bound to it. -/
def registryNode : NodeClient where
  eventsForSlot _ := .ok
    [{ key := "AttestationModule/AttestorSetRegistered"
       value := .obj [("AttestorSetRegistered", .obj
         [("attestor_set_id", .str "las1"), ("members", .arr [.str "lpk1"]), ("threshold", .num 1),
           ("registered_by", .str "lig1")])]
       txHash := "0xaa" },
     { key := "AttestationModule/SchemaRegistered"
       value := .obj [("SchemaRegistered", .obj
         [("schema_id", .str "lsc1"), ("name", .str "proof"), ("version", .num 1),
           ("owner", .str "lig1"), ("attestor_set_id", .str "las1"), ("fee_routing_bps", .num 0),
           ("fee_routing_addr", .null), ("payload_shape_hash", .str "0x00")])]
       txHash := "0xbb" }]
  batchAt _ := .ok (some { txRange := ⟨0, 2⟩, receipt := none })
  txAtNumber n := .ok (some
    { hash := if n = 0 then "0xaa" else "0xbb", number := n, batchNumber := 0, body := "",
      result := "successful" })
  bountyAt _ := .ok none
  contractAt _ := .ok none

def registrySlot : SlotResponse := { emptySlot "pending" with batchRange := some ⟨0, 1⟩ }

/-- The walk over slot 1, up to its cursor. -/
def registryWalk (cursor : WriteResult) : List Event :=
  [.start none true, .head (some 1), .slotAt (.ok (some registrySlot)),
    .upsertSlot registryNode 10 true .ok, .walkSlot registryNode,
    .processTx registryNode noFaults, .processTx registryNode noFaults, .cursor cursor]

theorem registryWalk_agrees :
    ∃ t, exec (step registryEnv) .init (registryWalk .ok) = some t ∧
      t.db.schemas.map SchemaRow.id = ["lsc1"] ∧ CountersAgree t.db := by
  have hids : (exec (step registryEnv) .init (registryWalk .ok)).map
      (fun s => s.db.schemas.map SchemaRow.id) = some ["lsc1"] := by decide
  obtain ⟨t, ht, hid⟩ := Option.map_eq_some_iff.1 hids
  exact ⟨t, ht, hid, countersAgree_of_noRecount (by decide) (by decide) ht⟩

/-- The cursor of slot 1 is not written, so the restarted process walks it again. -/
def rewalkRun : List Event := registryWalk .refused ++ .crash :: registryWalk .ok

theorem rewalk_counts_schema_twice :
    Along (step registryEnv) (CountersWritten registryEnv) .init rewalkRun ∧
      ∃ t, exec (step registryEnv) .init rewalkRun = some t ∧
        t.db.attestorSets.map (fun r => (r.id, r.schemaCount)) = [("las1", 2)] ∧
        t.db.schemas.map SchemaRow.attestorSetId = ["las1"] ∧ ¬ CountersAgree t.db := by
  have hrows : (exec (step registryEnv) .init rewalkRun).map (fun s =>
      (s.db.attestorSets.map (fun r => (r.id, r.schemaCount)),
        s.db.schemas.map SchemaRow.attestorSetId)) = some ([("las1", 2)], ["las1"]) := by decide
  obtain ⟨t, ht, hcols⟩ := Option.map_eq_some_iff.1 hrows
  obtain ⟨hsets, hschemas⟩ := Prod.mk.inj hcols
  refine ⟨by decide, t, ht, hsets, hschemas, fun h => ?_⟩
  obtain ⟨r, hr, hcount⟩ := List.mem_map.1 (hsets ▸ List.mem_singleton_self _)
  have hone : schemasOfSet t.db "las1" = 1 := by
    have hmap := List.countP_map (p := fun x => decide (x = "las1")) (f := SchemaRow.attestorSetId)
      (l := t.db.schemas)
    rw [hschemas] at hmap
    exact hmap.symm
  obtain ⟨hid, htwo⟩ := Prod.mk.inj hcount
  have hagree : r.schemaCount.toInt = schemasOfSet t.db r.id := h.schemas r hr
  rw [hid, htwo, hone] at hagree
  exact absurd hagree (by decide)

end Registry

end LigateApi.Indexer
