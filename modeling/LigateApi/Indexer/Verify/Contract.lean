import LigateApi.Indexer.Verify.Visits

/-!
# Contract escrow

A contract event hydrates the row, which seeds the escrow with the pool when the row is new and
otherwise keeps it; a terminal event then zeroes it. Nothing ever puts it back, so that in every
history, whatever its order and however often a transaction is visited, the escrow is the pool
until the first hydrated terminal event and zero from then on (`contract_escrow_all_or_nothing`).
-/

namespace LigateApi.Indexer

open Lib Lib.Run

/-! ## One transaction -/

/-- The events that drain the escrow on the chain. -/
def ContractEventKind.terminal : ContractEventKind → Bool
  | .accepted | .disputeResolved | .cancelled | .expired => true
  | .posted | .committed | .delivered | .rejected => false

/-- The transaction is an event of contract `id` and the chain returns its record. -/
structure HydratedContract (client : NodeClient) (w : TxWork) (id : String)
    (kind : ContractEventKind) (record : ContractRecord) : Prop where
  kind : w.classified.kind = .contractEvent id kind
  record : client.contractAt id = .ok (some record)

def TxWork.contractRow (env : Env) (w : TxWork) (id : String) (record : ContractRecord) :
    ContractRow :=
  Indexer.contractRow env.serde id record w.slotNumber w.classified.hash w.timestamp

def zeroContractEscrow (r : ContractRow) : ContractRow := { r with escrowRemainingNano := "0" }

/-- What a hydrated event makes of the row stored under its id. -/
def contractAfter (row : ContractRow) (kind : ContractEventKind) (old : Option ContractRow) :
    ContractRow :=
  let r := old.elim row (mergeContractRow row)
  if kind.terminal then zeroContractEscrow r else r

section Step

variable {env : Env} {client : NodeClient} {w : TxWork} {db : Db} {id id' : String}
  {kind : ContractEventKind} {record : ContractRecord}

theorem contracts_delta {r : TxRun} (hr : r.crashed = false)
    (h : (contractDelta noFaults id kind r).failed = []) :
    (contractDelta noFaults id kind r).db.contracts =
      if kind.terminal then Table.update ContractRow.id id zeroContractEscrow r.db.contracts
      else r.db.contracts := by
  have hzero : (contractDelta noFaults id .accepted r).failed = [] →
      (contractDelta noFaults id .accepted r).db.contracts =
        Table.update ContractRow.id id zeroContractEscrow r.db.contracts := by
    intro h
    obtain ⟨db, hdb, heq⟩ := attempt_eq_ok hr h
    cases hdb
    rw [contractDelta, heq]
    rfl
  cases kind <;> first | exact hzero h | rfl

/-- The resource rows of a hydrated event. -/
theorem lookup_contract_insertResourceRows {r : TxRun} (hr : r.crashed = false)
    (hy : HydratedContract client w id kind record)
    (h : (insertResourceRows env noFaults client w r).failed = []) :
    Table.lookup ContractRow.id id' (insertResourceRows env noFaults client w r).db.contracts =
      if id' = id then
        some (contractAfter (w.contractRow env id record) kind
          (Table.lookup ContractRow.id id r.db.contracts))
      else Table.lookup ContractRow.id id' r.db.contracts := by
  unfold insertResourceRows at h ⊢
  simp only [hy.kind, hy.record] at h ⊢
  obtain ⟨db, hdb, heq⟩ := attempt_eq_ok hr h
  rw [heq] at h ⊢
  rw [contracts_delta (r := { r with db }) hr h]
  have hup : ∀ k, Table.lookup ContractRow.id k db.contracts =
      if k = id then
        some ((Table.lookup ContractRow.id k r.db.contracts).elim (w.contractRow env id record)
          (mergeContractRow (w.contractRow env id record)))
      else Table.lookup ContractRow.id k r.db.contracts := by
    intro k
    rw [upsertContract_eq hdb]
    exact Table.lookup_upsert fun _ => rfl
  have hzero : ∀ k, Table.lookup ContractRow.id k
      (Table.update ContractRow.id id zeroContractEscrow db.contracts) =
      if k = id then (Table.lookup ContractRow.id k db.contracts).map zeroContractEscrow
      else Table.lookup ContractRow.id k db.contracts :=
    fun k => Table.lookup_update fun _ => rfl
  by_cases hid : id' = id
  · subst hid
    rw [if_pos rfl]
    cases hterm : kind.terminal with
    | true =>
      rw [if_pos rfl, hzero, if_pos rfl, hup, if_pos rfl, Option.map_some, contractAfter, hterm,
        if_pos rfl]
    | false =>
      rw [if_neg Bool.false_ne_true, hup, if_pos rfl, contractAfter, hterm,
        if_neg Bool.false_ne_true]
  · rw [if_neg hid]
    split
    · rw [hzero, if_neg hid, hup, if_neg hid]
    · rw [hup, if_neg hid]

theorem contracts_not_hydrated {r : TxRun}
    (hy : ∀ id kind record, ¬ HydratedContract client w id kind record) :
    (insertResourceRows env noFaults client w r).db.contracts = r.db.contracts := by
  by_cases hc : ∃ id kind, w.classified.kind = .contractEvent id kind
  · obtain ⟨id, kind, hk⟩ := hc
    unfold insertResourceRows
    simp only [hk]
    cases hrec : client.contractAt id with
    | error e => rfl
    | ok found =>
      cases found with
      | none => rfl
      | some record => exact absurd ⟨hk, hrec⟩ (hy id kind record)
  · exact keeps_insertResourceRows ⟨fun _ _ => rfl, fun _ _ => rfl, fun _ _ => rfl,
      schemasOwned_ignored fun _ _ => rfl, fun _ _ _ _ _ => rfl, fun id kind hk => absurd ⟨id, kind, hk⟩ hc⟩ r

/-- **One transaction**, without an error. -/
theorem contracts_cases (h : (processTx env noFaults client w db).failed = []) :
    ((∀ id kind record, ¬ HydratedContract client w id kind record) ∧
      (processTx env noFaults client w db).db.contracts = db.contracts) ∨
    ∃ id kind record, HydratedContract client w id kind record ∧
      ∀ id', Table.lookup ContractRow.id id' (processTx env noFaults client w db).db.contracts =
        if id' = id then
          some (contractAfter (w.contractRow env id record) kind
            (Table.lookup ContractRow.id id db.contracts))
        else Table.lookup ContractRow.id id' db.contracts := by
  obtain ⟨r, hlive, -, hbefore, heq⟩ := processTx_eq_resources h
  rw [heq] at h ⊢
  by_cases hy : ∃ id kind record, HydratedContract client w id kind record
  · obtain ⟨id, kind, record, hy⟩ := hy
    refine .inr ⟨id, kind, record, hy, fun id' => ?_⟩
    rw [lookup_contract_insertResourceRows hlive hy h, hbefore]
  · have hy : ∀ id kind record, ¬ HydratedContract client w id kind record :=
      fun id kind record h => hy ⟨id, kind, record, h⟩
    exact .inl ⟨hy, (contracts_not_hydrated hy).trans hbefore⟩

end Step

/-! ## Histories -/

/-- A terminal event of contract `id`, hydrated. -/
def Visit.settles {env : Env} (v : Visit env) (id : String) : Prop :=
  ∃ kind record, ContractEventKind.terminal kind = true ∧
    HydratedContract v.client v.work id kind record

/-- The escrow column of a contract that has a row. -/
def contractEscrow (id : String) (db : Db) : Option String :=
  (Table.lookup ContractRow.id id db.contracts).map ContractRow.escrowRemainingNano

/-- The escrow after a history: the pool or zero, and zero exactly once the contract is settled. -/
structure EscrowLedger {env : Env} (id P : String) (vs : List (Visit env)) (db : Db) : Prop where
  pool_or_zero : ∀ e, contractEscrow id db = some e → e = P ∨ e = "0"
  zero_iff : contractEscrow id db = some "0" ↔ ∃ v ∈ vs, v.settles id

section History

variable {env : Env} {id P : String} {vs : List (Visit env)} {v : Visit env} {db db' : Db}

theorem HydratedContract.unique {client : NodeClient} {w : TxWork} {id id' : String}
    {kind kind' : ContractEventKind} {record record' : ContractRecord}
    (h : HydratedContract client w id kind record)
    (h' : HydratedContract client w id' kind' record') : id = id' ∧ kind = kind' := by
  have hk := h.kind.symm.trans h'.kind
  cases hk
  exact ⟨rfl, rfl⟩

/-- A visit to another contract leaves the row alone. -/
theorem lookup_contract_other (h : visit env db v = some db')
    (hother : ∀ kind record, ¬ HydratedContract v.client v.work id kind record) :
    Table.lookup ContractRow.id id db'.contracts = Table.lookup ContractRow.id id db.contracts := by
  obtain ⟨hfail, rfl⟩ := visit_eq_some.1 h
  rcases contracts_cases hfail with ⟨-, hsame⟩ | ⟨id₁, kind, record, hy, hlookup⟩
  · rw [hsame]
  · rw [hlookup, if_neg]
    rintro rfl
    exact hother kind record hy

/-- A hydrated visit: zero after a terminal event, else what was there, and the pool if nothing
was. -/
theorem contractEscrow_hydrated {kind : ContractEventKind} {record : ContractRecord}
    (h : visit env db v = some db') (hy : HydratedContract v.client v.work id kind record) :
    contractEscrow id db' =
      if kind.terminal then some "0" else some ((contractEscrow id db).getD record.pool) := by
  obtain ⟨hfail, rfl⟩ := visit_eq_some.1 h
  rcases contracts_cases hfail with ⟨hno, -⟩ | ⟨id₁, kind₁, record₁, hy₁, hlookup⟩
  · exact absurd hy (hno id kind record)
  · obtain ⟨rfl, rfl⟩ := hy.unique hy₁
    have hrecord := hy.record.symm.trans hy₁.record
    cases hrecord
    rw [contractEscrow, hlookup, if_pos rfl, Option.map_some, contractAfter, contractEscrow]
    cases kind.terminal <;> cases Table.lookup ContractRow.id id db.contracts <;> rfl

/-- A visit that hydrates a terminal event of the contract. -/
theorem EscrowLedger.visit_terminal {kind : ContractEventKind} {record : ContractRecord}
    (h : Indexer.visit env db v = some db') (hy : HydratedContract v.client v.work id kind record)
    (hterm : kind.terminal = true) : EscrowLedger id P (vs ++ [v]) db' := by
  have hescrow := contractEscrow_hydrated h hy
  rw [hterm, if_pos rfl] at hescrow
  constructor
  · intro e he
    rw [hescrow, Option.some.injEq] at he
    exact .inr he.symm
  · rw [exists_mem_snoc_iff, hescrow]
    exact ⟨fun _ => .inr ⟨kind, record, hterm, hy⟩, fun _ => rfl⟩

/-- A visit that hydrates another event of the contract. -/
theorem EscrowLedger.visit_open {kind : ContractEventKind} {record : ContractRecord} (hP : P ≠ "0")
    (hpool : record.pool = P) (h : Indexer.visit env db v = some db')
    (hl : EscrowLedger id P vs db) (hy : HydratedContract v.client v.work id kind record)
    (hterm : kind.terminal = false) : EscrowLedger id P (vs ++ [v]) db' := by
  have hescrow := contractEscrow_hydrated h hy
  rw [hterm, if_neg Bool.false_ne_true, hpool] at hescrow
  have hsettles : ¬ v.settles id := by
    rintro ⟨kind', record', hterm', hy'⟩
    rw [← (hy.unique hy').2, hterm] at hterm'
    cases hterm'
  constructor
  · intro e he
    rw [hescrow, Option.some.injEq] at he
    cases hold : contractEscrow id db with
    | none =>
      rw [hold] at he
      exact .inl he.symm
    | some e' =>
      rw [hold] at he
      exact he ▸ hl.pool_or_zero e' hold
  · rw [exists_mem_snoc_iff, or_iff_left hsettles, hescrow, ← hl.zero_iff]
    cases contractEscrow id db with
    | none => simpa using hP
    | some e' => exact Iff.rfl

/-- A visit that does not hydrate the contract. -/
theorem EscrowLedger.visit_other (h : Indexer.visit env db v = some db')
    (hl : EscrowLedger id P vs db)
    (hnone : ∀ kind record, ¬ HydratedContract v.client v.work id kind record) :
    EscrowLedger id P (vs ++ [v]) db' := by
  have hescrow : contractEscrow id db' = contractEscrow id db := by
    rw [contractEscrow, lookup_contract_other h hnone, contractEscrow]
  have hsettles : ¬ v.settles id := by
    rintro ⟨kind, record, -, hyd⟩
    exact hnone kind record hyd
  constructor
  · rw [hescrow]
    exact hl.pool_or_zero
  · rw [exists_mem_snoc_iff, or_iff_left hsettles, hescrow]
    exact hl.zero_iff

/-- **Step lemma**. -/
theorem EscrowLedger.visit (hP : P ≠ "0")
    (hpool : ∀ record, v.client.contractAt id = .ok (some record) → record.pool = P)
    (h : visit env db v = some db') (hl : EscrowLedger id P vs db) :
    EscrowLedger id P (vs ++ [v]) db' := by
  by_cases hy : ∃ kind record, HydratedContract v.client v.work id kind record
  · obtain ⟨kind, record, hy⟩ := hy
    cases hterm : kind.terminal with
    | true => exact EscrowLedger.visit_terminal h hy hterm
    | false => exact EscrowLedger.visit_open hP (hpool record hy.record) h hl hy hterm
  · apply EscrowLedger.visit_other h hl
    intro kind record hyd
    exact hy ⟨kind, record, hyd⟩

/-- **Contract escrow** in every state of every history that starts without the row. -/
theorem contract_escrow_all_or_nothing {db₀ : Db} (hP : P ≠ "0")
    (hnew : Table.lookup ContractRow.id id db₀.contracts = none)
    (hpool : ∀ v ∈ vs, ∀ record, v.client.contractAt id = .ok (some record) → record.pool = P)
    {es : List (Visit env)} {db : Db} (hes : es <+: vs)
    (hrun : exec (visit env) db₀ es = some db) :
    (∀ e, contractEscrow id db = some e → e = P ∨ e = "0") ∧
      (contractEscrow id db = some "0" ↔ ∃ v ∈ es, v.settles id) ∧
      (∀ fs db', es ++ fs <+: vs → exec (visit env) db fs = some db' →
        contractEscrow id db = some "0" → contractEscrow id db' = some "0") ∧
      ∀ v db', visit env db v = some db' → ∀ kind, v.work.classified.kind = .contractEvent id kind →
        ∀ id', id' ≠ id → Table.lookup ContractRow.id id' db'.contracts =
          Table.lookup ContractRow.id id' db.contracts := by
  have hledger : ∀ {es : List (Visit env)} {db : Db}, es <+: vs →
      exec (visit env) db₀ es = some db → EscrowLedger id P es db := by
    intro es db hes hrun
    refine exec_history ?_ ?_ hes hrun
    · have hempty : contractEscrow id db₀ = none := by rw [contractEscrow, hnew, Option.map_none]
      constructor
      · intro e he
        rw [hempty] at he
        cases he
      · simp [hempty]
    · intro es v m t hpre _ hm ht
      have hv : v ∈ vs := hpre.subset (List.mem_append_right es List.mem_cons_self)
      exact hm.visit hP (hpool v hv) ht
  have hl := hledger hes hrun
  refine ⟨hl.pool_or_zero, hl.zero_iff, ?_, ?_⟩
  · intro fs db' hfs hrun' hzero
    obtain ⟨v, hv, hsettles⟩ := hl.zero_iff.1 hzero
    have hl' := hledger hfs (exec_cut.2 ⟨db, hrun, hrun'⟩)
    exact hl'.zero_iff.2 ⟨v, List.mem_append_left fs hv, hsettles⟩
  · intro v db' hvisit kind hkind id' hne
    refine lookup_contract_other hvisit fun kind' record' hy => hne ?_
    have hk := hy.kind.symm.trans hkind
    cases hk
    rfl

end History

/-- A contract whose posting is missed, then accepted, then walked again. -/
def replayedContract : List (Visit marketEnv) :=
  [marketVisit bountyNode "0xaa" 1 [contractPostedEvent],
    marketVisit marketNode "0xbb" 2 [deliveryAcceptedEvent],
    marketVisit marketNode "0xaa" 1 [contractPostedEvent]]

theorem replayedContract_settled :
    ∃ db, exec (visit marketEnv) boardDb replayedContract = some db ∧
      contractEscrow "lct1" db = some "0" := by
  obtain ⟨db, hrun⟩ : ∃ db, exec (visit marketEnv) boardDb replayedContract = some db := ⟨_, rfl⟩
  refine ⟨db, hrun, ?_⟩
  have hpool : ∀ v ∈ replayedContract, ∀ record : ContractRecord,
      v.client.contractAt "lct1" = .ok (some record) → record.pool = "100" := by
    intro v hv record hrecord
    simp only [replayedContract, List.mem_cons, List.not_mem_nil, or_false] at hv
    rcases hv with rfl | rfl | rfl
    · cases hrecord
    · cases hrecord
      rfl
    · cases hrecord
      rfl
  apply (contract_escrow_all_or_nothing (by decide) rfl hpool (List.prefix_refl _) hrun).2.1.2
  exact ⟨_, List.mem_cons_of_mem _ List.mem_cons_self, .accepted, _, rfl, rfl, rfl⟩

end LigateApi.Indexer
