import LigateApi.Indexer.Verify.Visits

/-!
# Address activity

A transaction has two senders. Its row prefers the signer of the decoded body to the address the
events name; the summaries count the address the events name, and nobody for a bounty event, a
contract event or an unknown transaction. Over a history of distinct transactions the summaries
count the rows of the other four kinds, as far as signer and named sender agree there.
-/

namespace LigateApi.Indexer

open Lib Lib.Run

/-! ## What is counted -/

def AddressRole.count : AddressRole → AddressSummaryRow → Int64
  | .sender => AddressSummaryRow.txsSentCount
  | .receiver => AddressSummaryRow.txsReceivedCount

/-- `txs_sent_count` or `txs_received_count` of an address, 0 without a row. -/
def activityCount (role : AddressRole) (a : String) (db : Db) : Int :=
  Table.columnAt AddressSummaryRow.address (fun r => (role.count r).toInt) a db.addressSummaries

/-- The address a transaction is counted for in a role. -/
def summaryAddress : AddressRole → IndexerTx → Option String
  | .sender => summarySender
  | .receiver => summaryReceiver

/-- What counting `x` in `role` adds to a count. -/
def activityOf (x : Option String) (role role' : AddressRole) (a : String) : Int :=
  if role' = role ∧ x = some a then 1 else 0

section Statements

variable {slotHeight : UInt64} {txHash : String} {timestamp : Int} {db db' : Db} {x a : String}
  {role role' : AddressRole}

/-- The row the activity leaves, its count one further in the role. -/
theorem upsertAddressActivity_row
    (h : upsertAddressActivity x role slotHeight txHash timestamp db = .ok db') :
    ∃ row : AddressSummaryRow, row.address = x ∧
      (∀ role', (role'.count row).toInt =
        activityCount role' x db + activityOf (some x) role role' x) ∧
      db'.addressSummaries =
        Table.upsert AddressSummaryRow.address row (fun _ => row) db.addressSummaries := by
  unfold upsertAddressActivity at h
  cases hl : Table.lookup AddressSummaryRow.address x db.addressSummaries with
  | none =>
    simp only [hl, pure, Except.pure, Except.ok.injEq] at h
    subst h
    refine ⟨_, rfl, fun role' => ?_, (Table.upsert_fresh hl).symm⟩
    rw [activityCount, Table.columnAt, hl]
    cases role <;> cases role' <;> simp [AddressRole.count, activityOf]
  | some old =>
    simp only [hl] at h
    obtain ⟨sent, hsent, h⟩ := bind_eq_ok.1 h
    obtain ⟨received, hreceived, h⟩ := bind_eq_ok.1 h
    simp only [unit_bind_eq_ok, pure, Except.pure, Except.ok.injEq] at h
    have hkey := Table.lookup_key hl
    have hs := addInt64_ok hsent
    have hr := addInt64_ok hreceived
    refine ⟨mergeActivity old sent received slotHeight.toInt64 txHash timestamp, hkey,
      fun role' => ?_, ?_⟩
    · rw [activityCount, Table.columnAt, hl]
      cases role <;> cases role' <;> simp_all [AddressRole.count, mergeActivity, activityOf]
    · rw [← h.2, Table.upsert_present (hkey ▸ hl), ← hkey]
      rfl

theorem activityCount_upsert
    (h : upsertAddressActivity x role slotHeight txHash timestamp db = .ok db') :
    activityCount role' a db' = activityCount role' a db + activityOf (some x) role role' a := by
  obtain ⟨row, rfl, hcount, hdb⟩ := upsertAddressActivity_row h
  unfold activityCount
  rw [hdb, Table.columnAt_put]
  by_cases ha : a = row.address
  · subst ha
    rw [if_pos rfl]
    exact hcount role'
  · have hne : ¬ some row.address = some a := fun e => ha (Option.some.inj e).symm
    rw [if_neg ha, activityOf, if_neg (fun hx => hne hx.2), Int.add_zero]

/-- The owner's bump leaves the activity alone. -/
theorem bumpAddressSchemasOwned_row
    (h : bumpAddressSchemasOwned x slotHeight txHash timestamp db = .ok db') :
    ∃ row : AddressSummaryRow, row.address = x ∧
      (∀ role, (role.count row).toInt = activityCount role x db) ∧
      db'.addressSummaries =
        Table.upsert AddressSummaryRow.address row (fun _ => row) db.addressSummaries := by
  unfold bumpAddressSchemasOwned at h
  cases hl : Table.lookup AddressSummaryRow.address x db.addressSummaries with
  | none =>
    simp only [hl, Except.ok.injEq] at h
    subst h
    refine ⟨_, rfl, fun role => ?_, (Table.upsert_fresh hl).symm⟩
    rw [activityCount, Table.columnAt, hl]
    cases role <;> rfl
  | some old =>
    simp only [hl] at h
    obtain ⟨n, -, h⟩ := bind_eq_ok.1 h
    simp only [unit_bind_eq_ok, pure, Except.pure, Except.ok.injEq] at h
    have hkey := Table.lookup_key hl
    refine ⟨{ old with schemasOwnedCount := n }, hkey, fun role => ?_, ?_⟩
    · rw [activityCount, Table.columnAt, hl]
      cases role <;> rfl
    · rw [← h.2, Table.upsert_present (hkey ▸ hl), ← hkey]

theorem activityCount_bump
    (h : bumpAddressSchemasOwned x slotHeight txHash timestamp db = .ok db') :
    activityCount role a db' = activityCount role a db := by
  obtain ⟨row, rfl, hcount, hdb⟩ := bumpAddressSchemasOwned_row h
  unfold activityCount
  rw [hdb, Table.columnAt_put]
  split
  · rename_i ha
    subst ha
    exact hcount role
  · rfl

end Statements

/-! ## One transaction -/

section ProcessTx

variable {env : Env} {client : NodeClient} {w : TxWork} {db : Db} {role : AddressRole} {a : String}

theorem logs_insertResourceRows {faults : TxStmt → Fault} :
    Logs (insertResourceRows env faults client w) := by
  have hlast : ∀ (stmt : TxStmt) (f : Db → Except DbError Db),
      Logs (TxRun.attempt faults stmt f id id) := fun _ _ => Logs.attempt Logs.refl Logs.refl
  unfold insertResourceRows
  cases w.classified.kind with
  | transfer t => exact Logs.refl
  | unknown keys => exact Logs.refl
  | registerAttestorSet d => exact hlast _ _
  | registerSchema d => exact Logs.attempt (Logs.comp (hlast _ _) (hlast _ _)) Logs.refl
  | submitAttestation d => exact Logs.attempt (hlast _ _) Logs.refl
  | bountyEvent id kind =>
    dsimp only
    split
    · refine Logs.attempt ?_ Logs.refl
      cases kind <;> first | exact hlast _ _ | exact Logs.refl
    · exact Logs.refl
    · exact Logs.refl
  | contractEvent id kind =>
    dsimp only
    split
    · refine Logs.attempt ?_ Logs.refl
      cases kind <;> first | exact hlast _ _ | exact Logs.refl
    · exact Logs.refl
    · exact Logs.refl

/-- Counting an address without an error, and what follows it. -/
theorem countActivity_ok {stmt : TxStmt} {x : Option String} {next : TxRun → TxRun} {r : TxRun}
    (hr : r.crashed = false) (h : (countActivity noFaults stmt role w x next r).failed = []) :
    ∃ r' : TxRun, r'.crashed = false ∧ countActivity noFaults stmt role w x next r = next r' ∧
      ∀ role' a, activityCount role' a r'.db =
        activityCount role' a r.db + activityOf x role role' a := by
  cases x with
  | none =>
    refine ⟨r, hr, rfl, fun role' a => ?_⟩
    simp [activityOf]
  | some x =>
    obtain ⟨db, hdb, heq⟩ := attempt_eq_ok hr h
    exact ⟨{ r with db }, hr, heq, fun role' a => activityCount_upsert hdb⟩

theorem activityCount_summaries {r : TxRun} (hr : r.crashed = false)
    (h : (updateAddressSummaries noFaults w r).failed = []) :
    activityCount role a (updateAddressSummaries noFaults w r).db =
      activityCount role a r.db +
        if summaryAddress role w.classified.kind = some a then 1 else 0 := by
  unfold updateAddressSummaries at h ⊢
  obtain ⟨r₁, hr₁, heq, hsent⟩ := countActivity_ok hr h
  rw [heq] at h ⊢
  obtain ⟨r₂, -, heq, hreceived⟩ := countActivity_ok hr₁ h
  rw [heq]
  apply (hreceived role a).trans
  rw [hsent, Int.add_assoc]
  cases role with
  | sender => by_cases hs : summarySender w.classified.kind = some a <;>
      simp [activityOf, summaryAddress, hs]
  | receiver => by_cases hs : summaryReceiver w.classified.kind = some a <;>
      simp [activityOf, summaryAddress, hs]

theorem activityCount_resources {r : TxRun} :
    activityCount role a (insertResourceRows env noFaults client w r).db =
      activityCount role a r.db :=
  keeps_insertResourceRows ⟨fun _ _ => rfl, fun _ _ => rfl, fun _ _ => rfl,
    fun _ _ _ _ _ _ => activityCount_bump, fun _ _ _ _ _ => rfl, fun _ _ _ _ _ => rfl⟩ r

/-- **One transaction** without an error counts the addresses its events name. -/
theorem activityCount_processTx (h : (processTx env noFaults client w db).failed = []) :
    activityCount role a (processTx env noFaults client w db).db =
      activityCount role a db +
        if summaryAddress role w.classified.kind = some a then 1 else 0 := by
  obtain ⟨db₁, htx, heq⟩ := processTx_eq_ok h
  rw [heq] at h ⊢
  have hfailed : (updateAddressSummaries noFaults w { db := db₁ }).failed = [] := by
    have hlogs : Logs (insertResourceRows env noFaults client w) := logs_insertResourceRows
    have hsub := hlogs (updateAddressSummaries noFaults w { db := db₁ })
    rw [h] at hsub
    exact List.subset_nil.1 hsub
  have hown : activityCount role a db₁ = activityCount role a db := by
    rw [insertTransaction_frame htx]
    rfl
  rw [activityCount_resources, activityCount_summaries rfl hfailed, hown]

/-- A transaction that has no row yet appends its own. -/
theorem transactions_fresh (h : (processTx env noFaults client w db).failed = [])
    (happlied : w.classified.outcome ≠ .skipped)
    (hfresh : ∀ r ∈ db.transactions, r.hash ≠ w.classified.hash) :
    (processTx env noFaults client w db).db.transactions = db.transactions ++ [w.row] := by
  obtain ⟨db₁, htx, -⟩ := processTx_eq_ok h
  rw [transactions_processTx, htx]
  cases hout : w.classified.outcome with
  | skipped => exact absurd hout happlied
  | reverted => exact absurd htx (insertTransaction_reverted hout)
  | committed =>
    rw [insertTransaction_committed hout] at htx
    rw [(upsertTxRow_eq_ok.1 htx).2.2.2.2]
    exact Table.upsert_fresh (Table.lookup_eq_none.2 hfresh)

end ProcessTx

/-! ## Histories -/

/-- The kinds the summaries attribute to a sender. -/
def attributedKinds : List String :=
  ["transfer", "register_attestor_set", "register_schema", "submit_attestation"]

/-- If the body decodes and the events name a sender, then that is who signed. -/
def Visit.signedByNamed {env : Env} (v : Visit env) : Prop :=
  ∀ d, v.work.decoded = some d → ∀ s, summarySender v.work.classified.kind = some s → d.sender = s

/-- The rows and the activity a history of distinct transactions leaves. -/
structure ActivityKept {env : Env} (vs : List (Visit env)) (db : Db) : Prop where
  rows : db.transactions = vs.map fun v => v.work.row
  counts : ∀ role a, activityCount role a db =
    vs.countP fun v => summaryAddress role v.work.classified.kind = some a

section History

variable {env : Env} {vs : List (Visit env)} {db₀ db : Db} {a : String}

theorem activityKept_of_history (hrows : db₀.transactions = [])
    (hsummaries : db₀.addressSummaries = [])
    (hdistinct : (vs.map fun v => v.work.hash).Nodup)
    (happlied : ∀ v ∈ vs, v.work.classified.outcome ≠ .skipped)
    (h : exec (visit env) db₀ vs = some db) : ActivityKept vs db := by
  refine exec_history (I := ActivityKept) ⟨hrows, fun role a => ?_⟩ ?_ (List.prefix_refl vs) h
  · rw [activityCount, hsummaries]
    rfl
  · intro es v m t hpre _ ih hv
    obtain ⟨hfailed, rfl⟩ := visit_eq_some.1 hv
    have hfresh : ∀ r ∈ m.transactions, r.hash ≠ v.work.classified.hash := by
      have hnodup := hdistinct.sublist (hpre.sublist.map _)
      rw [List.map_append, List.nodup_append] at hnodup
      intro r hr
      rw [ih.rows] at hr
      obtain ⟨u, hu, rfl⟩ := List.mem_map.1 hr
      exact hnodup.2.2 _ (List.mem_map_of_mem hu) _ (List.mem_singleton.2 rfl)
    have hmem : v ∈ vs := hpre.subset (List.mem_append_right es (List.mem_singleton.2 rfl))
    refine ⟨?_, fun role a => ?_⟩
    · rw [transactions_fresh hfailed (happlied v hmem) hfresh, ih.rows, List.map_append]
      rfl
    · rw [activityCount_processTx hfailed, ih.counts, List.countP_append, List.countP_singleton]
      push_cast
      congr 1
      simp only [decide_eq_true_eq]

/-- The two resolutions of the events are the same. -/
theorem eventSender_eq_summarySender (k : IndexerTx) : eventSender k = summarySender k := by
  cases k <;> rfl

theorem attributed_iff_named (k : IndexerTx) :
    (kindAndDetails k).1 ∈ attributedKinds ↔ ∃ s, summarySender k = some s := by
  cases k <;> simp [kindAndDetails, attributedKinds, summarySender]

/-- A row of an attributed kind has the named sender, if that is who signed. -/
theorem row_sender_iff {v : Visit env} (hsigned : v.signedByNamed) :
    v.work.row.sender = some a ∧ v.work.row.kind ∈ attributedKinds ↔
      summarySender v.work.classified.kind = some a := by
  have hsender : v.work.row.sender =
      (v.work.decoded.map DecodedTxBody.sender).or (summarySender v.work.classified.kind) := by
    rw [← eventSender_eq_summarySender]
    rfl
  have hkind : v.work.row.kind ∈ attributedKinds ↔
      ∃ s, summarySender v.work.classified.kind = some s := attributed_iff_named _
  rw [hsender, hkind]
  cases hd : v.work.decoded with
  | none =>
    constructor
    · exact fun h => h.1
    · exact fun h => ⟨h, a, h⟩
  | some d =>
    constructor
    · rintro ⟨hda, s, hs⟩
      have hda : some d.sender = some a := hda
      rw [hs, ← hsigned d hd s hs, hda]
    · intro hs
      exact ⟨congrArg some (hsigned d hd a hs), a, hs⟩

theorem row_receiver_iff {v : Visit env} :
    v.work.row.kind = "transfer" ∧ (v.work.row.details.field "to").bind Json.text = some a ↔
      summaryReceiver v.work.classified.kind = some a := by
  have hkind : v.work.row.kind = (kindAndDetails v.work.classified.kind).1 := rfl
  have hdetails : v.work.row.details = (kindAndDetails v.work.classified.kind).2 := rfl
  rw [hkind, hdetails]
  cases v.work.classified.kind with
  | transfer t => exact and_iff_right rfl
  | registerAttestorSet d => simp [kindAndDetails, summaryReceiver]
  | registerSchema d => simp [kindAndDetails, summaryReceiver]
  | submitAttestation d => simp [kindAndDetails, summaryReceiver]
  | bountyEvent id kind => simp [kindAndDetails, summaryReceiver]
  | contractEvent id kind => simp [kindAndDetails, summaryReceiver]
  | unknown keys => simp [kindAndDetails, summaryReceiver]

/-- **The summaries count the rows.** -/
theorem activity_counts_rows (hrows : db₀.transactions = [])
    (hsummaries : db₀.addressSummaries = [])
    (hdistinct : (vs.map fun v => v.work.hash).Nodup)
    (happlied : ∀ v ∈ vs, v.work.classified.outcome ≠ .skipped)
    (h : exec (visit env) db₀ vs = some db) (a : String) :
    ((∀ v ∈ vs, v.signedByNamed) → activityCount .sender a db =
      db.transactions.countP fun r => r.sender = some a ∧ r.kind ∈ attributedKinds) ∧
    activityCount .receiver a db =
      db.transactions.countP fun r =>
        r.kind = "transfer" ∧ (r.details.field "to").bind Json.text = some a := by
  have hkept := activityKept_of_history hrows hsummaries hdistinct happlied h
  rw [hkept.rows, List.countP_map, List.countP_map, hkept.counts, hkept.counts]
  constructor
  · intro hsigned
    refine congrArg Nat.cast (List.countP_congr fun v hv => ?_)
    simp only [Function.comp_apply, decide_eq_true_eq]
    exact (row_sender_iff (hsigned v hv)).symm
  · refine congrArg Nat.cast (List.countP_congr fun v _ => ?_)
    simp only [Function.comp_apply, decide_eq_true_eq]
    exact row_receiver_iff.symm

end History

/-! ## Signed transactions -/

/-- The slot of the small market, and nothing else. -/
def openedDb : Db := { Db.empty with slots := boardDb.slots }

/-- A market transaction whose body decodes to the given signer. -/
def signedVisit (signer hash : String) (position : Int32) (events : List LedgerEvent) :
    Visit marketEnv :=
  let v := marketVisit silentNode hash position events
  { v with work := { v.work with decoded := some ⟨signer, "lpk1", some 7⟩ } }

/-- An attestor set registered by its signer, and one without a body. -/
def registrations : List (Visit marketEnv) :=
  [signedVisit "lig1o" "0xaa" 1 [attestorSetEvent],
    marketVisit silentNode "0xbb" 2 [attestorSetEvent]]

theorem registrations_counted :
    ∃ db, exec (visit marketEnv) openedDb registrations = some db ∧
      activityCount .sender "lig1o" db =
        db.transactions.countP (fun r => r.sender = some "lig1o" ∧ r.kind ∈ attributedKinds) ∧
      activityCount .sender "lig1o" db = 2 := by
  have hsigned : ∀ v ∈ registrations, v.signedByNamed := by
    intro v hv d hd s hs
    simp only [registrations, List.mem_cons, List.not_mem_nil, or_false] at hv
    rcases hv with rfl | rfl
    · cases hd
      exact Option.some.inj hs
    · cases hd
  have happlied : ∀ v ∈ registrations, v.work.classified.outcome ≠ .skipped := by
    intro v hv
    simp only [registrations, List.mem_cons, List.not_mem_nil, or_false] at hv
    rcases hv with rfl | rfl
    · exact nofun
    · exact nofun
  obtain ⟨db, hrun⟩ : ∃ db, exec (visit marketEnv) openedDb registrations = some db := ⟨_, rfl⟩
  refine ⟨db, hrun, ?_, ?_⟩
  · exact (activity_counts_rows rfl rfl (by decide) happlied hrun "lig1o").1 hsigned
  · cases hrun
    rfl

/-- One ingested transaction whose signer has a row and is not counted as its sender. -/
def Uncounted (signer : String) (events : List LedgerEvent) : Prop :=
  ∃ db, exec (visit marketEnv) openedDb [signedVisit signer "0xaa" 1 events] = some db ∧
    activityCount .sender signer db = 0 ∧
    (db.transactions.countP fun r => r.sender = some signer) = 1

/-- A bounty event, an unknown transaction, and a registration signed by another than its events
name. -/
theorem signers_uncounted :
    Uncounted "lig1p" [postedEvent] ∧ Uncounted "lig1p" [] ∧
      Uncounted "lig1p" [attestorSetEvent] := by
  refine ⟨⟨_, rfl, rfl, ?_⟩, ⟨_, rfl, rfl, ?_⟩, ⟨_, rfl, rfl, ?_⟩⟩
  · decide
  · decide
  · decide

end LigateApi.Indexer
