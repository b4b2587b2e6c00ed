import LigateApi.Api.Details
import LigateApi.Indexer.Verify.AttestationId
import LigateApi.Indexer.Verify.Counters
import LigateApi.Indexer.Verify.Stored

/-!
# What the chain emitted and what the API serves

The numbers of a schema, an attestation, a bounty or a contract travel from the chain's unsigned
types through signed columns to the detail endpoint. They arrive as they were emitted exactly if
they fit the columns and nothing that is stored is in the way (`Fits`): two versions above the range
of the column fall on the same value and the unique key of `schemas` refuses the second.
-/

namespace LigateApi.Api

open Lib Lib.Run
open Indexer hiding TxRow SchemaRow Env

/-! ## The property -/

/-- The detail endpoint of the transaction's resource returns the numbers the chain emitted. -/
def Served (denv : DetailEnv) (client : NodeClient) (k : IndexerTx) (db : Db) : Prop :=
  match k with
  | .registerSchema d =>
    ∃ body age, schemaById denv (.ok db) d.schemaId = .found body age ∧ body.version = d.version
  | .submitAttestation d =>
    ∃ body age, attestationById denv (.ok db) d.id = .found body age ∧
      body.signatureCount = d.signatureCount
  | .bountyEvent id _ => ∀ record, client.bountyAt id = .ok (some record) →
    ∃ body age, bountyDetail denv (.ok db) id = .found body age ∧
      TermsShown body.expiryDaHeight body.disputeWindowBlocks record.expiryDaHeight
        record.disputeWindowBlocks
  | .contractEvent id _ => ∀ record, client.contractAt id = .ok (some record) →
    ∃ body age, contractDetail denv (.ok db) id = .found body age ∧
      TermsShown body.expiryDaHeight body.disputeWindowBlocks record.expiryDaHeight
        record.disputeWindowBlocks
  | .transfer _ | .registerAttestorSet _ | .unknown _ => True

/-- A row the transaction writes has room for the numbers, and one it does not write already holds
them. -/
def Fits (client : NodeClient) (w : TxWork) (db : Db) : Prop :=
  (Writes client w db ∧ NumbersFit client w.classified.kind) ∨
    (¬ Writes client w db ∧ Stored client w.classified.kind db)

/-! ## The endpoints -/

section Endpoints

variable {denv : DetailEnv} {db : Db} {id : String}

theorem schemaById_found (hkeyed : SchemasKeyed db) {version : UInt32} :
    (∃ body age, schemaById denv (.ok db) id = .found body age ∧ body.version = version) ↔
      ∃ r, Table.lookup Indexer.SchemaRow.id id db.schemas = some r ∧
        r.version.toUInt32 = version := by
  have hjoin : Table.lookup (fun s : Queries.SchemaRow => s.id) id (Queries.schemaRows db) =
      (Table.lookup Indexer.SchemaRow.id id db.schemas).bind fun s =>
        (Table.lookup AttestorSetRow.id s.attestorSetId db.attestorSets).map fun a =>
          { s with threshold := a.threshold } :=
    Table.lookup_join hkeyed.unique fun _ _ => rfl
  have hquery : Queries.schemaById (.ok db) id =
      .ok (Table.lookup (fun s : Queries.SchemaRow => s.id) id (Queries.schemaRows db)) := rfl
  unfold schemaById
  rw [detail_found, hquery, hjoin]
  constructor
  · intro h
    obtain ⟨row, hrow, hversion⟩ := h
    obtain ⟨s, hs, hrest⟩ := Option.bind_eq_some_iff.1 (Except.ok.inj hrow)
    obtain ⟨a, -, rfl⟩ := Option.map_eq_some_iff.1 hrest
    exact ⟨s, hs, hversion⟩
  · intro h
    obtain ⟨s, hs, hversion⟩ := h
    obtain ⟨a, ha, hid⟩ := hkeyed.sets s (Table.lookup_mem hs)
    obtain ⟨a', ha'⟩ := Option.isSome_iff_exists.1
      (hid ▸ Table.lookup_isSome_of_mem AttestorSetRow.id ha)
    refine ⟨{ s with threshold := a'.threshold }, ?_, hversion⟩
    rw [hs, Option.bind_some, ha', Option.map_some]

theorem attestationById_found (hlower : denv.toLowercase id = id)
    (hlat1 : "lat1".toList.isPrefixOf id.toList = true) {count : UInt32} :
    (∃ body age, attestationById denv (.ok db) id = .found body age ∧
        body.signatureCount = count) ↔
      ∃ r, Table.lookup AttestationRow.id id db.attestations = some r ∧
        r.signatureCount.toUInt32 = count := by
  unfold attestationById
  simp only [hlower, hlat1, if_true]
  rw [detail_found]
  constructor
  · intro h
    obtain ⟨row, hrow, hcount⟩ := h
    exact ⟨row, Except.ok.inj hrow, hcount⟩
  · intro h
    obtain ⟨row, hrow, hcount⟩ := h
    exact ⟨row, congrArg Except.ok hrow, hcount⟩

/-- What is shown of a row is what the columns `terms` of it show. -/
theorem exists_terms {R : Type} (found : Option R) (terms : R → Int64 × Int32)
    (shown : Int64 → Int32 → Prop) :
    (∃ row, (.ok found : Except Queries.SqlxError (Option R)) = .ok (some row) ∧
        shown (terms row).1 (terms row).2) ↔
      ∃ expiry window, found.map terms = some (expiry, window) ∧ shown expiry window := by
  constructor
  · intro h
    obtain ⟨row, hrow, hshown⟩ := h
    cases hrow
    exact ⟨_, _, rfl, hshown⟩
  · intro h
    obtain ⟨expiry, window, hterms, hshown⟩ := h
    obtain ⟨row, rfl, hrow⟩ := Option.map_eq_some_iff.1 hterms
    refine ⟨row, rfl, ?_⟩
    rw [hrow]
    exact hshown

variable {expiryDaHeight : UInt64} {disputeWindowBlocks : UInt32}

theorem bountyDetail_found :
    (∃ body age, bountyDetail denv (.ok db) id = .found body age ∧
        TermsShown body.expiryDaHeight body.disputeWindowBlocks expiryDaHeight
          disputeWindowBlocks) ↔
      ∃ expiry window, bountyTerms id db = some (expiry, window) ∧
        TermsShown expiry window expiryDaHeight disputeWindowBlocks := by
  unfold bountyDetail
  rw [detail_found]
  exact exists_terms (Table.lookup BountyRow.id id db.bounties)
    (fun r => (r.expiryDaHeight, r.disputeWindowBlocks))
    fun expiry window => TermsShown expiry window expiryDaHeight disputeWindowBlocks

theorem contractDetail_found :
    (∃ body age, contractDetail denv (.ok db) id = .found body age ∧
        TermsShown body.expiryDaHeight body.disputeWindowBlocks expiryDaHeight
          disputeWindowBlocks) ↔
      ∃ expiry window, contractTerms id db = some (expiry, window) ∧
        TermsShown expiry window expiryDaHeight disputeWindowBlocks := by
  unfold contractDetail
  rw [detail_found]
  exact exists_terms (Table.lookup ContractRow.id id db.contracts)
    (fun r => (r.expiryDaHeight, r.disputeWindowBlocks))
    fun expiry window => TermsShown expiry window expiryDaHeight disputeWindowBlocks

end Endpoints

/-! ## Ids of attestations -/

section Ids

variable {codec : Codec} {serde : Serde} {d : IndexerSubmitAttestation}

/-- The id of a submission is always derived. -/
theorem classifyEvents_lat {events : List LedgerEvent}
    (h : classifyEvents codec serde events = .submitAttestation d) :
    ∃ bytes, codec.bech32mEncode "lat" bytes = some d.id := by
  obtain ⟨bs, bp, -, -, hid⟩ := decodes_of_computeAttestationId (classifyEvents_id h)
  exact ⟨_, hid⟩

end Ids

/-! ## Served as emitted -/

section Emitted

variable {env : Indexer.Env} {denv : DetailEnv}

/-- The endpoints read back what the columns hold. -/
theorem served_iff_stored {client : NodeClient} {k : IndexerTx} {db : Db} (hkeyed : SchemasKeyed db)
    (hlat : ∀ d, k = .submitAttestation d → denv.toLowercase d.id = d.id ∧
      "lat1".toList.isPrefixOf d.id.toList = true) :
    Served denv client k db ↔ Stored client k db := by
  cases k with
  | registerSchema d => exact schemaById_found hkeyed
  | submitAttestation d => exact attestationById_found (hlat d rfl).1 (hlat d rfl).2
  | bountyEvent id kind =>
    apply forall_congr'
    intro record
    apply imp_congr_right
    intro _
    exact bountyDetail_found
  | contractEvent id kind =>
    apply forall_congr'
    intro record
    apply imp_congr_right
    intro _
    exact contractDetail_found
  | transfer t => exact Iff.rfl
  | registerAttestorSet d => exact Iff.rfl
  | unknown keys => exact Iff.rfl

/-- Ingested in a reachable state, the numbers of a committed transaction are served as the chain
emitted them exactly if they fit. -/
theorem emitted_numbers_served_iff
    (hlat : ∀ bytes text, env.codec.bech32mEncode "lat" bytes = some text →
      denv.toLowercase text = text ∧ "lat1".toList.isPrefixOf text.toList = true)
    {es : List Event} {s : IndexerState} (hrun : exec (step env) IndexerState.init es = some s)
    {v : Visit env} (hcommitted : v.work.classified.outcome = .committed)
    (hsig : ∀ d, v.work.classified.kind = .submitAttestation d → 1 ≤ d.signatureCount.toNat) :
    Served denv v.client v.work.classified.kind (processTx env noFaults v.client v.work s.db).db ↔
      Fits v.client v.work s.db := by
  rw [served_iff_stored (schemasKeyed_processTx (schemasKeyed_run hrun)) ?_]
  · exact stored_processTx hcommitted hsig
  · intro d hd
    obtain ⟨bytes, hbytes⟩ := classifyEvents_lat (v.kind.symm.trans hd)
    exact hlat bytes d.id hbytes

/-! ## Versions of one schema -/

def plainDetailEnv : DetailEnv where
  toLowercase := String.toLower
  toRfc3339 := toString

/-- A registration of a version of `proof`. -/
def versionEvent (hash schemaId : String) (version : Nat) : LedgerEvent where
  key := "AttestationModule/SchemaRegistered"
  value := .obj [("SchemaRegistered", .obj
    [("schema_id", .str schemaId), ("name", .str "proof"), ("version", .num version),
      ("owner", .str "lig1"), ("attestor_set_id", .str "las1"), ("fee_routing_bps", .num 0),
      ("fee_routing_addr", .null), ("payload_shape_hash", .str "0x00")])]
  txHash := hash

/-- It is committed in slot 1, after the set and version 1. -/
def versionVisit (hash schemaId : String) (position : Int32) (version : Nat) :
    Visit registryEnv where
  client := registryNode
  work :=
    { classified :=
        { hash, batchNumber := 0, globalTxNumber := 2, outcome := .committed,
          kind := classifyEvents registryEnv.codec registryEnv.serde
            [versionEvent hash schemaId version] }
      position := position
      decoded := none
      slotNumber := 1
      timestamp := 0 }
  events := [versionEvent hash schemaId version]
  kind := rfl

/-- The database once a transaction is ingested. -/
def ingested (v : Visit registryEnv) (db : Db) : Db :=
  (processTx registryEnv noFaults v.client v.work db).db

theorem schemasKeyed_ingested {v : Visit registryEnv} {db : Db} (h : SchemasKeyed db) :
    SchemasKeyed (ingested v db) := schemasKeyed_processTx h

/-- The detail endpoint returns the version of the registration. -/
def VersionServed (v : Visit registryEnv) (db : Db) : Prop :=
  Served plainDetailEnv v.client v.work.classified.kind (ingested v db)

/-- The version of a stored schema as the endpoint reads it. -/
def storedVersion (schemaId : String) (db : Db) : Option UInt32 :=
  (Table.lookup Indexer.SchemaRow.id schemaId db.schemas).map fun r => r.version.toUInt32

theorem versionServed_iff {hash schemaId : String} {position : Int32} {version : Nat} {db : Db}
    (hkeyed : SchemasKeyed db) : VersionServed (versionVisit hash schemaId position version) db ↔
      storedVersion schemaId (ingested (versionVisit hash schemaId position version) db) =
        some (UInt32.ofNat version) := by
  unfold VersionServed
  rw [served_iff_stored (schemasKeyed_ingested hkeyed) (fun _ h => by cases h), storedVersion,
    Option.map_eq_some_iff]
  exact Iff.rfl

/-- Version 2 is served beside version 1. -/
theorem second_version_served : ∃ s, exec (step registryEnv) .init (registryWalk .ok) = some s ∧
    VersionServed (versionVisit "0xcc" "lsc2" 2 2) s.db := by
  have hbefore : (exec (step registryEnv) .init (registryWalk .ok)).map (fun s =>
      ((insertTransaction (versionVisit "0xcc" "lsc2" 2 2).work.classified 1 2 none s.db).isOk,
        decide (s.db.hasSchema "lsc2"), s.db.schemas.map Indexer.SchemaRow.version,
        decide (s.db.hasAttestorSet "las1"))) = some (true, false, [1], true) := by decide
  obtain ⟨s, hs, hcols⟩ := Option.map_eq_some_iff.1 hbefore
  simp only [Prod.mk.injEq, decide_eq_false_iff_not, decide_eq_true_eq] at hcols
  obtain ⟨htx, hnew, hversions, hset⟩ := hcols
  refine ⟨s, hs, ?_⟩
  refine (emitted_numbers_served_iff (fun _ _ h => by cases h) hs rfl (fun _ h => by cases h)).2
    (.inl ⟨⟨?_, hnew, ?_⟩, ?_⟩)
  · apply (insertTransaction_accepted rfl).1
    cases hok : insertTransaction (versionVisit "0xcc" "lsc2" 2 2).work.classified 1 2 none s.db with
    | ok db' => exact ⟨db', hok⟩
    | error e =>
      rw [hok] at htx
      cases htx
  · refine ⟨?_, ?_, ?_, hset⟩
    · decide
    · decide
    · intro h
      obtain ⟨r, hr, -, -, hversion⟩ := h
      have hmem := List.mem_map_of_mem (f := Indexer.SchemaRow.version) hr
      rw [hversions, hversion] at hmem
      exact absurd hmem (by decide)
  · have hfit : (2 : UInt32).toNat < 2 ^ 31 := by decide
    exact hfit

/-- Above `i32::MAX` one version is served as `i32::MAX`, and the next one collides with it. -/
theorem upper_versions_not_served :
    ∃ s, exec (step registryEnv) .init (registryWalk .ok) = some s ∧
      ¬ VersionServed (versionVisit "0xcc" "lsc2" 2 (2 ^ 31)) s.db ∧
      ¬ VersionServed (versionVisit "0xdd" "lsc3" 3 (2 ^ 31 + 1))
        (ingested (versionVisit "0xcc" "lsc2" 2 (2 ^ 31)) s.db) := by
  have hstored : (exec (step registryEnv) .init (registryWalk .ok)).map (fun s =>
      let db := ingested (versionVisit "0xcc" "lsc2" 2 (2 ^ 31)) s.db
      (storedVersion "lsc2" db,
        storedVersion "lsc3" (ingested (versionVisit "0xdd" "lsc3" 3 (2 ^ 31 + 1)) db))) =
      some (some 2147483647, none) := by decide
  obtain ⟨s, hs, hcols⟩ := Option.map_eq_some_iff.1 hstored
  obtain ⟨hfirst, hsecond⟩ := Prod.mk.inj hcols
  have hkeyed := schemasKeyed_run hs
  refine ⟨s, hs, ?_, ?_⟩
  · rw [versionServed_iff hkeyed, hfirst]
    decide
  · rw [versionServed_iff (schemasKeyed_ingested hkeyed), hsecond]
    exact Option.some_ne_none _ ∘ Eq.symm

end Emitted

end LigateApi.Api
