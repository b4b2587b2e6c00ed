import LigateApi.Api.Verify.Live
import LigateApi.Api.Verify.Served

/-!
# Details over a run

A detail endpoint answers from one row, joined with what the row refers to. No reference dangles, so
it finds what is stored (`found_iff_stored`), and rows stay, so it finds that ever after; what it
answers then differs only in what a row may still change (`found_stays`).
-/

namespace LigateApi.Api

open Lib Lib.Run Queries
open Indexer hiding TxRow SchemaRow Env

/-- What a detail endpoint is asked for. -/
inductive Resource
  | block (height : UInt64)
  | tx (hash : String)
  | schema (id : String)
  | attestation (id : String)
  | attestorSet (id : String)
  | bounty (id : String)
  | contract (id : String)
  deriving DecidableEq, Repr

def Resource.Body : Resource → Type
  | .block _ => BlockResponse
  | .tx _ => TxResponse
  | .schema _ => SchemaResponse
  | .attestation _ => AttestationResponse
  | .attestorSet _ => AttestorSetResponse
  | .bounty _ => BountyDetailResponse
  | .contract _ => ContractDetailResponse

/-- The endpoint's answer. -/
def Resource.detail (denv : DetailEnv) (pg : PgPool) : (r : Resource) → DetailReply r.Body
  | .block height => blockByHeight denv pg height
  | .tx hash => Api.txByHash denv pg hash
  | .schema id => Api.schemaById denv pg id
  | .attestation id => Api.attestationById denv pg id
  | .attestorSet id => Api.attestorSetById denv pg id
  | .bounty id => bountyDetail denv pg id
  | .contract id => contractDetail denv pg id

/-- The endpoint finds the resource, and answers so. -/
def Resource.Found (denv : DetailEnv) (db : Db) (r : Resource) (p : r.Body → Prop) : Prop :=
  ∃ body age, r.detail denv (.ok db) = .found body age ∧ p body

/-- What an answer has in common with a later one. -/
def Resource.Stays : (r : Resource) → r.Body → r.Body → Prop
  | .block _, (b : BlockResponse), (b' : BlockResponse) =>
    b'.height = b.height ∧ Indexer.Kept b.parentHash b'.parentHash ∧
      Indexer.Kept b.proposer b'.proposer ∧ Indexer.Kept b.daBlockHeight b'.daBlockHeight ∧
      Indexer.Kept b.finalizedAt b'.finalizedAt
  | .tx _, (b : TxResponse), (b' : TxResponse) =>
    b'.hash = b.hash ∧ Indexer.Kept b.sender b'.sender ∧
      Indexer.Kept b.senderPubkey b'.senderPubkey ∧ Indexer.Kept b.nonce b'.nonce
  | .schema _, (b : SchemaResponse), (b' : SchemaResponse) =>
    b' = { b with threshold := b'.threshold, attestationCount := b'.attestationCount } ∧
      b.attestationCount ≤ b'.attestationCount
  | .attestation _, (b : AttestationResponse), (b' : AttestationResponse) =>
    b' = { b with signatureCount := b'.signatureCount }
  | .attestorSet _, (b : AttestorSetResponse), (b' : AttestorSetResponse) =>
    b'.id = b.id ∧ b.schemaCount ≤ b'.schemaCount
  | .bounty _, (b : BountyDetailResponse), (b' : BountyDetailResponse) =>
    b'.id = b.id ∧ b'.postedAt = b.postedAt ∧ b.claimCount ≤ b'.claimCount ∧
      Indexer.Kept b.lastClaimAtSlot b'.lastClaimAtSlot
  | .contract _, (b : ContractDetailResponse), (b' : ContractDetailResponse) =>
    b'.id = b.id ∧ b'.postedAt = b.postedAt ∧
      (b.escrowRemainingNano = "0" → b'.escrowRemainingNano = "0")

/-- What is used of Bech32m: an id under the prefix `lat` starts with `lat1` and is in lower case. -/
def LatIds (codec : Codec) (denv : DetailEnv) : Prop :=
  ∀ bytes text, codec.bech32mEncode "lat" bytes = some text →
    denv.toLowercase text = text ∧ "lat1".toList.isPrefixOf text.toList = true

/-! ## What is stored is found -/

section Found

variable {codec : Codec} {denv : DetailEnv} {db : Db}

/-- Where the keys are unique, a detail endpoint answers from the one row under the key. -/
theorem detail_iff_mem {R B κ : Type} [DecidableEq κ] {key : R → κ} {k : κ} {rows : List R}
    {missing : String} {id : Option String} {toResponse : R → B} {maxAgeSecs : UInt32}
    {p : B → Prop} (hn : (rows.map key).Nodup) :
    (∃ body age, detail (.ok (Table.lookup key k rows)) missing id toResponse maxAgeSecs =
        .found body age ∧ p body) ↔ ∃ r ∈ rows, key r = k ∧ p (toResponse r) := by
  rw [detail_found]
  constructor
  · rintro ⟨r, hr, hp⟩
    obtain ⟨hmem, hkey⟩ := (Table.lookup_eq_some_iff hn).1 (Except.ok.inj hr)
    exact ⟨r, hmem, hkey, hp⟩
  · rintro ⟨r, hmem, hkey, hp⟩
    exact ⟨r, congrArg Except.ok ((Table.lookup_eq_some_iff hn).2 ⟨hmem, hkey⟩), hp⟩

/-- Every transaction has its slot, so the join loses none. -/
theorem mem_txRows (hdb : Intact db) {t : Indexer.TxRow} :
    t ∈ db.transactions ↔ ∃ r ∈ txRows db, r.toTxRow = t := by
  constructor
  · intro ht
    obtain ⟨s, hs, hslot⟩ := (hdb.transactions.rows t ht).slot
    exact ⟨_, Table.mem_join.2 ⟨t, ht, s, hs, hslot, rfl⟩, rfl⟩
  · rintro ⟨r, hr, rfl⟩
    obtain ⟨t, ht, s, -, -, rfl⟩ := Table.mem_join.1 hr
    exact ht

/-- Every schema has its attestor set. -/
theorem mem_schemaRows (hdb : Intact db) {t : Indexer.SchemaRow} :
    t ∈ db.schemas ↔ ∃ r ∈ schemaRows db, r.toSchemaRow = t := by
  constructor
  · intro ht
    obtain ⟨a, ha, hid⟩ := (hdb.schemas.rows t ht).attestorSet
    exact ⟨_, Table.mem_join.2 ⟨t, ht, a, ha, hid, rfl⟩, rfl⟩
  · rintro ⟨r, hr, rfl⟩
    obtain ⟨t, ht, a, -, -, rfl⟩ := Table.mem_join.1 hr
    exact ht

theorem nodup_txRows (hdb : Intact db) : ((txRows db).map fun r : TxRow => r.hash).Nodup :=
  hdb.transactions.unique.sublist (Table.map_join_sublist hdb.slots fun _ _ => rfl)

theorem nodup_schemaRows (hdb : Intact db) : ((schemaRows db).map fun r : SchemaRow => r.id).Nodup :=
  hdb.schemas.unique.sublist (Table.map_join_sublist hdb.attestorSets.unique fun _ _ => rfl)

theorem block_found (hdb : Intact db) {height : UInt64} {p : BlockResponse → Prop} :
    (Resource.block height).Found denv db p ↔
      ∃ r ∈ db.slots, r.height = height.toInt64 ∧ p (slotToBlockResponse denv r) :=
  detail_iff_mem hdb.slots

theorem tx_found (hdb : Intact db) {hash : String} {p : TxResponse → Prop} :
    (Resource.tx hash).Found denv db p ↔
      ∃ r ∈ txRows db, r.hash = hash ∧ p (txRowToResponse denv r) :=
  detail_iff_mem (nodup_txRows hdb)

theorem schema_found (hdb : Intact db) {id : String} {p : SchemaResponse → Prop} :
    (Resource.schema id).Found denv db p ↔
      ∃ r ∈ schemaRows db, r.id = id ∧ p (schemaRowToResponse denv r) :=
  detail_iff_mem (nodup_schemaRows hdb)

theorem attestorSet_found (hdb : Intact db) {id : String} {p : AttestorSetResponse → Prop} :
    (Resource.attestorSet id).Found denv db p ↔
      ∃ r ∈ db.attestorSets, r.id = id ∧ p (attestorSetRowToResponse denv r) :=
  detail_iff_mem hdb.attestorSets.unique

theorem bounty_found (hdb : Intact db) {id : String} {p : BountyDetailResponse → Prop} :
    (Resource.bounty id).Found denv db p ↔
      ∃ r ∈ db.bounties, r.id = id ∧ p (bountyRowToResponse denv r) :=
  detail_iff_mem hdb.bounties.unique

theorem contract_found (hdb : Intact db) {id : String} {p : ContractDetailResponse → Prop} :
    (Resource.contract id).Found denv db p ↔
      ∃ r ∈ db.contracts, r.id = id ∧ p (contractRowToResponse denv r) :=
  detail_iff_mem hdb.contracts.unique

/-- A stored id is one that the endpoint accepts as it is. -/
theorem attestation_spelled (hlat : LatIds codec denv) (hkeyed : AttestationsKeyed codec db)
    {r : AttestationRow} (hr : r ∈ db.attestations) :
    denv.toLowercase r.id = r.id ∧ "lat1".toList.isPrefixOf r.id.toList = true := by
  obtain ⟨bs, bp, -, -, henc⟩ := decodes_of_computeAttestationId (hkeyed r hr)
  exact hlat _ _ henc

/-- The endpoint looks for the lower case of what it is asked for. -/
theorem attestation_found (hdb : Intact db) (hlat : LatIds codec denv)
    (hkeyed : AttestationsKeyed codec db) {id : String} {p : AttestationResponse → Prop} :
    (Resource.attestation id).Found denv db p ↔
      ∃ r ∈ db.attestations, r.id = denv.toLowercase id ∧ p (attestationRowToResponse denv r) := by
  unfold Resource.Found Resource.detail Api.attestationById
  dsimp only
  by_cases hlat1 : "lat1".toList.isPrefixOf (denv.toLowercase id).toList = true
  · rw [if_pos hlat1]
    exact detail_iff_mem hdb.attestations.unique
  · rw [if_neg hlat1]
    constructor
    · rintro ⟨body, age, hfound, -⟩
      cases hfound
    · rintro ⟨r, hr, hid, -⟩
      rw [← hid] at hlat1
      exact absurd (attestation_spelled hlat hkeyed hr).2 hlat1

end Found

/-! ## What is found stays -/

section Stays

variable {codec : Codec} {denv : DetailEnv} {db db' : Db}

theorem kept_map {α β : Type} {f : α → β} {o o' : Option α} (h : Indexer.Kept o o') :
    Indexer.Kept (o.map f) (o'.map f) := by
  unfold Indexer.Kept at h ⊢
  rw [Option.isSome_map, Option.isSome_map]
  exact h

/-- A count that is shown as an unsigned number. -/
theorem toUInt32_le {a b : Int32} (hnonneg : 0 ≤ a.toInt) (h : a.toInt ≤ b.toInt) :
    a.toUInt32 ≤ b.toUInt32 :=
  Int32.toUInt32_le (Int32.le_iff_toInt_le.2 hnonneg) (Int32.le_iff_toInt_le.2 h)

theorem block_stays (hdb : Intact db) (hdb' : Intact db') (hlater : Later db db') {height : UInt64}
    {body : BlockResponse} (h : (Resource.block height).Found denv db (· = body)) :
    (Resource.block height).Found denv db' ((Resource.block height).Stays body) := by
  obtain ⟨r, hr, hheight, rfl⟩ := (block_found hdb).1 h
  obtain ⟨r', hr', hsame, hl⟩ := hlater.slots r hr
  refine (block_found hdb').2 ⟨r', hr', hsame.trans hheight, ?_⟩
  exact ⟨congrArg Int64.toUInt64 hsame, hl.prevHash, hl.proposer, kept_map hl.daBlockHeight,
    kept_map hl.finalizedAt⟩

theorem tx_stays (hdb : Intact db) (hdb' : Intact db') (hlater : Later db db') {hash : String}
    {body : TxResponse} (h : (Resource.tx hash).Found denv db (· = body)) :
    (Resource.tx hash).Found denv db' ((Resource.tx hash).Stays body) := by
  obtain ⟨r, hr, hhash, rfl⟩ := (tx_found hdb).1 h
  obtain ⟨t, ht, hsame, hl⟩ := hlater.transactions _ ((mem_txRows hdb).2 ⟨r, hr, rfl⟩)
  obtain ⟨r', hr', rfl⟩ := (mem_txRows hdb').1 ht
  exact (tx_found hdb').2 ⟨r', hr', hsame.trans hhash, hsame, hl.sender, hl.senderPubkey, hl.nonce⟩

theorem schema_stays (hdb : Intact db) (hdb' : Intact db') (hlater : Later db db') {id : String}
    {body : SchemaResponse} (h : (Resource.schema id).Found denv db (· = body)) :
    (Resource.schema id).Found denv db' ((Resource.schema id).Stays body) := by
  obtain ⟨r, hr, hid, rfl⟩ := (schema_found hdb).1 h
  have hmem := (mem_schemaRows hdb).2 ⟨r, hr, rfl⟩
  obtain ⟨t, ht, hsame, hl⟩ := hlater.schemas _ hmem
  obtain ⟨r', hr', rfl⟩ := (mem_schemaRows hdb').1 ht
  refine (schema_found hdb').2 ⟨r', hr', hsame.trans hid, ?_, ?_⟩
  · obtain ⟨row', threshold'⟩ := r'
    have hrow : row' = { r.toSchemaRow with attestationCount := row'.attestationCount } := hl.same
    rw [hrow]
    rfl
  · exact toUInt32_le (hdb.schemas.rows _ hmem).attestationCount hl.attestationCount

theorem attestation_stays (hdb : Intact db) (hdb' : Intact db') (hlater : Later db db')
    (hlat : LatIds codec denv) (hkeyed : AttestationsKeyed codec db)
    (hkeyed' : AttestationsKeyed codec db') {id : String} {body : AttestationResponse}
    (h : (Resource.attestation id).Found denv db (· = body)) :
    (Resource.attestation id).Found denv db' ((Resource.attestation id).Stays body) := by
  obtain ⟨r, hr, hid, rfl⟩ := (attestation_found hdb hlat hkeyed).1 h
  obtain ⟨r', hr', hsame, hl⟩ := hlater.attestations r hr
  refine (attestation_found hdb' hlat hkeyed').2 ⟨r', hr', hsame.trans hid, ?_⟩
  unfold AttestationRow.Later at hl
  rw [hl]
  rfl

theorem attestorSet_stays (hdb : Intact db) (hdb' : Intact db') (hlater : Later db db')
    {id : String} {body : AttestorSetResponse}
    (h : (Resource.attestorSet id).Found denv db (· = body)) :
    (Resource.attestorSet id).Found denv db' ((Resource.attestorSet id).Stays body) := by
  obtain ⟨r, hr, hid, rfl⟩ := (attestorSet_found hdb).1 h
  obtain ⟨r', hr', hsame, hl⟩ := hlater.attestorSets r hr
  exact (attestorSet_found hdb').2 ⟨r', hr', hsame.trans hid, hsame,
    toUInt32_le (hdb.attestorSets.rows r hr).schemaCount hl⟩

theorem bounty_stays (hdb : Intact db) (hdb' : Intact db') (hlater : Later db db') {id : String}
    {body : BountyDetailResponse} (h : (Resource.bounty id).Found denv db (· = body)) :
    (Resource.bounty id).Found denv db' ((Resource.bounty id).Stays body) := by
  obtain ⟨r, hr, hid, rfl⟩ := (bounty_found hdb).1 h
  obtain ⟨r', hr', hsame, hl⟩ := hlater.bounties r hr
  refine (bounty_found hdb').2 ⟨r', hr', hsame.trans hid, hsame, ?_, ?_, hl.lastClaimAtSlot⟩
  · dsimp only [bountyRowToResponse]
    rw [hl.postedAtSlot, hl.postedAtTx, hl.postedAtTimestamp]
  · exact Int32.le_iff_toInt_le.2 hl.claimCount

theorem contract_stays (hdb : Intact db) (hdb' : Intact db') (hlater : Later db db') {id : String}
    {body : ContractDetailResponse} (h : (Resource.contract id).Found denv db (· = body)) :
    (Resource.contract id).Found denv db' ((Resource.contract id).Stays body) := by
  obtain ⟨r, hr, hid, rfl⟩ := (contract_found hdb).1 h
  obtain ⟨r', hr', hsame, hl⟩ := hlater.contracts r hr
  refine (contract_found hdb').2 ⟨r', hr', hsame.trans hid, hsame, ?_, hl.escrow⟩
  dsimp only [contractRowToResponse]
  rw [hl.postedAtSlot, hl.postedAtTx, hl.postedAtTimestamp]

theorem stays_of_later (hlat : LatIds codec denv) (hdb : Intact db) (hdb' : Intact db')
    (hkeyed : AttestationsKeyed codec db) (hkeyed' : AttestationsKeyed codec db')
    (hlater : Later db db') {r : Resource} {body : r.Body}
    (h : r.Found denv db (· = body)) : r.Found denv db' (r.Stays body) := by
  cases r with
  | block => exact block_stays hdb hdb' hlater h
  | tx => exact tx_stays hdb hdb' hlater h
  | schema => exact schema_stays hdb hdb' hlater h
  | attestation => exact attestation_stays hdb hdb' hlater hlat hkeyed hkeyed' h
  | attestorSet => exact attestorSet_stays hdb hdb' hlater h
  | bounty => exact bounty_stays hdb hdb' hlater h
  | contract => exact contract_stays hdb hdb' hlater h

end Stays

/-! ## Requests during a run -/

section Runs

variable {ienv : Indexer.Env} {denv : DetailEnv} {s : IndexerState} {seen : List Db}
  {es : List (Option Event)}

/-- **What a detail endpoint has found it finds ever after**, and its answers agree in all that a row
keeps: a schema in all but its count and its threshold, an attestation in all but its signatures. -/
theorem found_stays (hlat : LatIds ienv.codec denv)
    (hrun : exec (observe (step ienv) IndexerState.db) (.init, []) es = some (s, seen))
    {i j : Nat} {db db' : Db} (hij : i ≤ j) (hi : seen[i]? = some db) (hj : seen[j]? = some db')
    {r : Resource} {body : r.Body} {age : UInt32} (h : r.detail denv (.ok db) = .found body age) :
    ∃ body' age', r.detail denv (.ok db') = .found body' age' ∧ r.Stays body body' := by
  obtain ⟨hdb, hkeyed⟩ := intact_of_request hrun (List.mem_of_getElem? hi)
  obtain ⟨hdb', hkeyed'⟩ := intact_of_request hrun (List.mem_of_getElem? hj)
  exact stays_of_later hlat hdb hdb' hkeyed hkeyed' (later_of_reads hrun hij hi hj)
    ⟨body, age, h, rfl⟩

/-- The set is asked for before a crash, and again when its slot has been walked once more. -/
def readBetweenWalks : List (Option Event) :=
  (registryWalk .refused).map some ++ none :: (.crash :: registryWalk .ok).map some ++ [none]

theorem found_stays_between_walks :
    ∃ s db db' body age, exec (observe (step registryEnv) IndexerState.db) (.init, [])
        readBetweenWalks = some (s, [db, db']) ∧
      (Resource.attestorSet "las1").detail plainDetailEnv (.ok db) = .found body age ∧
      AttestorSetResponse.schemaCount body = 1 ∧
      ∃ body' age', (Resource.attestorSet "las1").detail plainDetailEnv (.ok db') =
          .found body' age' ∧
        AttestorSetResponse.schemaCount body' = 2 ∧
        (Resource.attestorSet "las1").Stays body body' := by
  obtain ⟨s, db, db', body, age, body', age', hrun, hfirst, hone, hsecond, htwo⟩ :
      ∃ s db db' body age body' age', exec (observe (step registryEnv) IndexerState.db) (.init, [])
          readBetweenWalks = some (s, [db, db']) ∧
        (Resource.attestorSet "las1").detail plainDetailEnv (.ok db) = .found body age ∧
        AttestorSetResponse.schemaCount body = 1 ∧
        (Resource.attestorSet "las1").detail plainDetailEnv (.ok db') = .found body' age' ∧
        AttestorSetResponse.schemaCount body' = 2 :=
    ⟨_, _, _, _, _, _, _, rfl, rfl, by decide, rfl, by decide⟩
  obtain ⟨later, ttl, hlater, hstays⟩ := found_stays (i := 0) (j := 1) (fun _ _ h => by cases h) hrun
    (by decide) rfl rfl hfirst
  have hsame : (DetailReply.found body' age' : DetailReply AttestorSetResponse) =
      .found later ttl := hsecond.symm.trans hlater
  cases hsame
  exact ⟨s, db, db', body, age, hrun, hfirst, hone, body', age', hsecond, htwo, hstays⟩

end Runs

end LigateApi.Api
