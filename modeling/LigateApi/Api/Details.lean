import LigateApi.Api.Handlers

/-!
# Detail handlers

A detail handler looks up one row by its id and maps it to its wire form (`detail`). The columns are
signed; the mapping casts some of them back to the unsigned types of the chain and passes on others
as they are.
-/

namespace LigateApi.Api

open Indexer hiding TxRow SchemaRow
open Queries

def ttlImmutableSecs : UInt32 := 300

/-- What a detail endpoint answers. A 404 repeats the id where the source does. -/
inductive DetailReply (B : Type)
  | found (body : B) (maxAgeSecs : UInt32)
  | notFound (error : String) (id : Option String)
  | badRequest (error : String)
  | internalError

/-- What the handlers take from outside. -/
structure DetailEnv where
  /-- `str::to_lowercase` -/
  toLowercase : String → String
  /-- `to_rfc3339_opts(SecondsFormat::Millis, true)` of a count of milliseconds. -/
  toRfc3339 : Int → String

/-! ## Wire forms -/

structure RegisteredAtResponse where
  blockHeight : UInt64
  txHash : String
  timestamp : String

structure SchemaResponse where
  id : String
  name : String
  version : UInt32
  owner : String
  attestorSetId : String
  threshold : UInt8
  feeRoutingBps : UInt16
  feeRoutingAddr : Option String
  payloadShapeHash : String
  registeredAt : RegisteredAtResponse
  attestationCount : UInt32

structure AttestationResponse where
  id : String
  schemaId : String
  payloadHash : String
  submitter : String
  submitterPubkey : Option String
  signatureCount : UInt32
  submittedAt : RegisteredAtResponse

structure BountyDetailResponse where
  id : String
  poster : String
  boardSchemaId : String
  poolNano : String
  perAttestationNano : String
  escrowRemainingNano : String
  status : String
  acceptance : Json
  expiryDaHeight : Int64
  disputeWindowBlocks : Int32
  claimCount : Int32
  postedAt : RegisteredAtResponse
  lastClaimAtSlot : Option Int64

structure ContractDetailResponse where
  id : String
  poster : String
  arbiter : String
  criteriaDocHash : String
  poolNano : String
  escrowRemainingNano : String
  arbiterFeeBps : UInt16
  status : String
  expiryDaHeight : Int64
  disputeWindowBlocks : Int32
  postedAt : RegisteredAtResponse

structure BlockResponse where
  height : UInt64
  hash : String
  parentHash : Option String
  stateRoot : Option String
  timestamp : String
  txCount : Int32
  batchCount : Int32
  proposer : Option String
  sizeBytes : Option UInt64
  finalityStatus : Option String
  finalizedAt : Option String
  daBlockHeight : Option UInt64

structure TxResponse where
  hash : String
  blockHeight : UInt64
  blockHash : Option String
  blockTimestamp : Option String
  position : Int32
  sender : Option String
  senderPubkey : Option String
  nonce : Option Int64
  feePaidNano : Option String
  protocolFeeNano : Option String
  kind : String
  details : Json
  outcome : String
  revertReason : Option String

structure AttestorSetResponse where
  id : String
  members : List String
  threshold : UInt8
  registeredAt : RegisteredAtResponse
  schemaCount : UInt32

structure TokenBalanceResponse where
  tokenId : String
  amountNano : String

structure SeenAtResponse where
  blockHeight : UInt64
  timestamp : String

structure AddressSummaryResponse where
  address : String
  balances : List TokenBalanceResponse
  txCount : UInt64
  firstSeen : Option SeenAtResponse
  lastSeen : Option SeenAtResponse
  schemasOwnedCount : UInt32
  attestorMemberCount : UInt32

variable (env : DetailEnv)

def registeredAt (slot : Int64) (tx : String) (timestamp : Int) : RegisteredAtResponse where
  blockHeight := slot.toUInt64
  txHash := tx
  timestamp := env.toRfc3339 timestamp

/-- `schema_row_to_response` -/
def schemaRowToResponse (row : SchemaRow) : SchemaResponse where
  id := row.id
  name := row.name
  version := row.version.toUInt32
  owner := row.owner
  attestorSetId := row.attestorSetId
  threshold := row.threshold.toUInt32.toUInt8
  feeRoutingBps := row.feeRoutingBps.toUInt32.toUInt16
  feeRoutingAddr := row.feeRoutingAddr
  payloadShapeHash := row.payloadShapeHash
  registeredAt := registeredAt env row.registeredAtSlot row.registeredAtTx row.registeredAtTimestamp
  attestationCount := row.attestationCount.toUInt32

/-- `attestation_row_to_response` -/
def attestationRowToResponse (row : AttestationRow) : AttestationResponse where
  id := row.id
  schemaId := row.schemaId
  payloadHash := row.payloadHash
  submitter := row.submitter
  submitterPubkey := row.submitterPubkey
  signatureCount := row.signatureCount.toUInt32
  submittedAt := registeredAt env row.submittedAtSlot row.submittedAtTx row.submittedAtTimestamp

/-- `bounty_row_to_response` -/
def bountyRowToResponse (row : BountyRow) : BountyDetailResponse where
  id := row.id
  poster := row.poster
  boardSchemaId := row.boardSchemaId
  poolNano := row.poolNano
  perAttestationNano := row.perAttestationNano
  escrowRemainingNano := row.escrowRemainingNano
  status := row.status
  acceptance := row.acceptance
  expiryDaHeight := row.expiryDaHeight
  disputeWindowBlocks := row.disputeWindowBlocks
  claimCount := row.claimCount
  postedAt := registeredAt env row.postedAtSlot row.postedAtTx row.postedAtTimestamp
  lastClaimAtSlot := row.lastClaimAtSlot

/-- `contract_row_to_response` -/
def contractRowToResponse (row : ContractRow) : ContractDetailResponse where
  id := row.id
  poster := row.poster
  arbiter := row.arbiter
  criteriaDocHash := row.criteriaDocHash
  poolNano := row.poolNano
  escrowRemainingNano := row.escrowRemainingNano
  arbiterFeeBps := row.arbiterFeeBps.toUInt32.toUInt16
  status := row.status
  expiryDaHeight := row.expiryDaHeight
  disputeWindowBlocks := row.disputeWindowBlocks
  postedAt := registeredAt env row.postedAtSlot row.postedAtTx row.postedAtTimestamp

/-- `slot_to_block_response` -/
def slotToBlockResponse (row : SlotRow) : BlockResponse where
  height := row.height.toUInt64
  hash := row.hash
  parentHash := row.prevHash
  stateRoot := row.stateRoot
  timestamp := env.toRfc3339 row.timestamp
  txCount := row.txCount
  batchCount := row.batchCount
  proposer := row.proposer
  sizeBytes := none
  finalityStatus := row.finalityStatus
  finalizedAt := row.finalizedAt.map env.toRfc3339
  daBlockHeight := row.daBlockHeight.map Int64.toUInt64

/-- `tx_row_to_response` -/
def txRowToResponse (row : TxRow) : TxResponse where
  hash := row.hash
  blockHeight := row.slot.toUInt64
  blockHash := row.blockHash
  blockTimestamp := row.blockTimestamp.map env.toRfc3339
  position := row.position
  sender := row.sender
  senderPubkey := row.senderPubkey
  nonce := row.nonce
  feePaidNano := row.feePaidNano.map fun n => toString n.toInt
  protocolFeeNano := row.protocolFeeNano.map fun n => toString n.toInt
  kind := row.kind
  details := row.details
  outcome := row.outcome
  revertReason := row.revertReason

/-- `attestor_set_row_to_response` -/
def attestorSetRowToResponse (row : AttestorSetRow) : AttestorSetResponse where
  id := row.id
  members := row.members
  threshold := row.threshold.toUInt32.toUInt8
  registeredAt := registeredAt env row.registeredAtSlot row.registeredAtTx row.registeredAtTimestamp
  schemaCount := row.schemaCount.toUInt32

/-- Slot and timestamp, if both are there. -/
def seenAt (slot : Option Int64) (timestamp : Option Int) : Option SeenAtResponse :=
  match slot, timestamp with
  | some slot, some ts => some { blockHeight := slot.toUInt64, timestamp := env.toRfc3339 ts }
  | _, _ => none

/-! ## Handlers -/

/-- The body of a detail handler. -/
def detail {R B : Type} (query : Except SqlxError (Option R)) (missing : String)
    (id : Option String) (toResponse : R → B) (maxAgeSecs : UInt32) : DetailReply B :=
  match query with
  | .ok (some row) => .found (toResponse row) maxAgeSecs
  | .ok none => .notFound missing id
  | .error _ => .internalError

variable (pg : PgPool)

/-- `GET /v1/schemas/{id}` -/
def schemaById (id : String) : DetailReply SchemaResponse :=
  detail (Queries.schemaById pg id) "schema not found" none (schemaRowToResponse env)
    ttlImmutableSecs

/-- `GET /v1/attestations/{id}` -/
def attestationById (id : String) : DetailReply AttestationResponse :=
  let lowered := env.toLowercase id
  if "lat1".toList.isPrefixOf lowered.toList then
    detail (Queries.attestationById pg lowered) "attestation not found" (some lowered)
      (attestationRowToResponse env) ttlImmutableSecs
  else .badRequest "attestation id must be a bech32m `lat1...` string"

/-- `GET /v1/bounties/{bountyId}` -/
def bountyDetail (id : String) : DetailReply BountyDetailResponse :=
  detail (Queries.bountyById pg id) "bounty not found" none (bountyRowToResponse env) ttlModestSecs

/-- `GET /v1/contracts/{contractId}` -/
def contractDetail (id : String) : DetailReply ContractDetailResponse :=
  detail (Queries.contractById pg id) "contract not found" none (contractRowToResponse env)
    ttlModestSecs

/-- `GET /v1/blocks/{height}` -/
def blockByHeight (height : UInt64) : DetailReply BlockResponse :=
  detail (Queries.slotByHeight pg height.toInt64) "block not found" none (slotToBlockResponse env)
    ttlImmutableSecs

/-- `GET /v1/txs/{hash}` -/
def txByHash (hash : String) : DetailReply TxResponse :=
  detail (Queries.txByHash pg hash) "tx not found" none (txRowToResponse env) ttlImmutableSecs

/-- `GET /v1/attestor-sets/{id}` -/
def attestorSetById (id : String) : DetailReply AttestorSetResponse :=
  detail (Queries.attestorSetById pg id) "attestor set not found" none
    (attestorSetRowToResponse env) ttlImmutableSecs

/-- `GET /v1/addresses/{addr}`; a failing balance lookup leaves the balances out. -/
def addressSummary (avowTokenId : String) (queryBalanceFor : String → Except String Nat)
    (addr : String) : DetailReply AddressSummaryResponse :=
  match Queries.addressSummary pg addr with
  | .error _ => .internalError
  | .ok row =>
    .found
      { address := addr
        balances := match queryBalanceFor addr with
          | .ok b => [{ tokenId := avowTokenId, amountNano := toString b }]
          | .error _ => []
        txCount := (row.txsSentCount + row.txsReceivedCount).toUInt64
        firstSeen := seenAt env row.firstSeenSlot row.firstSeenTimestamp
        lastSeen := seenAt env row.lastSeenSlot row.lastSeenTimestamp
        schemasOwnedCount := row.schemasOwnedCount.toUInt32
        attestorMemberCount := row.attestorMemberCount.toUInt32 } ttlModestSecs

/-! ## Chain identity and head -/

structure RollupInfo where
  chainId : String
  chainHash : String
  version : String

structure InfoResponse where
  chainId : String
  chainHash : String
  version : String
  indexerHeight : Option UInt64
  headHeight : Option UInt64
  headLagSlots : Option UInt64

/-- `GET /v1/info`: what the node does not answer to is left out, and so is what the database does
not. -/
def info (rollupInfo : Option RollupInfo) (latestSlot : Option UInt64) : InfoResponse :=
  let indexerHeight := match Queries.maxSlotHeight pg with
    | .ok h => h.map Int64.toUInt64
    | .error _ => none
  { chainId := rollupInfo.elim "" RollupInfo.chainId
    chainHash := rollupInfo.elim "" RollupInfo.chainHash
    version := rollupInfo.elim "" RollupInfo.version
    indexerHeight
    headHeight := latestSlot
    headLagSlots := match latestSlot, indexerHeight with
      | some head, some at' => some (if at' ≤ head then head - at' else 0)
      | _, _ => none }

/-! ## Matching bounties -/

structure BountyMatchingResponse where
  address : String
  matched : List BountyMatchRow

/-- `MATCH_LIMIT` -/
def matchLimit : Nat := 100

/-- `GET /v1/bounties/matching/{address}` -/
def bountiesMatchingHandler (postgres : Postgres) (address : String) :
    DetailReply BountyMatchingResponse :=
  match Queries.bountiesMatchingAddress postgres pg address matchLimit with
  | .ok rows => .found { address, matched := rows } ttlModestSecs
  | .error _ => .internalError

theorem detail_found {R B : Type} {query : Except SqlxError (Option R)} {missing : String}
    {id : Option String} {toResponse : R → B} {maxAgeSecs : UInt32} {p : B → Prop} :
    (∃ body age, detail query missing id toResponse maxAgeSecs = .found body age ∧ p body) ↔
      ∃ row, query = .ok (some row) ∧ p (toResponse row) := by
  unfold detail
  constructor
  · rintro ⟨body, age, h, hp⟩
    split at h
    · rename_i row
      cases h
      exact ⟨row, rfl, hp⟩
    · cases h
    · cases h
  · rintro ⟨row, rfl, hp⟩
    exact ⟨_, _, rfl, hp⟩

end LigateApi.Api
