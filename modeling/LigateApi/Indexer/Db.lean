import Mathlib.Data.List.Sort
import LigateApi.Indexer.Parser
import LigateApi.Lib.Table

/-!
# The database and the indexer's statements

`Db` holds the rows of the migrated schema; the JSON copies `raw` and the `indexed_at` stamps,
which nothing reads, are left out. Each helper of the source's database module is a function into
`Except DbError Db` and enforces the constraints in the order Postgres does: the CHECKs of the
proposed row before anything else, then `ON CONFLICT` on its own key only, then the CHECKs of the
row as updated, the other unique keys and the foreign keys. `BIGINT` and `INTEGER` columns are
`Int64` and `Int32`; an increment past the range is an error.
-/

namespace LigateApi.Indexer

open Lib

inductive DbError
  | check (constraint : String)
  | unique (constraint : String)
  | foreignKey (constraint : String)
  | outOfRange
  | invalidNumeric
  deriving DecidableEq, Repr

/-! ## Rows -/

/-- A row of `slots`; instants are counted from the Unix epoch. -/
structure SlotRow where
  height : Int64
  hash : String
  prevHash : Option String
  stateRoot : Option String
  timestamp : Int
  batchCount : Int32
  txCount : Int32
  proposer : Option String
  finalityStatus : Option String
  finalizedAt : Option Int
  daBlockHeight : Option Int64
  deriving DecidableEq

structure TxRow where
  hash : String
  slot : Int64
  position : Int32
  sender : Option String
  senderPubkey : Option String
  nonce : Option Int64
  feePaidNano : Option Int64
  protocolFeeNano : Option Int64
  kind : String
  details : Json
  outcome : String
  revertReason : Option String

structure AttestorSetRow where
  id : String
  members : List String
  threshold : Int32
  registeredAtSlot : Int64
  registeredAtTx : String
  registeredAtTimestamp : Int
  schemaCount : Int32
  deriving DecidableEq

structure SchemaRow where
  id : String
  name : String
  version : Int32
  owner : String
  attestorSetId : String
  feeRoutingBps : Int32
  feeRoutingAddr : Option String
  payloadShapeHash : String
  registeredAtSlot : Int64
  registeredAtTx : String
  registeredAtTimestamp : Int
  attestationCount : Int32
  deriving DecidableEq

structure AttestationRow where
  id : String
  schemaId : String
  payloadHash : String
  submitter : String
  submitterPubkey : Option String
  submittedAtSlot : Int64
  submittedAtTx : String
  submittedAtTimestamp : Int
  signatureCount : Int32
  deriving DecidableEq

structure AddressSummaryRow where
  address : String
  txsSentCount : Int64
  txsReceivedCount : Int64
  firstSeenSlot : Option Int64
  firstSeenTx : Option String
  firstSeenTimestamp : Option Int
  lastSeenSlot : Option Int64
  lastSeenTx : Option String
  lastSeenTimestamp : Option Int
  schemasOwnedCount : Int32
  attestorMemberCount : Int32
  deriving DecidableEq

structure BountyRow where
  id : String
  poster : String
  boardSchemaId : String
  poolNano : String
  perAttestationNano : String
  escrowRemainingNano : String
  status : String
  acceptance : Json
  expiryDaHeight : Int64
  disputeWindowBlocks : Int32
  postedAtSlot : Int64
  postedAtTx : String
  postedAtTimestamp : Int
  claimCount : Int32
  lastClaimAtSlot : Option Int64

structure ContractRow where
  id : String
  poster : String
  arbiter : String
  criteriaDocHash : String
  poolNano : String
  escrowRemainingNano : String
  arbiterFeeBps : Int32
  status : String
  expiryDaHeight : Int64
  disputeWindowBlocks : Int32
  postedAtSlot : Int64
  postedAtTx : String
  postedAtTimestamp : Int

/-- The tables. Of `indexer_state` only the resume cursor is kept, as the number its text spells. -/
structure Db where
  slots : List SlotRow
  lastIndexedHeight : Option UInt64
  transactions : List TxRow
  attestorSets : List AttestorSetRow
  schemas : List SchemaRow
  attestations : List AttestationRow
  addressSummaries : List AddressSummaryRow
  bounties : List BountyRow
  contracts : List ContractRow

/-- A freshly migrated database. -/
def Db.empty : Db := ⟨[], none, [], [], [], [], [], [], []⟩

/-- What the indexer takes from outside: codecs, JSON decoding, Postgres' subtraction of numerics
in text form, and the numeric chain id it is configured with. -/
structure Env where
  codec : Codec
  serde : Serde
  /-- `($1::numeric - $2::numeric)::text`, which fails on a text that is no number. -/
  numericSub : String → String → Option String
  numericChainId : UInt64

/-! ## Statement parts -/

/-- A constraint that has to hold for the statement to go on. -/
def require (p : Prop) [Decidable p] (e : DbError) : Except DbError Unit :=
  if p then .ok () else .error e

/-- `n + k` on an `INTEGER` column. -/
def addInt32 (n k : Int32) : Except DbError Int32 :=
  if -2 ^ 31 ≤ n.toInt + k.toInt ∧ n.toInt + k.toInt < 2 ^ 31 then .ok (n + k)
  else .error .outOfRange

/-- `n + k` on a `BIGINT` column. -/
def addInt64 (n k : Int64) : Except DbError Int64 :=
  if -2 ^ 63 ≤ n.toInt + k.toInt ∧ n.toInt + k.toInt < 2 ^ 63 then .ok (n + k)
  else .error .outOfRange

/-- `i32::try_from(n).unwrap_or(i32::MAX)` -/
def clampInt32 (n : UInt32) : Int32 :=
  if n.toNat < 2 ^ 31 then n.toInt32 else Int32.maxValue

/-- `i64::try_from(n).unwrap_or(i64::MAX)` -/
def clampInt64 (n : UInt64) : Int64 :=
  if n.toNat < 2 ^ 63 then n.toInt64 else Int64.maxValue

/-- `n as i32` of an unsigned 64-bit number: its low 32 bits. -/
def truncInt32 (n : UInt64) : Int32 := n.toUInt32.toInt32

namespace Db

def hasSlot (db : Db) (height : Int64) : Prop := ∃ r ∈ db.slots, r.height = height
def hasTx (db : Db) (hash : String) : Prop := ∃ r ∈ db.transactions, r.hash = hash
def hasAttestorSet (db : Db) (id : String) : Prop := ∃ r ∈ db.attestorSets, r.id = id
def hasSchema (db : Db) (id : String) : Prop := ∃ r ∈ db.schemas, r.id = id
def hasAttestation (db : Db) (id : String) : Prop := ∃ r ∈ db.attestations, r.id = id

instance (db : Db) (h : Int64) : Decidable (db.hasSlot h) :=
  inferInstanceAs (Decidable (∃ r ∈ db.slots, r.height = h))
instance (db : Db) (h : String) : Decidable (db.hasTx h) :=
  inferInstanceAs (Decidable (∃ r ∈ db.transactions, r.hash = h))
instance (db : Db) (i : String) : Decidable (db.hasAttestorSet i) :=
  inferInstanceAs (Decidable (∃ r ∈ db.attestorSets, r.id = i))
instance (db : Db) (i : String) : Decidable (db.hasSchema i) :=
  inferInstanceAs (Decidable (∃ r ∈ db.schemas, r.id = i))
instance (db : Db) (i : String) : Decidable (db.hasAttestation i) :=
  inferInstanceAs (Decidable (∃ r ∈ db.attestations, r.id = i))

end Db

/-! ## Slots -/

/-- `Utc.timestamp_millis_opt(ms as i64).single()`, with the epoch for what `chrono` cannot
represent. -/
def slotTimestamp (ms : Option UInt64) : Int :=
  match ms with
  | some ms =>
    let t := ms.toInt64.toInt
    if -8334601228800000 ≤ t ∧ t ≤ 8210266876799999 then t else 0
  | none => 0

/-- The `prev_hash` `upsert_slot` binds: the chain's, else the stored hash of the slot below. A
failing lookup counts as no hash. -/
def slotPrevHash (db : Db) (slot : SlotResponse) (lookupOk : Bool) : Option String :=
  match slot.prevHash with
  | some h => some h
  | none =>
    if 0 < slot.number ∧ lookupOk = true then
      (Table.lookup SlotRow.height (slot.number - 1).toInt64 db.slots).map SlotRow.hash
    else none

/-- The row `upsert_slot` proposes at the instant `now`. -/
def slotRow (db : Db) (slot : SlotResponse) (proposer : Option String)
    (daBlockHeight : Option Int64) (now : Int) (lookupOk : Bool) : SlotRow where
  height := slot.number.toInt64
  hash := slot.hash
  prevHash := slotPrevHash db slot lookupOk
  stateRoot := slot.stateRoot
  timestamp := slotTimestamp slot.timestamp
  batchCount := truncInt32 (slot.batchCount.getD 0)
  txCount := truncInt32 (slot.txCount.getD 0)
  proposer := proposer
  finalityStatus := slot.finalityStatus
  finalizedAt := if slot.finalityStatus = some "finalized" then some now else none
  daBlockHeight := daBlockHeight

/-- The `DO UPDATE` of `upsert_slot`: `row` is `EXCLUDED`, `old` the stored row. -/
def mergeSlotRow (row : SlotRow) (now : Int) (old : SlotRow) : SlotRow :=
  { old with
    hash := row.hash
    prevHash := row.prevHash.or old.prevHash
    stateRoot := row.stateRoot
    timestamp := row.timestamp
    batchCount := row.batchCount
    txCount := row.txCount
    proposer := row.proposer.or old.proposer
    finalityStatus := row.finalityStatus
    finalizedAt :=
      if old.finalityStatus ≠ some "finalized" ∧ row.finalityStatus = some "finalized"
      then some now else old.finalizedAt
    daBlockHeight := row.daBlockHeight.or old.daBlockHeight }

/-- `upsert_slot`; `slots` has no constraint but its key. -/
def upsertSlot (slot : SlotResponse) (proposer : Option String) (daBlockHeight : Option Int64)
    (now : Int) (lookupOk : Bool) (db : Db) : Db :=
  let row := slotRow db slot proposer daBlockHeight now lookupOk
  { db with slots := Table.upsert SlotRow.height row (mergeSlotRow row now) db.slots }

/-- One `UPDATE` of `flip_pending_slots`. -/
def flipPendingSlot (height : UInt64) (now : Int) (db : Db) : Db :=
  { db with
    slots := Table.update SlotRow.height height.toInt64 (fun r =>
      if r.finalityStatus = some "pending" then
        { r with finalityStatus := some "finalized", finalizedAt := some now }
      else r) db.slots }

/-- `pending_slot_heights` -/
def pendingSlotHeights (db : Db) : List UInt64 :=
  (((db.slots.filter fun r => r.finalityStatus = some "pending").map SlotRow.height).insertionSort
    (· ≤ ·)).map Int64.toUInt64

/-- `read_last_indexed_height` on a database that answers. -/
def readLastIndexedHeight (db : Db) : Option UInt64 := db.lastIndexedHeight

/-- `write_last_indexed_height` -/
def writeLastIndexedHeight (height : UInt64) (db : Db) : Db :=
  { db with lastIndexedHeight := some height }

/-! ## Transactions -/

/-- `bounty_event_kind_label` -/
def bountyEventKindLabel : BountyEventKind → String
  | .posted => "posted"
  | .claimed _ _ => "claimed"
  | .disputed => "disputed"
  | .disputeResolved => "dispute_resolved"
  | .expired => "expired"
  | .finalised => "finalised"

/-- `contract_event_kind_label` -/
def contractEventKindLabel : ContractEventKind → String
  | .posted => "posted"
  | .committed => "committed"
  | .delivered => "delivered"
  | .accepted => "accepted"
  | .rejected => "rejected"
  | .disputeResolved => "dispute_resolved"
  | .cancelled => "cancelled"
  | .expired => "expired"

/-- The `kind` and `details` columns of a classified transaction. -/
def kindAndDetails : IndexerTx → String × Json
  | .transfer t => ("transfer", .obj [("from", .str t.src), ("to", .str t.dst),
      ("amount_nano", .str t.amountNano), ("token_id", .str t.tokenId)])
  | .registerAttestorSet d => ("register_attestor_set",
      .obj [("attestor_set_id", .str d.attestorSetId), ("members", .arr (d.members.map .str)),
        ("threshold", .num d.threshold.toNat)])
  | .registerSchema d => ("register_schema",
      .obj [("schema_id", .str d.schemaId), ("name", .str d.name),
        ("version", .num d.version.toNat), ("attestor_set_id", .str d.attestorSetId),
        ("fee_routing_bps", .num d.feeRoutingBps.toNat),
        ("fee_routing_addr", d.feeRoutingAddr.elim .null .str),
        ("payload_shape_hash", .str d.payloadShapeHash)])
  | .submitAttestation d => ("submit_attestation",
      .obj [("schema_id", .str d.schemaId), ("payload_hash", .str d.payloadHash),
        ("signature_count", .num d.signatureCount.toNat)])
  | .bountyEvent bountyId kind => ("bounty_event",
      .obj ([("bounty_id", .str bountyId), ("event", .str (bountyEventKindLabel kind))] ++
        match kind with
        | .claimed count totalPayout =>
          [("claim_count", .num count.toNat), ("total_payout_nano", .str totalPayout)]
        | _ => []))
  | .contractEvent contractId kind => ("contract_event",
      .obj [("contract_id", .str contractId), ("event", .str (contractEventKindLabel kind))])
  | .unknown eventKeys => ("unknown", .obj [("event_keys", .arr (eventKeys.map .str))])

/-- The address the events name as the sender. -/
def eventSender : IndexerTx → Option String
  | .transfer t => some t.src
  | .registerAttestorSet d => some d.registeredBy
  | .registerSchema d => some d.owner
  | .submitAttestation d => some d.submitter
  | .bountyEvent _ _ => none
  | .contractEvent _ _ => none
  | .unknown _ => none

/-- The flat protocol fee of each kind. -/
def protocolFeeNano : IndexerTx → Option Int64
  | .transfer _ => some 0
  | .registerAttestorSet _ => some 50000000
  | .registerSchema _ => some 100000000
  | .submitAttestation _ => some 100000
  | .bountyEvent _ _ => none
  | .contractEvent _ _ => none
  | .unknown _ => none

/-- The `outcome` column; a skipped transaction has none. -/
def outcomeText : TxOutcome → Option String
  | .committed => some "committed"
  | .reverted => some "reverted"
  | .skipped => none

/-- The row `insert_transaction` proposes: its `revert_reason` is always `NULL`. -/
def txRow (classified : ClassifiedTx) (slotHeight : UInt64) (position : Int32)
    (decoded : Option DecodedTxBody) (outcome : String) : TxRow where
  hash := classified.hash
  slot := slotHeight.toInt64
  position := position
  sender := (decoded.map DecodedTxBody.sender).or (eventSender classified.kind)
  senderPubkey := decoded.map DecodedTxBody.senderPubkey
  nonce := (decoded.bind DecodedTxBody.nonce).map clampInt64
  feePaidNano := some 0
  protocolFeeNano := protocolFeeNano classified.kind
  kind := (kindAndDetails classified.kind).1
  details := (kindAndDetails classified.kind).2
  outcome := outcome
  revertReason := none

def knownKinds : List String :=
  ["transfer", "register_attestor_set", "register_schema", "submit_attestation", "bounty_event",
    "contract_event", "unknown"]

/-- The CHECK constraints of `transactions`. -/
def TxRow.check (r : TxRow) : Except DbError Unit := do
  require (r.kind ∈ knownKinds) (.check "transactions_kind_known")
  require (r.outcome ∈ ["committed", "reverted"]) (.check "transactions_outcome_known")
  require ((r.outcome = "reverted" ∧ r.revertReason.isSome) ∨
    (r.outcome = "committed" ∧ r.revertReason.isNone))
    (.check "transactions_revert_reason_consistent")

/-- The `DO UPDATE` of `insert_transaction`. -/
def mergeTxRow (row old : TxRow) : TxRow :=
  { old with
    slot := row.slot
    position := row.position
    sender := row.sender.or old.sender
    senderPubkey := row.senderPubkey.or old.senderPubkey
    nonce := row.nonce.or old.nonce
    feePaidNano := row.feePaidNano
    protocolFeeNano := row.protocolFeeNano
    kind := row.kind
    details := row.details
    outcome := row.outcome }

/-- Another transaction sits at the slot and position of `row`. -/
def Db.positionTaken (db : Db) (row : TxRow) : Prop :=
  ∃ r ∈ db.transactions, r.hash ≠ row.hash ∧ r.slot = row.slot ∧ r.position = row.position

instance (db : Db) (row : TxRow) : Decidable (db.positionTaken row) :=
  inferInstanceAs (Decidable
    (∃ r ∈ db.transactions, r.hash ≠ row.hash ∧ r.slot = row.slot ∧ r.position = row.position))

/-- The upsert of `insert_transaction`. -/
def upsertTxRow (row : TxRow) (db : Db) : Except DbError Db := do
  row.check
  match Table.lookup TxRow.hash row.hash db.transactions with
  | some old => (mergeTxRow row old).check
  | none => .ok ()
  require (¬ db.positionTaken row) (.unique "transactions_slot_position_unique")
  require (db.hasSlot row.slot) (.foreignKey "transactions_slot_fkey")
  return { db with
    transactions := Table.upsert TxRow.hash row (mergeTxRow row) db.transactions }

/-- `insert_transaction` -/
def insertTransaction (classified : ClassifiedTx) (slotHeight : UInt64) (position : Int32)
    (decoded : Option DecodedTxBody) (db : Db) : Except DbError Db :=
  match outcomeText classified.outcome with
  | some outcome => upsertTxRow (txRow classified slotHeight position decoded outcome) db
  | none => .ok db

/-! ## Attestor sets, schemas, attestations -/

/-- `insert_attestor_set`: a conflict keeps `schema_count`. -/
def insertAttestorSet (d : IndexerRegisterAttestorSet) (txHash : String) (slotHeight : UInt64)
    (timestamp : Int) (db : Db) : Except DbError Db := do
  let row : AttestorSetRow :=
    { id := d.attestorSetId, members := d.members, threshold := Int32.ofNat d.threshold.toNat,
      registeredAtSlot := slotHeight.toInt64, registeredAtTx := txHash,
      registeredAtTimestamp := timestamp, schemaCount := 0 }
  require (1 ≤ d.threshold.toNat ∧ d.threshold.toNat ≤ 64) (.check "attestor_sets_threshold_range")
  require (db.hasSlot row.registeredAtSlot) (.foreignKey "attestor_sets_registered_at_slot_fkey")
  require (db.hasTx txHash) (.foreignKey "attestor_sets_registered_at_tx_fkey")
  return { db with
    attestorSets := Table.upsert AttestorSetRow.id row
      (fun old => { row with id := old.id, schemaCount := old.schemaCount }) db.attestorSets }

def schemaRow (d : IndexerRegisterSchema) (txHash : String) (slotHeight : UInt64)
    (timestamp : Int) : SchemaRow where
  id := d.schemaId
  name := d.name
  version := clampInt32 d.version
  owner := d.owner
  attestorSetId := d.attestorSetId
  feeRoutingBps := Int32.ofNat d.feeRoutingBps.toNat
  feeRoutingAddr := d.feeRoutingAddr
  payloadShapeHash := d.payloadShapeHash
  registeredAtSlot := slotHeight.toInt64
  registeredAtTx := txHash
  registeredAtTimestamp := timestamp
  attestationCount := 0

/-- `insert_schema`: a conflict changes nothing, since schemas are immutable on the chain. -/
def insertSchema (d : IndexerRegisterSchema) (txHash : String) (slotHeight : UInt64)
    (timestamp : Int) (db : Db) : Except DbError Db := do
  let row := schemaRow d txHash slotHeight timestamp
  require (d.feeRoutingBps.toNat ≤ 10000) (.check "schemas_fee_routing_bps_range")
  require ((0 < d.feeRoutingBps.toNat ∧ d.feeRoutingAddr.isSome) ∨
    (d.feeRoutingBps.toNat = 0 ∧ d.feeRoutingAddr.isNone))
    (.check "schemas_fee_routing_addr_consistent")
  if db.hasSchema row.id then return db
  require (¬ ∃ r ∈ db.schemas, r.owner = row.owner ∧ r.name = row.name ∧ r.version = row.version)
    (.unique "schemas_owner_name_version_unique")
  require (db.hasAttestorSet row.attestorSetId) (.foreignKey "schemas_attestor_set_id_fkey")
  require (db.hasSlot row.registeredAtSlot) (.foreignKey "schemas_registered_at_slot_fkey")
  require (db.hasTx txHash) (.foreignKey "schemas_registered_at_tx_fkey")
  return { db with schemas := db.schemas ++ [row] }

def attestationRow (d : IndexerSubmitAttestation) (txHash : String) (slotHeight : UInt64)
    (timestamp : Int) : AttestationRow where
  id := d.id
  schemaId := d.schemaId
  payloadHash := d.payloadHash
  submitter := d.submitter
  submitterPubkey := none
  submittedAtSlot := slotHeight.toInt64
  submittedAtTx := txHash
  submittedAtTimestamp := timestamp
  signatureCount := clampInt32 d.signatureCount

/-- `insert_attestation`: a conflict on the id refreshes the signature count. -/
def insertAttestation (d : IndexerSubmitAttestation) (txHash : String) (slotHeight : UInt64)
    (timestamp : Int) (db : Db) : Except DbError Db := do
  let row := attestationRow d txHash slotHeight timestamp
  require (1 ≤ row.signatureCount.toInt) (.check "attestations_signature_count_pos")
  if db.hasAttestation row.id then
    return { db with
      attestations := Table.update AttestationRow.id row.id
        (fun old => { old with signatureCount := row.signatureCount }) db.attestations }
  require (¬ ∃ r ∈ db.attestations,
    r.schemaId = row.schemaId ∧ r.payloadHash = row.payloadHash ∧ r.submittedAtTx = txHash)
    (.unique "attestations_pkey")
  require (db.hasSchema row.schemaId) (.foreignKey "attestations_schema_id_fkey")
  require (db.hasSlot row.submittedAtSlot) (.foreignKey "attestations_submitted_at_slot_fkey")
  require (db.hasTx txHash) (.foreignKey "attestations_submitted_at_tx_fkey")
  return { db with attestations := db.attestations ++ [row] }

/-! ## Counters -/

/-- `bump_attestor_set_schema_count`; without the row it updates nothing. -/
def bumpAttestorSetSchemaCount (id : String) (db : Db) : Except DbError Db :=
  match Table.lookup AttestorSetRow.id id db.attestorSets with
  | none => .ok db
  | some r => do
    let n ← addInt32 r.schemaCount 1
    require (0 ≤ n.toInt) (.check "attestor_sets_schema_count_nonneg")
    return { db with
      attestorSets := Table.update AttestorSetRow.id id
        (fun r => { r with schemaCount := n }) db.attestorSets }

/-- `bump_schema_attestation_count` -/
def bumpSchemaAttestationCount (id : String) (db : Db) : Except DbError Db :=
  match Table.lookup SchemaRow.id id db.schemas with
  | none => .ok db
  | some r => do
    let n ← addInt32 r.attestationCount 1
    require (0 ≤ n.toInt) (.check "schemas_attestation_count_nonneg")
    return { db with
      schemas := Table.update SchemaRow.id id
        (fun r => { r with attestationCount := n }) db.schemas }

/-- The CHECK constraints of `address_summaries`. -/
def AddressSummaryRow.check (r : AddressSummaryRow) : Except DbError Unit := do
  require (0 ≤ r.txsSentCount.toInt ∧ 0 ≤ r.txsReceivedCount.toInt ∧
    0 ≤ r.schemasOwnedCount.toInt ∧ 0 ≤ r.attestorMemberCount.toInt)
    (.check "address_summaries_counts_nonneg")
  require ((r.firstSeenSlot = none ∧ r.firstSeenTx = none ∧ r.firstSeenTimestamp = none) ∨
    (r.firstSeenSlot ≠ none ∧ r.firstSeenTx ≠ none ∧ r.firstSeenTimestamp ≠ none))
    (.check "address_summaries_first_seen_consistent")
  require ((r.lastSeenSlot = none ∧ r.lastSeenTx = none ∧ r.lastSeenTimestamp = none) ∨
    (r.lastSeenSlot ≠ none ∧ r.lastSeenTx ≠ none ∧ r.lastSeenTimestamp ≠ none))
    (.check "address_summaries_last_seen_consistent")

inductive AddressRole
  | sender
  | receiver
  deriving DecidableEq, Repr

/-- A summary of an address seen in one transaction. -/
def freshSummary (address : String) (slotHeight : UInt64) (txHash : String) (timestamp : Int) :
    AddressSummaryRow where
  address := address
  txsSentCount := 0
  txsReceivedCount := 0
  firstSeenSlot := some slotHeight.toInt64
  firstSeenTx := some txHash
  firstSeenTimestamp := some timestamp
  lastSeenSlot := some slotHeight.toInt64
  lastSeenTx := some txHash
  lastSeenTimestamp := some timestamp
  schemasOwnedCount := 0
  attestorMemberCount := 0

/-- `bump_address_schemas_owned` -/
def bumpAddressSchemasOwned (owner : String) (slotHeight : UInt64) (txHash : String)
    (timestamp : Int) (db : Db) : Except DbError Db :=
  match Table.lookup AddressSummaryRow.address owner db.addressSummaries with
  | none =>
    .ok { db with
      addressSummaries := db.addressSummaries ++
        [{ freshSummary owner slotHeight txHash timestamp with schemasOwnedCount := 1 }] }
  | some old => do
    let n ← addInt32 old.schemasOwnedCount 1
    let row := { old with schemasOwnedCount := n }
    row.check
    return { db with
      addressSummaries :=
        Table.update AddressSummaryRow.address owner (fun _ => row) db.addressSummaries }

/-- The `DO UPDATE` of `upsert_address_activity`, the new counts given. `LEAST` and `GREATEST` pass
over `NULL`. -/
def mergeActivity (old : AddressSummaryRow) (sent received : Int64) (slot : Int64)
    (txHash : String) (timestamp : Int) : AddressSummaryRow :=
  { old with
    txsSentCount := sent
    txsReceivedCount := received
    firstSeenSlot := some (old.firstSeenSlot.elim slot fun s => if slot < s then slot else s)
    firstSeenTx :=
      if old.firstSeenSlot.all (fun s => slot < s) then some txHash else old.firstSeenTx
    firstSeenTimestamp :=
      if old.firstSeenTimestamp.all (fun t => timestamp < t) then some timestamp
      else old.firstSeenTimestamp
    lastSeenSlot := some (old.lastSeenSlot.elim slot fun s => if s < slot then slot else s)
    lastSeenTx :=
      if old.lastSeenSlot.all (fun s => s < slot) then some txHash else old.lastSeenTx
    lastSeenTimestamp :=
      if old.lastSeenTimestamp.all (fun t => t < timestamp) then some timestamp
      else old.lastSeenTimestamp }

/-- `upsert_address_activity` -/
def upsertAddressActivity (address : String) (role : AddressRole) (slotHeight : UInt64)
    (txHash : String) (timestamp : Int) (db : Db) : Except DbError Db := do
  let (sentInc, recvInc) : Int64 × Int64 := match role with
    | .sender => (1, 0)
    | .receiver => (0, 1)
  match Table.lookup AddressSummaryRow.address address db.addressSummaries with
  | none =>
    return { db with
      addressSummaries := db.addressSummaries ++
        [{ freshSummary address slotHeight txHash timestamp with
            txsSentCount := sentInc, txsReceivedCount := recvInc }] }
  | some old =>
    let sent ← addInt64 old.txsSentCount sentInc
    let received ← addInt64 old.txsReceivedCount recvInc
    let row := mergeActivity old sent received slotHeight.toInt64 txHash timestamp
    row.check
    return { db with
      addressSummaries :=
        Table.update AddressSummaryRow.address address (fun _ => row) db.addressSummaries }

/-! ## Bounties -/

/-- `map_bounty_status` -/
def mapBountyStatus (chainStatus : String) : String :=
  match chainStatus with
  | "Open" => "open"
  | "Exhausted" => "exhausted"
  | "Expired" => "expired"
  | "Cancelled" => "cancelled"
  | "Finalised" => "finalised"
  | _ => "open"

def bountyRow (id : String) (record : BountyRecord) (postedAtSlot : UInt64) (postedAtTx : String)
    (postedAtTimestamp : Int) : BountyRow where
  id := id
  poster := record.poster
  boardSchemaId := record.boardSchemaId
  poolNano := record.pool
  perAttestationNano := record.perAttestation
  escrowRemainingNano := record.pool
  status := mapBountyStatus record.status
  acceptance := record.acceptance
  expiryDaHeight := record.expiryDaHeight.toInt64
  disputeWindowBlocks := clampInt32 record.disputeWindowBlocks
  postedAtSlot := postedAtSlot.toInt64
  postedAtTx := postedAtTx
  postedAtTimestamp := postedAtTimestamp
  claimCount := 0
  lastClaimAtSlot := none

/-- The `DO UPDATE` of `upsert_bounty`: escrow, claim count, last claim and the posting columns
keep their values. -/
def mergeBountyRow (row old : BountyRow) : BountyRow :=
  { old with
    poster := row.poster
    boardSchemaId := row.boardSchemaId
    poolNano := row.poolNano
    perAttestationNano := row.perAttestationNano
    status := row.status
    acceptance := row.acceptance
    expiryDaHeight := row.expiryDaHeight
    disputeWindowBlocks := row.disputeWindowBlocks }

/-- `upsert_bounty` -/
def upsertBounty (id : String) (record : BountyRecord) (postedAtSlot : UInt64)
    (postedAtTx : String) (postedAtTimestamp : Int) (db : Db) : Except DbError Db := do
  let row := bountyRow id record postedAtSlot postedAtTx postedAtTimestamp
  require (row.status ∈ ["open", "exhausted", "expired", "cancelled", "finalised"])
    (.check "bounties_status_check")
  require (db.hasSchema row.boardSchemaId) (.foreignKey "bounties_board_schema_id_fkey")
  return { db with bounties := Table.upsert BountyRow.id row (mergeBountyRow row) db.bounties }

/-- `apply_bounty_claim` -/
def applyBountyClaim (env : Env) (id totalPayout : String) (count : Int32) (slot : UInt64)
    (db : Db) : Except DbError Db :=
  match Table.lookup BountyRow.id id db.bounties with
  | none => .ok db
  | some r =>
    match env.numericSub r.escrowRemainingNano totalPayout with
    | none => .error .invalidNumeric
    | some escrow => do
      let claims ← addInt32 r.claimCount count
      return { db with
        bounties := Table.update BountyRow.id id
          (fun r => { r with escrowRemainingNano := escrow, claimCount := claims,
                             lastClaimAtSlot := some slot.toInt64 }) db.bounties }

/-- `set_bounty_escrow_zero` -/
def setBountyEscrowZero (id : String) (db : Db) : Except DbError Db :=
  .ok { db with
    bounties := Table.update BountyRow.id id
      (fun r => { r with escrowRemainingNano := "0" }) db.bounties }

/-! ## Contracts -/

/-- `map_contract_status` -/
def mapContractStatus (chainStatus : String) : String :=
  match chainStatus with
  | "Open" => "open"
  | "Committed" => "committed"
  | "Delivered" => "delivered"
  | "Accepted" => "accepted"
  | "Rejected" => "rejected"
  | "Disputed" => "disputed"
  | "Cancelled" => "cancelled"
  | "Expired" => "expired"
  | _ => "open"

def contractRow (serde : Serde) (id : String) (record : ContractRecord) (postedAtSlot : UInt64)
    (postedAtTx : String) (postedAtTimestamp : Int) : ContractRow where
  id := id
  poster := record.poster
  arbiter := record.arbiter
  criteriaDocHash := serde.stringify record.criteriaDocHash
  poolNano := record.pool
  escrowRemainingNano := record.pool
  arbiterFeeBps := Int32.ofNat record.arbiterFeeBps.toNat
  status := mapContractStatus record.status
  expiryDaHeight := record.expiryDaHeight.toInt64
  disputeWindowBlocks := clampInt32 record.disputeWindowBlocks
  postedAtSlot := postedAtSlot.toInt64
  postedAtTx := postedAtTx
  postedAtTimestamp := postedAtTimestamp

/-- The `DO UPDATE` of `upsert_contract`. -/
def mergeContractRow (row old : ContractRow) : ContractRow :=
  { old with
    poster := row.poster
    arbiter := row.arbiter
    criteriaDocHash := row.criteriaDocHash
    poolNano := row.poolNano
    arbiterFeeBps := row.arbiterFeeBps
    status := row.status
    expiryDaHeight := row.expiryDaHeight
    disputeWindowBlocks := row.disputeWindowBlocks }

/-- `upsert_contract` -/
def upsertContract (env : Env) (id : String) (record : ContractRecord) (postedAtSlot : UInt64)
    (postedAtTx : String) (postedAtTimestamp : Int) (db : Db) : Except DbError Db := do
  let row := contractRow env.serde id record postedAtSlot postedAtTx postedAtTimestamp
  require (row.status ∈ ["open", "committed", "delivered", "accepted", "rejected", "disputed",
    "cancelled", "expired"]) (.check "contracts_status_check")
  return { db with
    contracts := Table.upsert ContractRow.id row (mergeContractRow row) db.contracts }

/-- `set_contract_escrow_zero` -/
def setContractEscrowZero (id : String) (db : Db) : Except DbError Db :=
  .ok { db with
    contracts := Table.update ContractRow.id id
      (fun r => { r with escrowRemainingNano := "0" }) db.contracts }

end LigateApi.Indexer
