import Mathlib.Data.Prod.Lex
import LigateApi.Indexer.Db
import LigateApi.Lib.Keyset

/-!
# List queries

Each query selects from the indexer's tables, filters, keeps what is below its cursor in a
row-wise comparison, and orders by the same columns (`select`). `NULL` filters are inert. Where
several rows share a sort key their order is that of the table.
-/

namespace LigateApi.Api.Queries

open Lib Indexer

structure SqlxError where
  message : String

/-- The database as a query finds it, or the query's error. -/
abbrev PgPool := Except SqlxError Db

/-- A text column's order. A deterministic collation tells any two texts apart. -/
structure Collation where
  SortKey : Type
  order : LinearOrder SortKey
  sortKey : String → SortKey
  injective : Function.Injective sortKey

attribute [instance] Collation.order

/-- What the queries take from Postgres: the collation, and the text form of a `jsonb` value. -/
structure Postgres where
  collation : Collation
  jsonbText : Json → String

variable {R K : Type} [LinearOrder K]

/-- `SELECT … WHERE key < before ORDER BY key DESC LIMIT n` -/
def select (key : R → K) (rows : List R) (before : Option K) (limitPlusOne : Nat) : List R :=
  (Keyset.remaining key rows before).take limitPlusOne

/-! ## Slots -/

def slotKey (r : SlotRow) : Int := r.height.toInt

/-- `slots_page` -/
def slotsPage (pg : PgPool) (beforeHeight : Option Int64) (limitPlusOne : Nat) :
    Except SqlxError (List SlotRow) :=
  pg.map fun db => select slotKey db.slots (beforeHeight.map Int64.toInt) limitPlusOne

/-! ## Transactions -/

/-- A row of `transactions` joined with its slot. -/
structure TxRow extends Indexer.TxRow where
  blockHash : Option String
  blockTimestamp : Option Int

structure TxsCursor where
  slot : Int64
  position : Int32

/-- `(slot, position)` -/
def TxsCursor.key (c : TxsCursor) : Int ×ₗ Int := toLex (c.slot.toInt, c.position.toInt)

def txKey (r : TxRow) : Int ×ₗ Int := TxsCursor.key { slot := r.slot, position := r.position }

/-- `transactions t JOIN slots s ON s.height = t.slot` -/
def txRows (db : Db) : List TxRow :=
  Table.join Indexer.TxRow.slot SlotRow.height
    (fun t s => { t with blockHash := some s.hash, blockTimestamp := some s.timestamp })
    db.transactions db.slots

/-- The rows `txs_page` selects from. -/
def txsMatching (kindFilter : Option String) (blockHeight : Option UInt64) (db : Db) : List TxRow :=
  (txRows db).filter fun t =>
    kindFilter.all (fun kind => t.kind = kind) &&
      (blockHeight.map UInt64.toInt64).all fun height => t.slot = height

/-- `txs_page` -/
def txsPage (pg : PgPool) (kindFilter : Option String) (blockHeight : Option UInt64)
    (before : Option TxsCursor) (limitPlusOne : Nat) : Except SqlxError (List TxRow) :=
  pg.map fun db =>
    select txKey (txsMatching kindFilter blockHeight db) (before.map TxsCursor.key) limitPlusOne

/-- `details->>key` -/
def Postgres.fieldText (postgres : Postgres) (key : String) : Json → Option String
  | .obj fields =>
    match fields.lookup key with
    | none => none
    | some .null => none
    | some (.str s) => some s
    | some other => some (postgres.jsonbText other)
  | _ => none

/-- The address took part as sender, or as either side of a transfer. -/
def addressTxsMatching (postgres : Postgres) (addr : String) (db : Db) : List TxRow :=
  (txRows db).filter fun t =>
    t.sender = some addr ||
      (t.kind = "transfer" && postgres.fieldText "from" t.details = some addr) ||
      (t.kind = "transfer" && postgres.fieldText "to" t.details = some addr)

/-- `address_txs_page` -/
def addressTxsPage (postgres : Postgres) (pg : PgPool) (addr : String) (before : Option TxsCursor)
    (limitPlusOne : Nat) : Except SqlxError (List TxRow) :=
  pg.map fun db =>
    select txKey (addressTxsMatching postgres addr db) (before.map TxsCursor.key) limitPlusOne

/-! ## Schemas, attestor sets, bounties, contracts

These are read in the order of `(slot, id)`. -/

/-- The cursor of the four tables. -/
structure SlotIdCursor where
  slot : Int64
  id : String

variable (postgres : Postgres)

/-- `(slot, id)` -/
def SlotIdCursor.key (c : SlotIdCursor) : Int ×ₗ postgres.collation.SortKey :=
  toLex (c.slot.toInt, postgres.collation.sortKey c.id)

/-- `{ registered_at_slot, id }` -/
abbrev SchemasCursor := SlotIdCursor

/-- `{ registered_at_slot, id }` -/
abbrev AttestorSetsCursor := SlotIdCursor

/-- `{ posted_at_slot, id }` -/
abbrev BountiesCursor := SlotIdCursor

/-- `{ posted_at_slot, id }` -/
abbrev ContractsCursor := SlotIdCursor

/-- A row of `schemas` with the threshold of its attestor set. -/
structure SchemaRow extends Indexer.SchemaRow where
  threshold : Int32

def schemaKey (r : SchemaRow) : Int ×ₗ postgres.collation.SortKey :=
  SlotIdCursor.key postgres { slot := r.registeredAtSlot, id := r.id }

/-- `schemas s JOIN attestor_sets a ON a.id = s.attestor_set_id` -/
def schemaRows (db : Db) : List SchemaRow :=
  Table.join Indexer.SchemaRow.attestorSetId AttestorSetRow.id
    (fun s a => { s with threshold := a.threshold }) db.schemas db.attestorSets

/-- The rows `schemas_page` selects from. -/
def schemasMatching (attestorSetFilter : Option String) (db : Db) : List SchemaRow :=
  (schemaRows db).filter fun s => attestorSetFilter.all fun id => s.attestorSetId = id

/-- `schemas_page` -/
def schemasPage (pg : PgPool) (attestorSetFilter : Option String) (before : Option SchemasCursor)
    (limitPlusOne : Nat) : Except SqlxError (List SchemaRow) :=
  pg.map fun db =>
    select (schemaKey postgres) (schemasMatching attestorSetFilter db)
      (before.map (SlotIdCursor.key postgres)) limitPlusOne

def attestorSetKey (r : AttestorSetRow) : Int ×ₗ postgres.collation.SortKey :=
  SlotIdCursor.key postgres { slot := r.registeredAtSlot, id := r.id }

/-- The rows whose `members` contain the key. -/
def memberMatching (pubkey : String) (db : Db) : List AttestorSetRow :=
  db.attestorSets.filter fun r => pubkey ∈ r.members

/-- `attestor_sets_for_member_page` -/
def attestorSetsForMemberPage (pg : PgPool) (pubkey : String) (before : Option AttestorSetsCursor)
    (limitPlusOne : Nat) : Except SqlxError (List AttestorSetRow) :=
  pg.map fun db =>
    select (attestorSetKey postgres) (memberMatching pubkey db)
      (before.map (SlotIdCursor.key postgres)) limitPlusOne

/-- `attestor_sets_page` -/
def attestorSetsPage (pg : PgPool) (before : Option AttestorSetsCursor) (limitPlusOne : Nat) :
    Except SqlxError (List AttestorSetRow) :=
  pg.map fun db =>
    select (attestorSetKey postgres) db.attestorSets (before.map (SlotIdCursor.key postgres))
      limitPlusOne

def bountyKey (r : BountyRow) : Int ×ₗ postgres.collation.SortKey :=
  SlotIdCursor.key postgres { slot := r.postedAtSlot, id := r.id }

/-- The rows `bounties_page` selects from. -/
def bountiesMatching (board status : Option String) (db : Db) : List BountyRow :=
  db.bounties.filter fun r =>
    board.all (fun id => r.boardSchemaId = id) && status.all fun s => r.status = s

/-- `bounties_page` -/
def bountiesPage (pg : PgPool) (board status : Option String) (before : Option BountiesCursor)
    (limitPlusOne : Nat) : Except SqlxError (List BountyRow) :=
  pg.map fun db =>
    select (bountyKey postgres) (bountiesMatching board status db)
      (before.map (SlotIdCursor.key postgres)) limitPlusOne

def contractKey (r : ContractRow) : Int ×ₗ postgres.collation.SortKey :=
  SlotIdCursor.key postgres { slot := r.postedAtSlot, id := r.id }

/-- The rows `contracts_page` selects from. -/
def contractsMatching (status poster arbiter : Option String) (db : Db) : List ContractRow :=
  db.contracts.filter fun r =>
    status.all (fun s => r.status = s) && poster.all (fun a => r.poster = a) &&
      arbiter.all fun a => r.arbiter = a

/-- `contracts_page` -/
def contractsPage (pg : PgPool) (status poster arbiter : Option String)
    (before : Option ContractsCursor) (limitPlusOne : Nat) :
    Except SqlxError (List ContractRow) :=
  pg.map fun db =>
    select (contractKey postgres) (contractsMatching status poster arbiter db)
      (before.map (SlotIdCursor.key postgres)) limitPlusOne

/-! ## Attestations -/

structure AttestationsCursor where
  submittedAtSlot : Int64
  schemaId : String
  payloadHash : String

/-- `(submitted_at_slot, schema_id, payload_hash)` -/
def AttestationsCursor.key (c : AttestationsCursor) :
    Int ×ₗ postgres.collation.SortKey ×ₗ postgres.collation.SortKey :=
  toLex (c.submittedAtSlot.toInt,
    toLex (postgres.collation.sortKey c.schemaId, postgres.collation.sortKey c.payloadHash))

def attestationKey (r : AttestationRow) :
    Int ×ₗ postgres.collation.SortKey ×ₗ postgres.collation.SortKey :=
  AttestationsCursor.key postgres
    { submittedAtSlot := r.submittedAtSlot, schemaId := r.schemaId, payloadHash := r.payloadHash }

/-- The rows `attestations_page` selects from. -/
def attestationsMatching (schemaIdFilter : Option String) (db : Db) : List AttestationRow :=
  match schemaIdFilter with
  | some schemaId => db.attestations.filter fun r => r.schemaId = schemaId
  | none => db.attestations

/-- `attestations_page` -/
def attestationsPage (pg : PgPool) (schemaIdFilter : Option String)
    (before : Option AttestationsCursor) (limitPlusOne : Nat) :
    Except SqlxError (List AttestationRow) :=
  pg.map fun db =>
    select (attestationKey postgres) (attestationsMatching schemaIdFilter db)
      (before.map (AttestationsCursor.key postgres)) limitPlusOne

/-- `attestations a JOIN schemas s ON s.id = a.schema_id WHERE s.attestor_set_id = …` -/
def attestorSetMatching (attestorSetId : String) (db : Db) : List AttestationRow :=
  Table.join AttestationRow.schemaId Indexer.SchemaRow.id (fun a _ => a) db.attestations
    (db.schemas.filter fun s => s.attestorSetId = attestorSetId)

/-- `attestations_by_attestor_set` -/
def attestationsByAttestorSet (pg : PgPool) (attestorSetId : String)
    (before : Option AttestationsCursor) (limitPlusOne : Nat) :
    Except SqlxError (List AttestationRow) :=
  pg.map fun db =>
    select (attestationKey postgres) (attestorSetMatching attestorSetId db)
      (before.map (AttestationsCursor.key postgres)) limitPlusOne

/-! ## Single rows -/

/-- `schema_by_id` -/
def schemaById (pg : PgPool) (id : String) : Except SqlxError (Option SchemaRow) :=
  pg.map fun db => Table.lookup (fun s : SchemaRow => s.id) id (schemaRows db)

/-- `attestation_by_id` -/
def attestationById (pg : PgPool) (id : String) : Except SqlxError (Option AttestationRow) :=
  pg.map fun db => Table.lookup AttestationRow.id id db.attestations

/-- `bounty_by_id` -/
def bountyById (pg : PgPool) (id : String) : Except SqlxError (Option BountyRow) :=
  pg.map fun db => Table.lookup BountyRow.id id db.bounties

/-- `contract_by_id` -/
def contractById (pg : PgPool) (id : String) : Except SqlxError (Option ContractRow) :=
  pg.map fun db => Table.lookup ContractRow.id id db.contracts

/-- `max_slot_height` -/
def maxSlotHeight (pg : PgPool) : Except SqlxError (Option Int64) :=
  pg.map fun db => (db.slots.map SlotRow.height).max?

/-- `slot_by_height` -/
def slotByHeight (pg : PgPool) (height : Int64) : Except SqlxError (Option SlotRow) :=
  pg.map fun db => Table.lookup SlotRow.height height db.slots

/-- `tx_by_hash` -/
def txByHash (pg : PgPool) (hash : String) : Except SqlxError (Option TxRow) :=
  pg.map fun db => Table.lookup (fun t : TxRow => t.hash) hash (txRows db)

/-- `attestor_set_by_id` -/
def attestorSetById (pg : PgPool) (id : String) : Except SqlxError (Option AttestorSetRow) :=
  pg.map fun db => Table.lookup AttestorSetRow.id id db.attestorSets

/-- The `AddressSummaryRow` of the queries. -/
structure AddressSummary where
  txsSentCount : Int64
  txsReceivedCount : Int64
  firstSeenSlot : Option Int64
  firstSeenTimestamp : Option Int
  lastSeenSlot : Option Int64
  lastSeenTimestamp : Option Int
  schemasOwnedCount : Int32
  attestorMemberCount : Int32

/-- `address_summary`: an address without a row gets zeros. -/
def addressSummary (pg : PgPool) (address : String) : Except SqlxError AddressSummary :=
  pg.map fun db =>
    match Table.lookup AddressSummaryRow.address address db.addressSummaries with
    | some r =>
      { txsSentCount := r.txsSentCount, txsReceivedCount := r.txsReceivedCount,
        firstSeenSlot := r.firstSeenSlot, firstSeenTimestamp := r.firstSeenTimestamp,
        lastSeenSlot := r.lastSeenSlot, lastSeenTimestamp := r.lastSeenTimestamp,
        schemasOwnedCount := r.schemasOwnedCount, attestorMemberCount := r.attestorMemberCount }
    | none =>
      { txsSentCount := 0, txsReceivedCount := 0, firstSeenSlot := none,
        firstSeenTimestamp := none, lastSeenSlot := none, lastSeenTimestamp := none,
        schemasOwnedCount := 0, attestorMemberCount := 0 }

/-! ## Search helpers -/

/-- `slot_height_for_block_hash`: the first slot that has the hash. -/
def slotHeightForBlockHash (pg : PgPool) (hash : String) : Except SqlxError (Option Int64) :=
  pg.map fun db => (db.slots.find? fun r => r.hash = hash).map SlotRow.height

/-- `address_exists` -/
def addressExists (pg : PgPool) (address : String) : Except SqlxError Bool :=
  pg.map fun db => db.addressSummaries.any fun r => r.address = address

/-- `schema_exists` -/
def schemaExists (pg : PgPool) (id : String) : Except SqlxError Bool :=
  pg.map fun db => db.schemas.any fun r => r.id = id

/-- `attestor_set_exists` -/
def attestorSetExists (pg : PgPool) (id : String) : Except SqlxError Bool :=
  pg.map fun db => db.attestorSets.any fun r => r.id = id

/-- `attestation_id_exists` -/
def attestationIdExists (pg : PgPool) (id : String) : Except SqlxError Bool :=
  pg.map fun db => db.attestations.any fun r => r.id = id

/-- `(submitted_at_slot, schema_id)`, the schemas in ascending order. -/
def payloadHashKey (r : AttestationRow) : Int ×ₗ (postgres.collation.SortKey)ᵒᵈ :=
  toLex (r.submittedAtSlot.toInt, OrderDual.toDual (postgres.collation.sortKey r.schemaId))

/-- `attestation_id_by_payload_hash` -/
def attestationIdByPayloadHash (pg : PgPool) (payloadHash : String) :
    Except SqlxError (Option String) :=
  pg.map fun db =>
    ((select (payloadHashKey postgres) (db.attestations.filter fun r => r.payloadHash = payloadHash)
      none 1).map AttestationRow.id).head?

/-! ## Matching bounties -/

structure BountyMatchRow where
  id : String
  poster : String
  boardSchemaId : String
  perAttestationNano : String
  escrowRemainingNano : String
  poolNano : String
  acceptance : Json
  expiryDaHeight : Int64
  postedAtSlot : Int64
  myAttestationCount : Nat

/-- The group of a bounty: `COUNT(a.id)` over the attestations of the address on its board. -/
def bountyMatchRow (address : String) (db : Db) (b : BountyRow) : BountyMatchRow where
  id := b.id
  poster := b.poster
  boardSchemaId := b.boardSchemaId
  perAttestationNano := b.perAttestationNano
  escrowRemainingNano := b.escrowRemainingNano
  poolNano := b.poolNano
  acceptance := b.acceptance
  expiryDaHeight := b.expiryDaHeight
  postedAtSlot := b.postedAtSlot
  myAttestationCount := db.attestations.countP fun a =>
    a.schemaId = b.boardSchemaId ∧ a.submitter = address

/-- The groups of `bounties b JOIN attestations a ON a.schema_id = b.board_schema_id`; without an
attestation a bounty has none. -/
def bountyMatches (address : String) (db : Db) : List BountyMatchRow :=
  ((db.bounties.filter fun b => b.status = "open").map (bountyMatchRow address db)).filter fun m =>
    0 < m.myAttestationCount

/-- `(posted_at_slot, id)`, the ids in ascending order. -/
def bountyMatchKey (m : BountyMatchRow) : Int ×ₗ (postgres.collation.SortKey)ᵒᵈ :=
  toLex (m.postedAtSlot.toInt, OrderDual.toDual (postgres.collation.sortKey m.id))

/-- `bounties_matching_address` -/
def bountiesMatchingAddress (pg : PgPool) (address : String) (limit : Nat) :
    Except SqlxError (List BountyMatchRow) :=
  pg.map fun db => select (bountyMatchKey postgres) (bountyMatches address db) none limit

end LigateApi.Api.Queries
