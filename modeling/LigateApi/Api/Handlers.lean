import LigateApi.Api.Cursor
import LigateApi.Api.Queries

/-!
# List handlers

Every list handler resolves the limit, decodes the cursor, asks for one row more than the limit,
and answers with a page whose `next` is the cursor of the last row shown (`list`). The rows stand
for their wire form, into which the source maps them one by one.
-/

namespace LigateApi.Api

open Indexer hiding TxRow SchemaRow
open Queries

/-! ## Cursor shapes -/

structure BlocksCursor where
  slot : UInt64
  deriving DecidableEq

structure TxsCursor where
  slot : UInt64
  idx : UInt32
  deriving DecidableEq

structure SchemasCursor where
  slot : UInt64
  id : String
  deriving DecidableEq

structure AttestationsCursor where
  slot : UInt64
  schemaId : String
  payloadHash : String
  deriving DecidableEq

structure AttestorSetsCursor where
  slot : UInt64
  id : String
  deriving DecidableEq

structure BountiesCursor where
  slot : UInt64
  id : String
  deriving DecidableEq

structure ContractsCursor where
  slot : UInt64
  id : String
  deriving DecidableEq

/-- What the handlers take from outside. -/
structure Env where
  postgres : Postgres
  base64 : Base64
  blocks : CursorJson BlocksCursor
  txs : CursorJson TxsCursor
  schemas : CursorJson SchemasCursor
  attestations : CursorJson AttestationsCursor
  attestorSets : CursorJson AttestorSetsCursor
  bounties : CursorJson BountiesCursor
  contracts : CursorJson ContractsCursor
  /-- `trim().to_lowercase()` -/
  trimLower : String → String
  /-- `bech32::decode`, with the text of its error. -/
  bech32Decode : String → Except String (String × List UInt8)

/-! ## The shared body -/

def ttlLiveSecs : UInt32 := 5
def ttlModestSecs : UInt32 := 30
def ttlSlowSecs : UInt32 := 60

/-- Drop the row beyond the limit, if it came; the cursor is that of the last row kept. -/
def pageOf {R : Type} (limit : UInt32) (rows : List R) (cursor : R → Option String) : Page R :=
  let hasMore := limit.toNat < rows.length
  let rows := if hasMore then rows.take limit.toNat else rows
  { data := rows
    pagination := { next := if hasMore then rows.getLast?.bind cursor else none, limit } }

/-- The body of a list handler: `bound` turns a decoded cursor into the one of the query, `cursor`
is the cursor of a row. -/
def list {R C B : Type} (base64 : Base64) (json : CursorJson C) (bound : C → B)
    (query : Option B → Nat → Except SqlxError (List R)) (cursor : R → C) (maxAgeSecs : UInt32)
    (params : PaginationParams) : Reply R :=
  let limit := resolveLimit params.limit
  let before := (params.before.bind (decode base64 json)).map bound
  match query before (limit.toNat + 1) with
  | .ok rows => .page (pageOf limit rows fun r => encode base64 json (cursor r)) maxAgeSecs
  | .error _ => .internalError

variable (env : Env) (pg : PgPool)

/-! ## Blocks and transactions -/

/-- `GET /v1/blocks` -/
def blocksList (params : PaginationParams) : Reply SlotRow :=
  list env.base64 env.blocks (fun c => c.slot.toInt64) (slotsPage pg)
    (fun r => { slot := r.height.toUInt64 }) ttlLiveSecs params

structure TxsListParams extends PaginationParams where
  kind : Option String
  blockHeight : Option UInt64

def boundTxsCursor (c : TxsCursor) : Queries.TxsCursor where
  slot := c.slot.toInt64
  position := c.idx.toInt32

def txRowCursor (r : TxRow) : TxsCursor where
  slot := r.slot.toUInt64
  idx := r.position.toUInt32

/-- `GET /v1/txs` -/
def txsList (params : TxsListParams) : Reply TxRow :=
  list env.base64 env.txs boundTxsCursor (txsPage pg params.kind params.blockHeight) txRowCursor
    ttlLiveSecs params.toPaginationParams

/-- `GET /v1/addresses/{addr}/txs` -/
def addressTxs (addr : String) (params : PaginationParams) : Reply TxRow :=
  list env.base64 env.txs boundTxsCursor (addressTxsPage env.postgres pg addr) txRowCursor
    ttlLiveSecs params

/-! ## Schemas and attestations -/

structure SchemasListParams extends PaginationParams where
  attestorSetId : Option String

/-- `GET /v1/schemas` -/
def schemasList (params : SchemasListParams) : Reply SchemaRow :=
  list env.base64 env.schemas (fun c => { slot := c.slot.toInt64, id := c.id })
    (schemasPage env.postgres pg params.attestorSetId)
    (fun r => { slot := r.registeredAtSlot.toUInt64, id := r.id }) ttlSlowSecs
    params.toPaginationParams

def boundAttestationsCursor (c : AttestationsCursor) : Queries.AttestationsCursor where
  submittedAtSlot := c.slot.toInt64
  schemaId := c.schemaId
  payloadHash := c.payloadHash

def attestationRowCursor (r : AttestationRow) : AttestationsCursor where
  slot := r.submittedAtSlot.toUInt64
  schemaId := r.schemaId
  payloadHash := r.payloadHash

/-- `decode_attestations_cursor` and `attestation_page_response` around a query. -/
def attestationsPageOf
    (query : Option Queries.AttestationsCursor → Nat → Except SqlxError (List AttestationRow))
    (params : PaginationParams) : Reply AttestationRow :=
  list env.base64 env.attestations boundAttestationsCursor query attestationRowCursor ttlModestSecs
    params

/-- `GET /v1/attestations` -/
def attestationsList (params : PaginationParams) : Reply AttestationRow :=
  attestationsPageOf env (attestationsPage env.postgres pg none) params

/-- `GET /v1/schemas/{id}/attestations` -/
def attestationsBySchema (schemaId : String) (params : PaginationParams) : Reply AttestationRow :=
  attestationsPageOf env (attestationsPage env.postgres pg (some schemaId)) params

/-- `GET /v1/attestor-sets/{id}/attestations` -/
def attestationsByAttestorSet (setId : String) (params : PaginationParams) :
    Reply AttestationRow :=
  attestationsPageOf env (Queries.attestationsByAttestorSet env.postgres pg setId) params

/-! ## Attestor sets -/

def boundAttestorSetsCursor (c : AttestorSetsCursor) : Queries.AttestorSetsCursor where
  slot := c.slot.toInt64
  id := c.id

def attestorSetRowCursor (r : AttestorSetRow) : AttestorSetsCursor where
  slot := r.registeredAtSlot.toUInt64
  id := r.id

/-- The page of attestor sets a query gives. -/
def attestorSetsPageOf
    (query : Option Queries.AttestorSetsCursor → Nat → Except SqlxError (List AttestorSetRow))
    (params : PaginationParams) : Reply AttestorSetRow :=
  list env.base64 env.attestorSets boundAttestorSetsCursor query attestorSetRowCursor ttlSlowSecs
    params

/-- `GET /v1/attestor-sets` -/
def attestorSetsList (params : PaginationParams) : Reply AttestorSetRow :=
  attestorSetsPageOf env (attestorSetsPage env.postgres pg) params

/-- `GET /v1/attestor-sets/by-member/{pubkey}` -/
def attestorSetsByMember (pubkey : String) (params : PaginationParams) : Reply AttestorSetRow :=
  let pubkey := env.trimLower pubkey
  match env.bech32Decode pubkey with
  | .ok (hrp, data) =>
    if hrp = "lpk" ∧ data.length = 32 then
      attestorSetsPageOf env (attestorSetsForMemberPage env.postgres pg pubkey) params
    else
      .badRequest "invalid_pubkey"
        ("expected bech32m HRP `lpk` with 32-byte payload, got HRP `" ++ hrp ++ "` with " ++
          toString data.length ++ "-byte payload")
  | .error e => .badRequest "invalid_pubkey" ("bech32m decode failed: " ++ e)

/-! ## Bounties and contracts -/

structure BountiesListParams extends PaginationParams where
  board : Option String
  status : Option String

/-- `GET /v1/bounties` -/
def bountiesList (params : BountiesListParams) : Reply BountyRow :=
  list env.base64 env.bounties (fun c => { slot := c.slot.toInt64, id := c.id })
    (bountiesPage env.postgres pg params.board params.status)
    (fun r => { slot := r.postedAtSlot.toUInt64, id := r.id }) ttlModestSecs
    params.toPaginationParams

structure ContractsListParams extends PaginationParams where
  status : Option String
  poster : Option String
  arbiter : Option String

/-- `GET /v1/contracts` -/
def contractsList (params : ContractsListParams) : Reply ContractRow :=
  list env.base64 env.contracts (fun c => { slot := c.slot.toInt64, id := c.id })
    (contractsPage env.postgres pg params.status params.poster params.arbiter)
    (fun r => { slot := r.postedAtSlot.toUInt64, id := r.id }) ttlModestSecs
    params.toPaginationParams

end LigateApi.Api
