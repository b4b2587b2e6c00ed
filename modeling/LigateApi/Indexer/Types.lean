import Mathlib.Data.UInt

/-!
# Chain wire types

The responses of the chain node the indexer reads, with the fields it uses, and the node client as
what it answers to each request. A lookup answers `ok none` for a 404 and `error` when the request
fails or the body does not parse.
-/

namespace LigateApi.Indexer

inductive Json
  | null
  | bool (b : Bool)
  | num (n : Nat)
  | str (s : String)
  | arr (items : List Json)
  | obj (fields : List (String × Json))

def Json.field (key : String) : Json → Option Json
  | .obj fields => fields.lookup key
  | _ => none

def Json.text : Json → Option String
  | .str s => some s
  | _ => none

/-- Half-open range of chain numbers. -/
structure Uint64Range where
  start : UInt64
  stop : UInt64
  deriving DecidableEq, Repr

/-- `range.start..range.end` -/
def Uint64Range.toList (r : Uint64Range) : List UInt64 :=
  (List.range (r.stop.toNat - r.start.toNat)).map fun i => r.start + UInt64.ofNat i

structure SlotResponse where
  number : UInt64
  hash : String
  prevHash : Option String
  /-- Unix milliseconds. -/
  timestamp : Option UInt64
  stateRoot : Option String
  batchCount : Option UInt64
  txCount : Option UInt64
  batchRange : Option Uint64Range
  finalityStatus : Option String

structure LedgerTx where
  hash : String
  number : UInt64
  batchNumber : UInt64
  /-- `body.data` -/
  body : String
  /-- `receipt.result` -/
  result : String
  deriving DecidableEq

structure LedgerEvent where
  key : String
  value : Json
  txHash : String

structure LedgerBatch where
  txRange : Uint64Range
  /-- `receipt` in the catch-all map, when it is an object. -/
  receipt : Option (List (String × Json))

structure BountyRecord where
  poster : String
  boardSchemaId : String
  pool : String
  perAttestation : String
  acceptance : Json
  expiryDaHeight : UInt64
  disputeWindowBlocks : UInt32
  status : String

structure ContractRecord where
  poster : String
  arbiter : String
  criteriaDocHash : Json
  pool : String
  expiryDaHeight : UInt64
  disputeWindowBlocks : UInt32
  arbiterFeeBps : UInt16
  status : String

/-- What went wrong with a request. -/
inductive FetchError
  | nodeUnreachable
  | nodeBadShape
  deriving DecidableEq, Repr

/-- The node as the indexer sees it during one pass over a slot. -/
structure NodeClient where
  eventsForSlot : UInt64 → Except FetchError (List LedgerEvent)
  batchAt : UInt64 → Except FetchError (Option LedgerBatch)
  txAtNumber : UInt64 → Except FetchError (Option LedgerTx)
  bountyAt : String → Except FetchError (Option BountyRecord)
  contractAt : String → Except FetchError (Option ContractRecord)

/-! ## Event payloads

The fields the parser takes from each payload. `Serde` decodes a JSON value into one of them, or
fails; `bounty` and `contract` decode the payload types whose only used field is the id. -/

structure AttestorSetRegistered where
  attestorSetId : String
  members : List String
  threshold : UInt8
  registeredBy : String

structure SchemaRegistered where
  schemaId : String
  name : String
  version : UInt32
  owner : String
  attestorSetId : String
  feeRoutingBps : UInt16
  feeRoutingAddr : Option String
  payloadShapeHash : Json

structure AttestationSubmitted where
  schemaId : String
  payloadHash : String
  submitter : String
  signatureCount : UInt32

structure BountyClaimed where
  bountyId : String
  payout : String

structure TokenTransferred where
  src : String
  dst : String
  amount : String
  tokenId : String

inductive BountyPayload
  | posted
  | disputed
  | disputeResolved
  | expired
  | finalised
  deriving DecidableEq, Repr

inductive ContractPayload
  | posted
  | workerCommitted
  | delivered
  | deliveryAccepted
  | deliveryRejected
  | disputeResolved
  | cancelled
  | expired
  deriving DecidableEq, Repr

/-- `serde_json::from_value` at each payload type, and `Value::to_string`. -/
structure Serde where
  attestorSetRegistered : Json → Option AttestorSetRegistered
  schemaRegistered : Json → Option SchemaRegistered
  attestationSubmitted : Json → Option AttestationSubmitted
  bountyClaimed : Json → Option BountyClaimed
  /-- `bounty_id` of the payload. -/
  bounty : BountyPayload → Json → Option String
  /-- `contract_id` of the payload. -/
  contract : ContractPayload → Json → Option String
  tokenTransferred : Json → Option TokenTransferred
  toText : Json → String

/-- A JSON string as it is, any other value in its text form. -/
def Serde.stringify (serde : Serde) : Json → String
  | .str s => s
  | other => serde.toText other

end LigateApi.Indexer
