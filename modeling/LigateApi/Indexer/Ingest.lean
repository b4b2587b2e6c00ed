import LigateApi.Indexer.Db

/-!
# Ingesting the transactions of a slot

A slot is walked batch by batch and transaction by transaction. The walk stops at the first failing
request and passes over what the node answers 404 to; each transaction it is served and that was
applied takes the next position (`slotWork`). A transaction is then written statement by statement
(`processTx`): a refused statement is logged and skips what depends on it, and the process may die
before any statement. Which statements are refused by an unavailable database or never reached is
the oracle `faults`; `noFaults` is a database that refuses only what breaks a constraint.
-/

namespace LigateApi.Indexer

/-! ## Walking the slot -/

/-- The transactions served for a list of numbers, up to the first failing request. -/
def walkTxs (client : NodeClient) : List UInt64 → List LedgerTx × Option FetchError
  | [] => ([], none)
  | n :: ns =>
    match client.txAtNumber n with
    | .error e => ([], some e)
    | .ok none => walkTxs client ns
    | .ok (some tx) => (tx :: (walkTxs client ns).1, (walkTxs client ns).2)

/-- The transactions served for a list of batches. -/
def walkBatches (client : NodeClient) : List UInt64 → List LedgerTx × Option FetchError
  | [] => ([], none)
  | b :: bs =>
    match client.batchAt b with
    | .error e => ([], some e)
    | .ok none => walkBatches client bs
    | .ok (some batch) =>
      match walkTxs client batch.txRange.toList with
      | (txs, some e) => (txs, some e)
      | (txs, none) => (txs ++ (walkBatches client bs).1, (walkBatches client bs).2)

/-- A transaction to be written, with what the slot says about it. -/
structure TxWork where
  classified : ClassifiedTx
  position : Int32
  decoded : Option DecodedTxBody
  slotNumber : UInt64
  timestamp : Int

variable (env : Env)

/-- One served transaction at a position; a skipped one makes no work. -/
def txWork (slot : SlotResponse) (events : List LedgerEvent) (position : Int32) (tx : LedgerTx) :
    Option TxWork :=
  (classifyTx env.codec env.serde tx (events.filter fun e => e.txHash = tx.hash)).map
    fun classified =>
      { classified, position, decoded := decodeTxBody env.codec tx.body env.numericChainId,
        slotNumber := slot.number, timestamp := slotTimestamp slot.timestamp }

/-- `position_in_slot` advances with every transaction that is not skipped; past `i32::MAX` it
wraps. -/
def numberTxs (slot : SlotResponse) (events : List LedgerEvent) :
    Int32 → List LedgerTx → List TxWork
  | _, [] => []
  | position, tx :: txs =>
    match txWork env slot events position tx with
    | none => numberTxs slot events position txs
    | some w => w :: numberTxs slot events (position + 1) txs

/-- The transactions a slot's batch range is served as. -/
def servedTxs (client : NodeClient) (slot : SlotResponse) : List LedgerTx × Option FetchError :=
  match slot.batchRange with
  | none => ([], none)
  | some range => walkBatches client range.toList

/-- The work of `ingest_slot_transactions`, and the error it ends with. -/
def slotWork (client : NodeClient) (slot : SlotResponse) : List TxWork × Option FetchError :=
  match slot.batchRange with
  | none => ([], none)
  | some _ =>
    match client.eventsForSlot slot.number with
    | .error e => ([], some e)
    | .ok events =>
      (numberTxs env slot events 0 (servedTxs client slot).1, (servedTxs client slot).2)

/-! ## Writing one transaction -/

/-- The statements a transaction can lead to. -/
inductive TxStmt
  | transaction
  | senderActivity
  | receiverActivity
  | attestorSet
  | schema
  | setSchemaCount
  | schemasOwned
  | attestation
  | attestationCount
  | bounty
  | bountyDelta
  | contract
  | contractDelta
  deriving DecidableEq, Repr

inductive Fault
  | none
  /-- The database refuses the statement for a reason of its own. -/
  | refuse
  /-- The process dies before the statement. -/
  | crash
  deriving DecidableEq, Repr

def noFaults : TxStmt → Fault := fun _ => .none

/-- Where the writing of a transaction stands: the database, the statements that failed, and
whether the process died. -/
structure TxRun where
  db : Db
  failed : List TxStmt := []
  crashed : Bool := false

/-- Run one statement, then go on with `onOk` or `onErr`. -/
def TxRun.attempt (faults : TxStmt → Fault) (stmt : TxStmt) (f : Db → Except DbError Db)
    (onOk onErr : TxRun → TxRun) (r : TxRun) : TxRun :=
  if r.crashed then r
  else
    match faults stmt with
    | .crash => { r with crashed := true }
    | .refuse => onErr { r with failed := r.failed ++ [stmt] }
    | .none =>
      match f r.db with
      | .ok db => onOk { r with db }
      | .error _ => onErr { r with failed := r.failed ++ [stmt] }

/-- The sender `update_address_summaries` counts. -/
def summarySender : IndexerTx → Option String
  | .transfer t => some t.src
  | .registerAttestorSet d => some d.registeredBy
  | .registerSchema d => some d.owner
  | .submitAttestation d => some d.submitter
  | .bountyEvent _ _ => none
  | .contractEvent _ _ => none
  | .unknown _ => none

/-- Only a transfer has a receiver. -/
def summaryReceiver : IndexerTx → Option String
  | .transfer t => some t.dst
  | _ => none

/-- Count an address in a role, if there is one; `next` follows unless the statement failed. -/
def countActivity (faults : TxStmt → Fault) (stmt : TxStmt) (role : AddressRole) (w : TxWork)
    (address : Option String) (next : TxRun → TxRun) : TxRun → TxRun :=
  match address with
  | none => next
  | some a => TxRun.attempt faults stmt
      (upsertAddressActivity a role w.slotNumber w.classified.hash w.timestamp) next id

/-- `update_address_summaries`: a failing sender leaves the receiver uncounted. -/
def updateAddressSummaries (faults : TxStmt → Fault) (w : TxWork) : TxRun → TxRun :=
  countActivity faults .senderActivity .sender w (summarySender w.classified.kind)
    (countActivity faults .receiverActivity .receiver w (summaryReceiver w.classified.kind) id)

/-- The claim or terminal delta on top of a hydrated bounty. -/
def bountyDelta (faults : TxStmt → Fault) (w : TxWork) (bountyId : String) :
    BountyEventKind → TxRun → TxRun
  | .claimed count totalPayout => TxRun.attempt faults .bountyDelta
      (applyBountyClaim env bountyId totalPayout (clampInt32 count) w.slotNumber) id id
  | .expired => TxRun.attempt faults .bountyDelta (setBountyEscrowZero bountyId) id id
  | .finalised => TxRun.attempt faults .bountyDelta (setBountyEscrowZero bountyId) id id
  | .posted => id
  | .disputed => id
  | .disputeResolved => id

/-- The terminal delta on top of a hydrated contract. -/
def contractDelta (faults : TxStmt → Fault) (contractId : String) :
    ContractEventKind → TxRun → TxRun
  | .accepted => TxRun.attempt faults .contractDelta (setContractEscrowZero contractId) id id
  | .disputeResolved => TxRun.attempt faults .contractDelta (setContractEscrowZero contractId) id id
  | .cancelled => TxRun.attempt faults .contractDelta (setContractEscrowZero contractId) id id
  | .expired => TxRun.attempt faults .contractDelta (setContractEscrowZero contractId) id id
  | .posted => id
  | .committed => id
  | .delivered => id
  | .rejected => id

/-- `insert_resource_rows` -/
def insertResourceRows (faults : TxStmt → Fault) (client : NodeClient) (w : TxWork) :
    TxRun → TxRun :=
  let hash := w.classified.hash
  match w.classified.kind with
  | .registerAttestorSet d =>
    -- the bumps of `attestor_member_count` after it do nothing
    TxRun.attempt faults .attestorSet (insertAttestorSet d hash w.slotNumber w.timestamp) id id
  | .registerSchema d =>
    TxRun.attempt faults .schema (insertSchema d hash w.slotNumber w.timestamp)
      (fun r => TxRun.attempt faults .schemasOwned
        (bumpAddressSchemasOwned d.owner w.slotNumber hash w.timestamp) id id
        (TxRun.attempt faults .setSchemaCount (bumpAttestorSetSchemaCount d.attestorSetId) id id r))
      id
  | .submitAttestation d =>
    TxRun.attempt faults .attestation (insertAttestation d hash w.slotNumber w.timestamp)
      (TxRun.attempt faults .attestationCount (bumpSchemaAttestationCount d.schemaId) id id) id
  | .bountyEvent bountyId kind =>
    match client.bountyAt bountyId with
    | .ok (some record) =>
      TxRun.attempt faults .bounty (upsertBounty bountyId record w.slotNumber hash w.timestamp)
        (bountyDelta env faults w bountyId kind) id
    | .ok none => id
    | .error _ => id
  | .contractEvent contractId kind =>
    match client.contractAt contractId with
    | .ok (some record) =>
      TxRun.attempt faults .contract
        (upsertContract env contractId record w.slotNumber hash w.timestamp)
        (contractDelta faults contractId kind) id
    | .ok none => id
    | .error _ => id
  | .transfer _ => id
  | .unknown _ => id

/-- One turn of the loop of `ingest_slot_transactions`: without its own row a transaction has no
further effect. -/
def processTx (faults : TxStmt → Fault) (client : NodeClient) (w : TxWork) (db : Db) : TxRun :=
  TxRun.attempt faults .transaction
    (insertTransaction w.classified w.slotNumber w.position w.decoded)
    (fun r => insertResourceRows env faults client w (updateAddressSummaries faults w r)) id { db }

/-- `ingest_slot_transactions` against a database that refuses only what breaks a constraint. -/
def ingestSlotTransactions (client : NodeClient) (slot : SlotResponse) (db : Db) :
    Db × Option FetchError :=
  ((slotWork env client slot).1.foldl (fun db w => (processTx env noFaults client w db).db) db,
    (slotWork env client slot).2)

/-! ## The first batch's receipt -/

structure SlotFirstBatchFacts where
  proposer : Option String := none
  daBlockHeight : Option Int64 := none
  deriving DecidableEq, Repr

/-- `extract_slot_first_batch_facts`: whatever is missing or of another type stays `NULL`. -/
def extractSlotFirstBatchFacts (client : NodeClient) (slot : SlotResponse) :
    SlotFirstBatchFacts :=
  match slot.batchRange with
  | none => {}
  | some range =>
    match client.batchAt range.start with
    | .ok (some batch) =>
      match batch.receipt with
      | none => {}
      | some receipt =>
        { proposer := match receipt.lookup "da_address" with
            | some (.str s) => some s
            | _ => none
          daBlockHeight := match receipt.lookup "da_block_height" with
            | some (.num h) => if h < 2 ^ 63 then some (Int64.ofNat h) else none
            | _ => none }
    | .ok none => {}
    | .error _ => {}

end LigateApi.Indexer
