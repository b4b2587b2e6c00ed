import LigateApi.Lib.Run
import LigateApi.Indexer.Verify.Bounty
import LigateApi.Indexer.Verify.Classify

/-!
# Histories of transactions

A visit is one turn of the indexer's loop: a transaction with the events it was classified by, and
what the node answers at that moment. The same transaction may be visited again, and each visit
finds the node as it is then. A history is a list of visits; `visit` goes on only while no
statement fails, so that a run of it is a history without a database error.
-/

namespace LigateApi.Indexer

open Lib

/-- One transaction as the loop meets it. -/
structure Visit (env : Env) where
  client : NodeClient
  work : TxWork
  events : List LedgerEvent
  kind : work.classified.kind = classifyEvents env.codec env.serde events

/-- One turn of the loop, as long as no statement of it fails. -/
def visit (env : Env) (db : Db) (v : Visit env) : Option Db :=
  if (processTx env noFaults v.client v.work db).failed = [] then
    some (processTx env noFaults v.client v.work db).db
  else none

section Visit

variable {env : Env} {db db' : Db} {v : Visit env}

theorem visit_eq_some : visit env db v = some db' ↔
    (processTx env noFaults v.client v.work db).failed = [] ∧
      (processTx env noFaults v.client v.work db).db = db' := by
  unfold visit
  split
  · rename_i h
    simp [h]
  · rename_i h
    simp [h]

/-- A turn without an error: the own row, the summaries, then the rows of the resource. -/
theorem processTx_eq_ok {client : NodeClient} {w : TxWork}
    (h : (processTx env noFaults client w db).failed = []) :
    ∃ db₁, insertTransaction w.classified w.slotNumber w.position w.decoded db = .ok db₁ ∧
      processTx env noFaults client w db =
        insertResourceRows env noFaults client w
          (updateAddressSummaries noFaults w { db := db₁ }) := by
  obtain ⟨db₁, htx, heq⟩ := attempt_eq_ok rfl h
  exact ⟨db₁, htx, heq⟩

/-- What precedes the rows of the resource leaves bounties and contracts alone. -/
theorem processTx_eq_resources {client : NodeClient} {w : TxWork}
    (h : (processTx env noFaults client w db).failed = []) :
    ∃ r : TxRun, r.crashed = false ∧ r.db.bounties = db.bounties ∧ r.db.contracts = db.contracts ∧
      processTx env noFaults client w db = insertResourceRows env noFaults client w r := by
  obtain ⟨db₁, htx, heq⟩ := processTx_eq_ok h
  have hbounties : Keeps Db.bounties (updateAddressSummaries noFaults w) :=
    keeps_updateAddressSummaries fun _ _ => rfl
  have hcontracts : Keeps Db.contracts (updateAddressSummaries noFaults w) :=
    keeps_updateAddressSummaries fun _ _ => rfl
  refine ⟨_, steady_updateAddressSummaries w { db := db₁ } rfl, ?_, ?_, heq⟩
  · rw [hbounties, insertTransaction_frame htx]
  · rw [hcontracts, insertTransaction_frame htx]

end Visit

/-! ## A small market -/

/-- A text field of an externally tagged payload. -/
def variantField (variant field : String) : Json → Option String
  | .obj [(v, .obj fields)] =>
    if v = variant then
      match fields.lookup field with
      | some (.str s) => some s
      | _ => none
    else none
  | _ => none

def BountyPayload.variant : BountyPayload → String
  | .posted => "BountyPosted"
  | .disputed => "BountyDisputed"
  | .disputeResolved => "DisputeResolved"
  | .expired => "BountyExpired"
  | .finalised => "BountyFinalised"

def ContractPayload.variant : ContractPayload → String
  | .posted => "ContractPosted"
  | .workerCommitted => "WorkerCommitted"
  | .delivered => "ContractDelivered"
  | .deliveryAccepted => "DeliveryAccepted"
  | .deliveryRejected => "DeliveryRejected"
  | .disputeResolved => "ContractDisputeResolved"
  | .cancelled => "ContractCancelled"
  | .expired => "ContractExpired"

/-- The number a text of decimal digits spells. -/
def decimal (s : String) : Option Nat :=
  if s.toList ≠ [] ∧ s.toList.all Char.isDigit then some (Nat.ofDigitChars 10 s.toList 0) else none

/-- The payloads of bounties, contracts and attestor sets, and whole numbers. -/
def marketEnv : Env where
  codec := idleCodec
  serde :=
    { attestorSetRegistered := fun
        | .obj [("AttestorSetRegistered", .obj [("attestor_set_id", .str id),
            ("members", .arr [.str member]), ("threshold", .num n),
            ("registered_by", .str registeredBy)])] =>
          some { attestorSetId := id, members := [member], threshold := UInt8.ofNat n, registeredBy }
        | _ => none
      schemaRegistered := fun _ => none
      attestationSubmitted := fun _ => none
      bountyClaimed := fun value => do
        let bountyId ← variantField "BountyClaimed" "bounty_id" value
        let payout ← variantField "BountyClaimed" "payout" value
        return { bountyId, payout }
      bounty := fun payload => variantField payload.variant "bounty_id"
      contract := fun payload => variantField payload.variant "contract_id"
      tokenTransferred := fun _ => none
      toText := fun _ => "null" }
  numericSub s t := do
    let a ← decimal s
    let b ← decimal t
    return if b ≤ a then toString (a - b) else "-" ++ toString (b - a)
  numericChainId := 1

/-- The chain knows bounty `lbt1` and contract `lct1`, with pools of 100. -/
def marketNode : NodeClient :=
  { bountyNode with
    contractAt := fun id => .ok <| if id = "lct1" then
      some { poster := "lig1p", arbiter := "lig1a", criteriaDocHash := .str "0x00", pool := "100",
             expiryDaHeight := 90, disputeWindowBlocks := 5, arbiterFeeBps := 500,
             status := "Open" }
      else none }

/-- A committed transaction of slot 7 with the given events. -/
def marketVisit (client : NodeClient) (hash : String) (position : Int32)
    (events : List LedgerEvent) : Visit marketEnv where
  client := client
  work :=
    { classified :=
        { hash, batchNumber := 4, globalTxNumber := 10, outcome := .committed,
          kind := classifyEvents marketEnv.codec marketEnv.serde events }
      position := position
      decoded := none
      slotNumber := 7
      timestamp := 0 }
  events := events
  kind := rfl

def contractPostedEvent : LedgerEvent :=
  ⟨"Contracts/ContractPosted", .obj [("ContractPosted", .obj [("contract_id", .str "lct1"),
    ("poster", .str "lig1p"), ("arbiter", .str "lig1a"), ("pool", .str "100")])], "0xaa"⟩

def deliveryAcceptedEvent : LedgerEvent :=
  ⟨"Contracts/DeliveryAccepted", .obj [("DeliveryAccepted", .obj [("contract_id", .str "lct1"),
    ("worker", .str "lig1w"), ("payout", .str "100")])], "0xbb"⟩

def attestorSetEvent : LedgerEvent :=
  ⟨"AttestationModule/AttestorSetRegistered", .obj [("AttestorSetRegistered",
    .obj [("attestor_set_id", .str "las2"), ("members", .arr [.str "lpk1"]), ("threshold", .num 1),
      ("registered_by", .str "lig1o")])], "0xbb"⟩

end LigateApi.Indexer
