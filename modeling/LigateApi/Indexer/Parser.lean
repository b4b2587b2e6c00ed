import LigateApi.Indexer.Types
import LigateApi.Indexer.Decode

/-!
# The transaction classifier

`classifyTx` lifts a chain transaction and its events into a `ClassifiedTx`. Attestation events win
over bounty events, those over contract events, those over a plain bank transfer; what is left is
`unknown` with its event keys. Transactions whose receipt is neither successful nor reverted are
dropped.
-/

namespace LigateApi.Indexer

inductive TxOutcome
  | committed
  | reverted
  | skipped
  deriving DecidableEq, Repr

/-- `outcome_of` -/
def outcomeOf (receiptResult : String) : TxOutcome :=
  match receiptResult with
  | "successful" => .committed
  | "reverted" => .reverted
  | _ => .skipped

inductive BountyEventKind
  | posted
  /-- All `BountyClaimed` events of the transaction: their number and their summed payout. -/
  | claimed (count : UInt32) (totalPayout : String)
  | disputed
  | disputeResolved
  | expired
  | finalised
  deriving DecidableEq, Repr

inductive ContractEventKind
  | posted
  | committed
  | delivered
  | accepted
  | rejected
  | disputeResolved
  | cancelled
  | expired
  deriving DecidableEq, Repr

structure IndexerTransfer where
  src : String
  dst : String
  amountNano : String
  tokenId : String
  deriving DecidableEq, Repr

structure IndexerRegisterAttestorSet where
  attestorSetId : String
  members : List String
  threshold : UInt8
  registeredBy : String
  deriving DecidableEq, Repr

structure IndexerRegisterSchema where
  schemaId : String
  name : String
  version : UInt32
  owner : String
  attestorSetId : String
  feeRoutingBps : UInt16
  feeRoutingAddr : Option String
  payloadShapeHash : String
  deriving DecidableEq, Repr

structure IndexerSubmitAttestation where
  id : String
  schemaId : String
  payloadHash : String
  submitter : String
  signatureCount : UInt32
  deriving DecidableEq, Repr

inductive IndexerTx
  | transfer (t : IndexerTransfer)
  | registerAttestorSet (d : IndexerRegisterAttestorSet)
  | registerSchema (d : IndexerRegisterSchema)
  | submitAttestation (d : IndexerSubmitAttestation)
  | bountyEvent (bountyId : String) (kind : BountyEventKind)
  | contractEvent (contractId : String) (kind : ContractEventKind)
  | unknown (eventKeys : List String)
  deriving DecidableEq, Repr

structure ClassifiedTx where
  hash : String
  batchNumber : UInt64
  globalTxNumber : UInt64
  outcome : TxOutcome
  kind : IndexerTx
  deriving DecidableEq, Repr

/-! ## Attestation ids -/

inductive AttestationIdError
  | bech32Decode (field : String)
  | hrpMismatch (field expected got : String)
  | lengthMismatch (field : String) (got : Nat)
  | bech32Encode
  deriving DecidableEq, Repr

/-- `decode_hash32` -/
def decodeHash32 (codec : Codec) (s expectedHrp field : String) :
    Except AttestationIdError (List UInt8) :=
  match codec.bech32Decode s with
  | none => .error (.bech32Decode field)
  | some (hrp, data) =>
    if hrp ≠ expectedHrp then .error (.hrpMismatch field expectedHrp hrp)
    else if data.length ≠ 32 then .error (.lengthMismatch field data.length)
    else .ok data

/-- `compute_attestation_id` -/
def computeAttestationId (codec : Codec) (schemaId payloadHash : String) :
    Except AttestationIdError String := do
  let s ← decodeHash32 codec schemaId "lsc" "schema_id"
  let p ← decodeHash32 codec payloadHash "lph" "payload_hash"
  match codec.bech32mEncode "lat" (codec.sha256 (s ++ p)) with
  | some id => .ok id
  | none => .error .bech32Encode

/-! ## The passes over the events -/

variable (codec : Codec) (serde : Serde)

/-- One event of the first pass: a decodable attestation event ends the pass. -/
def classifyAttestationEvent (ev : LedgerEvent) : Option IndexerTx :=
  match ev.key with
  | "AttestationModule/AttestorSetRegistered" =>
    (serde.attestorSetRegistered ev.value).map fun d =>
      .registerAttestorSet
        { attestorSetId := d.attestorSetId, members := d.members, threshold := d.threshold,
          registeredBy := d.registeredBy }
  | "AttestationModule/SchemaRegistered" =>
    (serde.schemaRegistered ev.value).map fun d =>
      .registerSchema
        { schemaId := d.schemaId, name := d.name, version := d.version, owner := d.owner,
          attestorSetId := d.attestorSetId, feeRoutingBps := d.feeRoutingBps,
          feeRoutingAddr := d.feeRoutingAddr,
          payloadShapeHash := serde.stringify d.payloadShapeHash }
  | "AttestationModule/AttestationSubmitted" =>
    (serde.attestationSubmitted ev.value).bind fun d =>
      match computeAttestationId codec d.schemaId d.payloadHash with
      | .ok id =>
        some (.submitAttestation
          { id, schemaId := d.schemaId, payloadHash := d.payloadHash, submitter := d.submitter,
            signatureCount := d.signatureCount })
      -- a malformed pair is skipped, the pass goes on
      | .error _ => none
  | _ => none

/-- `str::parse::<u128>`: an optional plus sign, then decimal digits below `2 ^ 128`. -/
def parseU128 (s : String) : Option Nat :=
  let digits := match s.toList with
    | '+' :: cs => cs
    | cs => cs
  if digits ≠ [] ∧ digits.all (fun c => '0' ≤ c ∧ c ≤ '9') then
    let n := digits.foldl (fun n c => 10 * n + (c.toNat - '0'.toNat)) 0
    if n < 2 ^ 128 then some n else none
  else none

/-- `u128::saturating_add` -/
def saturatingAddU128 (a b : Nat) : Nat := min (a + b) (2 ^ 128 - 1)

/-- The accumulators of `classify_bounty_events`. -/
structure BountyScan where
  first : Option (String × BountyEventKind) := none
  claimCount : UInt32 := 0
  claimTotal : Nat := 0
  sawClaim : Bool := false

/-- `first.get_or_insert` of a decoded id. -/
def BountyScan.note (s : BountyScan) (kind : BountyEventKind) : Option String → BountyScan
  | some id => { s with first := s.first.or (some (id, kind)) }
  | none => s

/-- One event of the bounty pass. -/
def BountyScan.see (s : BountyScan) (ev : LedgerEvent) : BountyScan :=
  match ev.key with
  | "Bounty/BountyPosted" => s.note .posted (serde.bounty .posted ev.value)
  | "Bounty/BountyClaimed" =>
    match serde.bountyClaimed ev.value with
    | some d =>
      let s := { s with claimCount := s.claimCount + 1, sawClaim := true }
      let s := match parseU128 d.payout with
        | some v => { s with claimTotal := saturatingAddU128 s.claimTotal v }
        | none => s
      -- the kind is a placeholder, replaced once a claim was seen
      s.note .posted (some d.bountyId)
    | none => s
  | "Bounty/BountyDisputed" => s.note .disputed (serde.bounty .disputed ev.value)
  | "Bounty/DisputeResolved" => s.note .disputeResolved (serde.bounty .disputeResolved ev.value)
  | "Bounty/BountyExpired" => s.note .expired (serde.bounty .expired ev.value)
  | "Bounty/BountyFinalised" => s.note .finalised (serde.bounty .finalised ev.value)
  | _ => s

/-- `classify_bounty_events` -/
def classifyBountyEvents (events : List LedgerEvent) : Option IndexerTx :=
  let s := events.foldl (BountyScan.see serde) {}
  s.first.map fun (bountyId, kind) =>
    .bountyEvent bountyId
      (if s.sawClaim then .claimed s.claimCount (toString s.claimTotal) else kind)

/-- The id and kind of a decodable contract event. -/
def contractEvent (ev : LedgerEvent) : Option (String × ContractEventKind) :=
  let decode (payload : ContractPayload) (kind : ContractEventKind) :=
    (serde.contract payload ev.value).map fun id => (id, kind)
  match ev.key with
  | "Contracts/ContractPosted" => decode .posted .posted
  | "Contracts/WorkerCommitted" => decode .workerCommitted .committed
  | "Contracts/ContractDelivered" => decode .delivered .delivered
  | "Contracts/DeliveryAccepted" => decode .deliveryAccepted .accepted
  | "Contracts/DeliveryRejected" => decode .deliveryRejected .rejected
  | "Contracts/ContractDisputeResolved" => decode .disputeResolved .disputeResolved
  | "Contracts/ContractCancelled" => decode .cancelled .cancelled
  | "Contracts/ContractExpired" => decode .expired .expired
  | _ => none

/-- `classify_contract_events`: the first decodable contract event decides. -/
def classifyContractEvents (events : List LedgerEvent) : Option IndexerTx :=
  (events.findSome? (contractEvent serde)).map fun (contractId, kind) =>
    .contractEvent contractId kind

/-- One event of the bank pass. -/
def classifyBankEvent (ev : LedgerEvent) : Option IndexerTx :=
  if ev.key = "Bank/TokenTransferred" then
    (serde.tokenTransferred ev.value).map fun t =>
      .transfer { src := t.src, dst := t.dst, amountNano := t.amount, tokenId := t.tokenId }
  else none

/-- `classify_events` -/
def classifyEvents (events : List LedgerEvent) : IndexerTx :=
  ((events.findSome? (classifyAttestationEvent codec serde)).or
    ((classifyBountyEvents serde events).or
      ((classifyContractEvents serde events).or
        (events.findSome? (classifyBankEvent serde))))).getD
    (.unknown (events.map LedgerEvent.key))

/-- `classify_tx` -/
def classifyTx (tx : LedgerTx) (events : List LedgerEvent) : Option ClassifiedTx :=
  let outcome := outcomeOf tx.result
  if outcome = .skipped then none
  else some
    { hash := tx.hash, batchNumber := tx.batchNumber, globalTxNumber := tx.number, outcome,
      kind := classifyEvents codec serde events }

/-! ## What a classification keeps -/

theorem outcomeOf_eq_committed {r : String} : outcomeOf r = .committed ↔ r = "successful" := by
  unfold outcomeOf
  split <;> simp_all

theorem outcomeOf_eq_reverted {r : String} : outcomeOf r = .reverted ↔ r = "reverted" := by
  unfold outcomeOf
  split <;> simp_all

/-! ## The claim count -/

section ClaimCount

@[simp] theorem BountyScan.note_claimCount (s : BountyScan) (kind : BountyEventKind)
    (id : Option String) : (s.note kind id).claimCount = s.claimCount := by
  cases id <;> rfl

@[simp] theorem BountyScan.note_sawClaim (s : BountyScan) (kind : BountyEventKind)
    (id : Option String) : (s.note kind id).sawClaim = s.sawClaim := by
  cases id <;> rfl

/-- An event counts as a claim or leaves the claim accumulators alone. -/
theorem BountyScan.see_cases (s : BountyScan) (ev : LedgerEvent) :
    ((s.see serde ev).claimCount = s.claimCount ∧ (s.see serde ev).sawClaim = s.sawClaim) ∨
      ((s.see serde ev).claimCount = s.claimCount + 1 ∧ (s.see serde ev).sawClaim = true) := by
  unfold BountyScan.see
  split
  case h_2 =>
    split
    · right
      split <;> simp
    · exact .inl ⟨rfl, rfl⟩
  all_goals simp

/-- The kind kept for the first event is never a claim. -/
def BountyScan.NoClaimKept (s : BountyScan) : Prop := ∀ id n p, s.first ≠ some (id, .claimed n p)

theorem BountyScan.NoClaimKept.note {s : BountyScan} (h : s.NoClaimKept) {kind : BountyEventKind}
    (hk : ∀ n p, kind ≠ .claimed n p) (id : Option String) : (s.note kind id).NoClaimKept := by
  cases id with
  | none => exact h
  | some i =>
    intro id n p he
    rcases Option.or_eq_some_iff.1 he with he | ⟨-, he⟩
    · exact h id n p he
    · simp only [Option.some.injEq, Prod.mk.injEq] at he
      exact hk n p he.2

theorem BountyScan.NoClaimKept.see {s : BountyScan} (h : s.NoClaimKept) (ev : LedgerEvent) :
    (s.see serde ev).NoClaimKept := by
  unfold BountyScan.see
  split
  case h_2 =>
    split
    · refine BountyScan.NoClaimKept.note ?_ (by simp) _
      split <;> exact h
    · exact h
  case h_7 => exact h
  all_goals exact h.note (by simp) _

/-- Below `2 ^ 32` events the count does not wrap around. -/
theorem BountyScan.foldl_see {events : List LedgerEvent} {s : BountyScan}
    (hlen : s.claimCount.toNat + events.length < 2 ^ 32)
    (hs : s.sawClaim = true → 0 < s.claimCount.toNat) (hk : s.NoClaimKept) :
    ((events.foldl (BountyScan.see serde) s).sawClaim = true →
      0 < (events.foldl (BountyScan.see serde) s).claimCount.toNat) ∧
      (events.foldl (BountyScan.see serde) s).NoClaimKept := by
  induction events generalizing s with
  | nil => exact ⟨hs, hk⟩
  | cons ev events ih =>
    rw [List.length_cons] at hlen
    rcases BountyScan.see_cases serde s ev with ⟨hcount, hsaw⟩ | ⟨hcount, -⟩
    · refine ih ?_ ?_ (hk.see serde ev)
      · rw [hcount]
        omega
      · rwa [hcount, hsaw]
    · have hadd : (s.see serde ev).claimCount.toNat = s.claimCount.toNat + 1 := by
        rw [hcount, UInt32.toNat_add]
        exact Nat.mod_eq_of_lt (by simp; omega)
      refine ih ?_ ?_ (hk.see serde ev)
      · omega
      · omega

theorem classifyBountyEvents_claimed {events : List LedgerEvent} {id p : String} {n : UInt32}
    (hlen : events.length < 2 ^ 32)
    (h : classifyBountyEvents serde events = some (.bountyEvent id (.claimed n p))) : n ≠ 0 := by
  have hscan : ((events.foldl (BountyScan.see serde) {}).sawClaim = true →
      0 < (events.foldl (BountyScan.see serde) {}).claimCount.toNat) ∧
      (events.foldl (BountyScan.see serde) {}).NoClaimKept :=
    BountyScan.foldl_see serde (by simpa using hlen) nofun nofun
  simp only [classifyBountyEvents, Option.map_eq_some_iff] at h
  obtain ⟨⟨id', kind⟩, hfirst, h⟩ := h
  simp only [IndexerTx.bountyEvent.injEq] at h
  obtain ⟨-, h⟩ := h
  split at h
  · rename_i hsaw
    cases h
    rintro h0
    have := hscan.1 hsaw
    rw [h0] at this
    exact absurd this (by decide)
  · subst h
    exact absurd hfirst (hscan.2 id' n p)

theorem classifyAttestationEvent_ne_bounty {ev : LedgerEvent} {id : String}
    {kind : BountyEventKind} :
    classifyAttestationEvent codec serde ev ≠ some (.bountyEvent id kind) := by
  unfold classifyAttestationEvent
  split
  · simp
  · simp
  · simp only [ne_eq, Option.bind_eq_some_iff, not_exists, not_and]
    intro d _
    split <;> simp
  · simp

theorem classifyBankEvent_ne_bounty {ev : LedgerEvent} {id : String} {kind : BountyEventKind} :
    classifyBankEvent serde ev ≠ some (.bountyEvent id kind) := by
  unfold classifyBankEvent
  split <;> simp

/-- A classified claim counts at least one event. -/
theorem classifyEvents_claimed {events : List LedgerEvent} {id p : String} {n : UInt32}
    (hlen : events.length < 2 ^ 32)
    (h : classifyEvents codec serde events = .bountyEvent id (.claimed n p)) : n ≠ 0 := by
  unfold classifyEvents at h
  cases ha : events.findSome? (classifyAttestationEvent codec serde) with
  | some x =>
    obtain ⟨ev, -, hev⟩ := List.exists_of_findSome?_eq_some ha
    simp only [ha, Option.some_or, Option.getD_some] at h
    exact absurd (h ▸ hev) (classifyAttestationEvent_ne_bounty codec serde)
  | none =>
    cases hb : classifyBountyEvents serde events with
    | some x =>
      simp only [ha, hb, Option.none_or, Option.some_or, Option.getD_some] at h
      exact classifyBountyEvents_claimed serde hlen (h ▸ hb)
    | none =>
      -- neither a contract nor a bank event gives a claim
      simp only [ha, hb, Option.none_or, Option.getD_eq_iff] at h
      rcases h with h | ⟨-, h⟩
      · rcases Option.or_eq_some_iff.1 h with h | ⟨-, h⟩
        · obtain ⟨c, -, hc⟩ := Option.map_eq_some_iff.1 h
          cases hc
        · obtain ⟨ev, -, hev⟩ := List.exists_of_findSome?_eq_some h
          exact absurd hev (classifyBankEvent_ne_bounty serde)
      · cases h

end ClaimCount

end LigateApi.Indexer
