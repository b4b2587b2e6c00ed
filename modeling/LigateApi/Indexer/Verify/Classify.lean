import LigateApi.Indexer.Parser

/-!
# What a classification depends on

An event is semantic if its key belongs to the attestation, the bounty or the contract module, and
decodable if its payload is. The first three passes read the decodable semantic events and nothing
else (`semanticTx_congr`), and one of them succeeds exactly if there is such an event; only then is
the bank pass reached. `leading` says which family wins and where its identifier comes from.
-/

namespace LigateApi.Indexer

/-! ## Decodable semantic events -/

inductive Family
  | attestation
  | bounty
  | contract
  deriving DecidableEq, Repr

/-- The payload type of a bounty key other than `Bounty/BountyClaimed`. -/
def bountyPayloadOf : String → Option BountyPayload
  | "Bounty/BountyPosted" => some .posted
  | "Bounty/BountyDisputed" => some .disputed
  | "Bounty/DisputeResolved" => some .disputeResolved
  | "Bounty/BountyExpired" => some .expired
  | "Bounty/BountyFinalised" => some .finalised
  | _ => none

def contractPayloadOf : String → Option ContractPayload
  | "Contracts/ContractPosted" => some .posted
  | "Contracts/WorkerCommitted" => some .workerCommitted
  | "Contracts/ContractDelivered" => some .delivered
  | "Contracts/DeliveryAccepted" => some .deliveryAccepted
  | "Contracts/DeliveryRejected" => some .deliveryRejected
  | "Contracts/ContractDisputeResolved" => some .disputeResolved
  | "Contracts/ContractCancelled" => some .cancelled
  | "Contracts/ContractExpired" => some .expired
  | _ => none

variable (codec : Codec) (serde : Serde)

/-- The identifier of a decodable attestation event; a submission is identified by its derived
`lat1` id. -/
def attestationIdOf (ev : LedgerEvent) : Option String :=
  match ev.key with
  | "AttestationModule/AttestorSetRegistered" =>
    (serde.attestorSetRegistered ev.value).map AttestorSetRegistered.attestorSetId
  | "AttestationModule/SchemaRegistered" =>
    (serde.schemaRegistered ev.value).map SchemaRegistered.schemaId
  | "AttestationModule/AttestationSubmitted" =>
    (serde.attestationSubmitted ev.value).bind fun d =>
      (computeAttestationId codec d.schemaId d.payloadHash).toOption
  | _ => none

def bountyIdOf (ev : LedgerEvent) : Option String :=
  if ev.key = "Bounty/BountyClaimed" then
    (serde.bountyClaimed ev.value).map BountyClaimed.bountyId
  else (bountyPayloadOf ev.key).bind fun payload => serde.bounty payload ev.value

def contractIdOf (ev : LedgerEvent) : Option String :=
  (contractPayloadOf ev.key).bind fun payload => serde.contract payload ev.value

/-- The event kind of each payload type. -/
def BountyPayload.kind : BountyPayload → BountyEventKind
  | .posted => .posted
  | .disputed => .disputed
  | .disputeResolved => .disputeResolved
  | .expired => .expired
  | .finalised => .finalised

/-- The payload of a decodable claim. -/
def claimOf (ev : LedgerEvent) : Option BountyClaimed :=
  if ev.key = "Bounty/BountyClaimed" then serde.bountyClaimed ev.value else none

/-- What the bounty pass notes down for an event if it is the first one. -/
def notedOf (ev : LedgerEvent) : Option (String × BountyEventKind) :=
  match claimOf serde ev with
  | some d => some (d.bountyId, .posted)
  | none => (bountyPayloadOf ev.key).bind fun payload =>
      (serde.bounty payload ev.value).map fun id => (id, payload.kind)

/-- A decodable semantic event. -/
def decodable (ev : LedgerEvent) : Bool :=
  (attestationIdOf codec serde ev).isSome || (bountyIdOf serde ev).isSome ||
    (contractIdOf serde ev).isSome

/-- The decodable semantic events of a list, in order, as keys and payloads. -/
def semanticEvents (events : List LedgerEvent) : List (String × Json) :=
  (events.filter (decodable codec serde)).map fun ev => (ev.key, ev.value)

/-- The family that wins, and the identifier of its first decodable event. -/
def leading (events : List LedgerEvent) : Option (Family × String) :=
  ((events.findSome? (attestationIdOf codec serde)).map fun id => (.attestation, id)).or
    (((events.findSome? (bountyIdOf serde)).map fun id => (.bounty, id)).or
      ((events.findSome? (contractIdOf serde)).map fun id => (.contract, id)))

/-- The payload of a decodable bank transfer. -/
def bankTransferOf (ev : LedgerEvent) : Option TokenTransferred :=
  if ev.key = "Bank/TokenTransferred" then serde.tokenTransferred ev.value else none

/-- The family and the identifier a classification carries. -/
def IndexerTx.subject : IndexerTx → Option (Family × String)
  | .registerAttestorSet d => some (.attestation, d.attestorSetId)
  | .registerSchema d => some (.attestation, d.schemaId)
  | .submitAttestation d => some (.attestation, d.id)
  | .bountyEvent bountyId _ => some (.bounty, bountyId)
  | .contractEvent contractId _ => some (.contract, contractId)
  | .transfer _ => none
  | .unknown _ => none

/-! ## One event -/

section OneEvent

variable {codec : Codec} {serde : Serde}

theorem classifyAttestationEvent_subject (ev : LedgerEvent) :
    (classifyAttestationEvent codec serde ev).map IndexerTx.subject =
      (attestationIdOf codec serde ev).map fun id => some (.attestation, id) := by
  by_cases hset : ev.key = "AttestationModule/AttestorSetRegistered"
  · simp only [classifyAttestationEvent, attestationIdOf, hset]
    cases serde.attestorSetRegistered ev.value <;> rfl
  by_cases hschema : ev.key = "AttestationModule/SchemaRegistered"
  · simp only [classifyAttestationEvent, attestationIdOf, hschema]
    cases serde.schemaRegistered ev.value <;> rfl
  by_cases hsubmitted : ev.key = "AttestationModule/AttestationSubmitted"
  · simp only [classifyAttestationEvent, attestationIdOf, hsubmitted]
    cases serde.attestationSubmitted ev.value with
    | none => rfl
    | some d =>
      rw [Option.bind_some, Option.bind_some]
      cases computeAttestationId codec d.schemaId d.payloadHash <;> rfl
  · simp [classifyAttestationEvent, attestationIdOf]

theorem contractEvent_id (ev : LedgerEvent) :
    (contractEvent serde ev).map Prod.fst = contractIdOf serde ev := by
  unfold contractEvent contractIdOf
  simp only
  split <;> simp_all [contractPayloadOf, Function.comp_def]

theorem BountyScan.note_eq (s : BountyScan) (kind : BountyEventKind) (id : Option String) :
    s.note kind id = { s with first := s.first.or (id.map fun i => (i, kind)) } := by
  cases id with
  | none => simp [BountyScan.note]
  | some i => rfl

/-- One event of the bounty pass: a claim is counted and added up, anything else is noted if it is
the first. -/
theorem BountyScan.see_eq (s : BountyScan) (ev : LedgerEvent) :
    s.see serde ev =
      match claimOf serde ev with
      | some d =>
        { first := s.first.or (some (d.bountyId, .posted))
          claimCount := s.claimCount + 1
          claimTotal := (parseU128 d.payout).elim s.claimTotal (saturatingAddU128 s.claimTotal)
          sawClaim := true }
      | none => { s with first := s.first.or (notedOf serde ev) } := by
  by_cases hk : ev.key = "Bounty/BountyClaimed"
  · have hclaim : claimOf serde ev = serde.bountyClaimed ev.value := if_pos hk
    have hpayload : bountyPayloadOf ev.key = none := by
      rw [hk]
      rfl
    unfold BountyScan.see
    rw [notedOf, hclaim, hpayload, hk]
    cases hd : serde.bountyClaimed ev.value with
    | none => simp only [Option.bind_none, Option.or_none]
    | some d =>
      simp only [BountyScan.note_eq, Option.map_some]
      cases parseU128 d.payout <;> rfl
  · have hclaim : claimOf serde ev = none := if_neg hk
    simp only [notedOf, hclaim]
    unfold BountyScan.see bountyPayloadOf
    split
    case h_2 => exact absurd ‹_› hk
    case h_7 => simp_all
    all_goals
      simp only [*, BountyScan.note_eq, Option.bind_some]
      rfl

theorem notedOf_id (ev : LedgerEvent) : (notedOf serde ev).map Prod.fst = bountyIdOf serde ev := by
  unfold notedOf bountyIdOf claimOf
  by_cases hk : ev.key = "Bounty/BountyClaimed"
  · rw [if_pos hk, if_pos hk, hk]
    cases serde.bountyClaimed ev.value <;> rfl
  · rw [if_neg hk, if_neg hk]
    simp only [Option.map_bind, Function.comp_def, Option.map_map, Option.map_id_fun', id]

/-- An event of another module or with a malformed payload is passed over. -/
theorem BountyScan.see_eq_self (s : BountyScan) {ev : LedgerEvent} (h : bountyIdOf serde ev = none) :
    s.see serde ev = s := by
  rw [← notedOf_id, Option.map_eq_none_iff] at h
  have hclaim : claimOf serde ev = none := by
    cases hc : claimOf serde ev with
    | none => rfl
    | some d => simp [notedOf, hc] at h
  simp [BountyScan.see_eq, hclaim, h]

end OneEvent

/-! ## The passes -/

section Passes

variable {codec : Codec} {serde : Serde}

/-- A pass that skips what fails `p` reads only what meets it. -/
theorem findSome?_filter_of_none {α β : Type} {p : α → Bool} {f : α → Option β} {l : List α}
    (h : ∀ a, p a = false → f a = none) : (l.filter p).findSome? f = l.findSome? f := by
  induction l with
  | nil => rfl
  | cons a l ih =>
    cases hp : p a with
    | true => rw [List.filter_cons_of_pos hp, List.findSome?_cons, List.findSome?_cons, ih]
    | false =>
      rw [List.filter_cons_of_neg (by rw [hp]; exact Bool.false_ne_true), List.findSome?_cons, h a hp,
        ih]

theorem foldl_filter_of_fixed {α σ : Type} {p : α → Bool} {f : σ → α → σ} {l : List α} {s : σ}
    (h : ∀ s a, p a = false → f s a = s) : (l.filter p).foldl f s = l.foldl f s := by
  induction l generalizing s with
  | nil => rfl
  | cons a l ih =>
    cases hp : p a with
    | true => rw [List.filter_cons_of_pos hp, List.foldl_cons, List.foldl_cons, ih]
    | false =>
      rw [List.filter_cons_of_neg (by rw [hp]; exact Bool.false_ne_true), List.foldl_cons,
        h s a hp, ih]

theorem not_decodable {ev : LedgerEvent} (h : decodable codec serde ev = false) :
    attestationIdOf codec serde ev = none ∧ bountyIdOf serde ev = none ∧
      contractIdOf serde ev = none := by
  simpa [decodable, and_assoc] using h

/-- The first decodable bounty event is noted down. -/
theorem BountyScan.foldl_first (events : List LedgerEvent) (s : BountyScan) :
    (events.foldl (BountyScan.see serde) s).first =
      s.first.or (events.findSome? (notedOf serde)) := by
  induction events generalizing s with
  | nil => simp
  | cons ev events ih =>
    have hstep : (s.see serde ev).first = s.first.or (notedOf serde ev) := by
      rw [BountyScan.see_eq, notedOf]
      cases claimOf serde ev <;> rfl
    rw [List.foldl_cons, ih, hstep, List.findSome?_cons]
    cases s.first <;> cases notedOf serde ev <;> rfl

variable (serde) in
theorem findSome?_notedOf (events : List LedgerEvent) :
    (events.findSome? (notedOf serde)).map Prod.fst = events.findSome? (bountyIdOf serde) := by
  rw [List.map_findSome?]
  congr 1
  funext ev
  exact notedOf_id ev

/-- What the three semantic passes find. -/
def semanticTx (codec : Codec) (serde : Serde) (events : List LedgerEvent) : Option IndexerTx :=
  (events.findSome? (classifyAttestationEvent codec serde)).or
    ((classifyBountyEvents serde events).or (classifyContractEvents serde events))

theorem classifyEvents_eq (events : List LedgerEvent) :
    classifyEvents codec serde events =
      ((semanticTx codec serde events).or (events.findSome? (classifyBankEvent serde))).getD
        (.unknown (events.map LedgerEvent.key)) := by
  rw [classifyEvents, semanticTx, Option.or_assoc, Option.or_assoc]

variable (codec serde) in
theorem classifyAttestation_pass (events : List LedgerEvent) :
    (events.findSome? (classifyAttestationEvent codec serde)).map IndexerTx.subject =
      (events.findSome? (attestationIdOf codec serde)).map fun id => some (.attestation, id) := by
  rw [List.map_findSome?, List.map_findSome?]
  congr 1
  funext ev
  exact classifyAttestationEvent_subject ev

theorem classifyBountyEvents_pass (events : List LedgerEvent) :
    (classifyBountyEvents serde events).map IndexerTx.subject =
      (events.findSome? (bountyIdOf serde)).map fun id => some (.bounty, id) := by
  have hfirst : (events.foldl (BountyScan.see serde) {}).first =
      events.findSome? (notedOf serde) :=
    BountyScan.foldl_first events {}
  rw [← findSome?_notedOf, ← hfirst, classifyBountyEvents, Option.map_map, Option.map_map]
  rfl

theorem classifyContractEvents_pass (events : List LedgerEvent) :
    (classifyContractEvents serde events).map IndexerTx.subject =
      (events.findSome? (contractIdOf serde)).map fun id => some (.contract, id) := by
  have hid : contractIdOf serde = fun ev => (contractEvent serde ev).map Prod.fst :=
    funext fun ev => (contractEvent_id ev).symm
  have hfind : events.findSome? (contractIdOf serde) =
      (events.findSome? (contractEvent serde)).map Prod.fst := by
    rw [hid, List.map_findSome?]
    rfl
  rw [classifyContractEvents, hfind, Option.map_map, Option.map_map]
  rfl

variable (codec serde) in
/-- The semantic passes find the leading family under its identifier. -/
theorem semanticTx_subject (events : List LedgerEvent) :
    (semanticTx codec serde events).map IndexerTx.subject =
      (leading codec serde events).map some := by
  have hmap : ∀ {α β : Type} (f : α → β) (x y : Option α),
      (x.or y).map f = (x.map f).or (y.map f) := by
    intro α β f x y
    cases x <;> rfl
  rw [semanticTx, leading, hmap, hmap, hmap, hmap, classifyAttestation_pass,
    classifyBountyEvents_pass, classifyContractEvents_pass, Option.map_map, Option.map_map,
    Option.map_map]
  rfl

variable (codec serde) in
/-- A classification carries the leading family and its identifier, if there is one. -/
theorem classifyEvents_subject (events : List LedgerEvent) :
    (classifyEvents codec serde events).subject = leading codec serde events := by
  have hsub := semanticTx_subject codec serde events
  rw [classifyEvents_eq]
  cases htx : semanticTx codec serde events with
  | some tx =>
    rw [htx, Option.map_some, eq_comm, Option.map_eq_some_iff] at hsub
    obtain ⟨p, hlead, hp⟩ := hsub
    rw [hlead]
    exact hp.symm
  | none =>
    rw [htx, Option.map_none, eq_comm, Option.map_eq_none_iff] at hsub
    rw [hsub, Option.none_or]
    cases hbank : events.findSome? (classifyBankEvent serde) with
    | none => rfl
    | some tx =>
      obtain ⟨ev, -, hev⟩ := List.exists_of_findSome?_eq_some hbank
      unfold classifyBankEvent at hev
      split at hev
      · obtain ⟨t, -, rfl⟩ := Option.map_eq_some_iff.1 hev
        rfl
      · cases hev

/-- They read the decodable semantic events and nothing else. -/
theorem semanticTx_filter (events : List LedgerEvent) :
    semanticTx codec serde (events.filter (decodable codec serde)) =
      semanticTx codec serde events := by
  have hatt : ∀ ev, decodable codec serde ev = false →
      classifyAttestationEvent codec serde ev = none := by
    intro ev h
    have hsub : (classifyAttestationEvent codec serde ev).map IndexerTx.subject =
        (attestationIdOf codec serde ev).map fun id => some (.attestation, id) :=
      classifyAttestationEvent_subject ev
    rw [(not_decodable h).1, Option.map_none, Option.map_eq_none_iff] at hsub
    exact hsub
  have hbounty : ∀ s ev, decodable codec serde ev = false → BountyScan.see serde s ev = s := by
    intro s ev h
    exact s.see_eq_self (not_decodable h).2.1
  have hcontract : ∀ ev, decodable codec serde ev = false → contractEvent serde ev = none := by
    intro ev h
    have hid : (contractEvent serde ev).map Prod.fst = contractIdOf serde ev := contractEvent_id ev
    rw [(not_decodable h).2.2, Option.map_eq_none_iff] at hid
    exact hid
  rw [semanticTx, semanticTx, classifyBountyEvents, classifyBountyEvents, classifyContractEvents,
    classifyContractEvents, findSome?_filter_of_none hatt, foldl_filter_of_fixed hbounty,
    findSome?_filter_of_none hcontract]

/-- Of an event they read the key and the payload. -/
theorem semanticTx_map (events : List LedgerEvent) :
    semanticTx codec serde ((events.map fun ev => (ev.key, ev.value)).map fun p => ⟨p.1, p.2, ""⟩) =
      semanticTx codec serde events := by
  rw [List.map_map, semanticTx, semanticTx, classifyBountyEvents, classifyBountyEvents,
    classifyContractEvents, classifyContractEvents, List.findSome?_map, List.findSome?_map,
    List.foldl_map]
  rfl

theorem semanticTx_congr {es fs : List LedgerEvent}
    (h : semanticEvents codec serde es = semanticEvents codec serde fs) :
    semanticTx codec serde es = semanticTx codec serde fs := by
  rw [← semanticTx_filter es, ← semanticTx_filter fs, ← semanticTx_map (es.filter _),
    ← semanticTx_map (fs.filter _)]
  unfold semanticEvents at h
  rw [h]

/-- A family leads exactly if there is a decodable semantic event. -/
theorem leading_eq_none_iff {es : List LedgerEvent} :
    leading codec serde es = none ↔ semanticEvents codec serde es = [] := by
  simp only [leading, Option.or_eq_none_iff, Option.map_eq_none_iff, List.findSome?_eq_none_iff,
    semanticEvents, List.map_eq_nil_iff, List.filter_eq_nil_iff]
  constructor
  · rintro ⟨ha, hb, hc⟩ ev hev
    simp [decodable, ha ev hev, hb ev hev, hc ev hev]
  · intro h
    have hnot : ∀ ev ∈ es, decodable codec serde ev = false := fun ev hev => by
      simpa using h ev hev
    exact ⟨fun ev hev => (not_decodable (hnot ev hev)).1,
      fun ev hev => (not_decodable (hnot ev hev)).2.1,
      fun ev hev => (not_decodable (hnot ev hev)).2.2⟩

theorem classifyBank_pass (events : List LedgerEvent) :
    events.findSome? (classifyBankEvent serde) =
      (events.findSome? (bankTransferOf serde)).map fun t =>
        .transfer { src := t.src, dst := t.dst, amountNano := t.amount, tokenId := t.tokenId } := by
  rw [List.map_findSome?]
  congr 1
  funext ev
  simp only [classifyBankEvent, bankTransferOf, Function.comp_apply]
  split <;> rfl

end Passes

/-! ## The classification -/

/-- **Classification.** With a decodable semantic event the result is a function of these events
alone, in the family that leads and under its first identifier. Without one it is the first
decodable bank transfer, or else the list of keys. -/
theorem classifyEvents_by_semantic_events :
    (∀ es fs, semanticEvents codec serde es = semanticEvents codec serde fs →
      semanticEvents codec serde es ≠ [] →
      classifyEvents codec serde es = classifyEvents codec serde fs) ∧
    (∀ es, semanticEvents codec serde es ≠ [] →
      ∃ family id, leading codec serde es = some (family, id) ∧
        (classifyEvents codec serde es).subject = some (family, id)) ∧
    ∀ es, semanticEvents codec serde es = [] →
      classifyEvents codec serde es =
        match es.findSome? (bankTransferOf serde) with
        | some t => .transfer
            { src := t.src, dst := t.dst, amountNano := t.amount, tokenId := t.tokenId }
        | none => .unknown (es.map LedgerEvent.key) := by
  have hsome : ∀ es, semanticEvents codec serde es ≠ [] →
      ∃ tx family id, semanticTx codec serde es = some tx ∧
        leading codec serde es = some (family, id) ∧ tx.subject = some (family, id) := by
    intro es hne
    obtain ⟨⟨family, id⟩, hlead⟩ :=
      Option.ne_none_iff_exists'.1 (mt leading_eq_none_iff.1 hne)
    have hsub := semanticTx_subject codec serde es
    rw [hlead, Option.map_some, Option.map_eq_some_iff] at hsub
    obtain ⟨tx, htx, hsubject⟩ := hsub
    exact ⟨tx, family, id, htx, hlead, hsubject⟩
  refine ⟨?_, ?_, ?_⟩
  · intro es fs hsame hne
    obtain ⟨tx, -, -, htx, -⟩ := hsome es hne
    have htx' : semanticTx codec serde fs = some tx := (semanticTx_congr hsame).symm.trans htx
    rw [classifyEvents_eq, classifyEvents_eq, htx, htx']
    rfl
  · intro es hne
    obtain ⟨tx, family, id, htx, hlead, hsubject⟩ := hsome es hne
    refine ⟨family, id, hlead, ?_⟩
    rw [classifyEvents_eq, htx]
    exact hsubject
  · intro es hnone
    have hsub := semanticTx_subject codec serde es
    rw [leading_eq_none_iff.2 hnone, Option.map_none, Option.map_eq_none_iff] at hsub
    rw [classifyEvents_eq, hsub, Option.none_or, classifyBank_pass]
    cases es.findSome? (bankTransferOf serde) <;> rfl

/-- Payloads of posted bounties and of bank transfers. -/
def postedSerde : Serde where
  attestorSetRegistered _ := none
  schemaRegistered _ := none
  attestationSubmitted _ := none
  bountyClaimed _ := none
  bounty
    | .posted, .obj [("BountyPosted",
        .obj [("bounty_id", .str id), ("poster", .str _), ("pool", .str _)])] => some id
    | _, _ => none
  contract _ _ := none
  tokenTransferred
    | .obj [("token_transferred", .obj [("from", .obj [("user", .str src)]),
        ("to", .obj [("user", .str dst)]),
        ("coins", .obj [("amount", .str amount), ("token_id", .str tokenId)])])] =>
      some { src, dst, amount, tokenId }
    | _ => none
  toText _ := "null"

def postedEvent : LedgerEvent :=
  ⟨"Bounty/BountyPosted", .obj [("BountyPosted", .obj [("bounty_id", .str "lbt1"),
    ("poster", .str "lig1p"), ("pool", .str "100")])], "0xaa"⟩

/-- The escrow deposit a posting pays. -/
def depositEvent : LedgerEvent :=
  ⟨"Bank/TokenTransferred", .obj [("token_transferred", .obj [("from", .obj [("user", .str "lig1p")]),
    ("to", .obj [("user", .str "lig1e")]),
    ("coins", .obj [("amount", .str "100"), ("token_id", .str "token_1")])])], "0xaa"⟩

/-- No codec is consulted for these events. -/
def idleCodec : Codec := ⟨fun _ => none, fun _ _ => none, fun _ => none, fun bytes => bytes⟩

theorem posted_beside_deposit :
    classifyEvents idleCodec postedSerde [depositEvent, postedEvent] =
        classifyEvents idleCodec postedSerde [postedEvent] ∧
      ∃ family id, leading idleCodec postedSerde [depositEvent, postedEvent] = some (family, id) ∧
        (classifyEvents idleCodec postedSerde [depositEvent, postedEvent]).subject =
          some (family, id) := by
  obtain ⟨hsame, hlead, -⟩ := classifyEvents_by_semantic_events idleCodec postedSerde
  exact ⟨hsame _ _ rfl (List.cons_ne_nil _ _), hlead _ (List.cons_ne_nil _ _)⟩

end LigateApi.Indexer
