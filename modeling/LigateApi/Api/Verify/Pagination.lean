import Mathlib.Data.List.Chain
import Mathlib.Data.String.Basic
import LigateApi.Api.Verify.Listing

/-!
# The list endpoints are lossless

Each of the list endpoints as a `Listing` (`listing`). Its handler answers with pages of its
matching rows (`paged`), the unique constraints make its sort key unique (`nodup_keys`), and rows
that keep their sort key and filter columns keep matching (`keeps_matching`); so every walk is
lossless. The sort key of attestations leaves out the transaction that is part of their primary
key, and is unique only because the id of an attestation is made from its schema and payload.
-/

namespace LigateApi.Api

open Lib Queries
open Indexer hiding TxRow SchemaRow Env

/-! ## Endpoints -/

/-- The list endpoints with their path and filter parameters. -/
inductive Endpoint
  | blocks
  | txs (kind : Option String) (blockHeight : Option UInt64)
  | addressTxs (addr : String)
  | schemas (attestorSetId : Option String)
  | attestations
  | attestationsBySchema (schemaId : String)
  | attestationsByAttestorSet (setId : String)
  | attestorSets
  | attestorSetsByMember (pubkey : String)
  | bounties (board status : Option String)
  | contracts (status poster arbiter : Option String)

/-- The member endpoint answers 400 to what is no public key. -/
def Endpoint.Accepted (env : Env) : Endpoint → Prop
  | .attestorSetsByMember pubkey =>
    ∃ data, env.bech32Decode (env.trimLower pubkey) = .ok ("lpk", data) ∧ data.length = 32
  | _ => True

variable (env : Env)

/-- The three attestation endpoints differ in what they select from. -/
def attestationListing (respond : Db → PaginationParams → Reply AttestationRow)
    (matching : Db → List AttestationRow) : Listing where
  Row := AttestationRow
  Key := Int ×ₗ env.postgres.collation.SortKey ×ₗ env.postgres.collation.SortKey
  order := inferInstance
  Id := String
  respond
  matching
  key := attestationKey env.postgres
  ident := AttestationRow.id
  ReadsBack r := ReadsBack env.base64 env.attestations (attestationRowCursor r)

def attestorSetListing (respond : Db → PaginationParams → Reply AttestorSetRow)
    (matching : Db → List AttestorSetRow) : Listing where
  Row := AttestorSetRow
  Key := Int ×ₗ env.postgres.collation.SortKey
  order := inferInstance
  Id := String
  respond
  matching
  key := attestorSetKey env.postgres
  ident := AttestorSetRow.id
  ReadsBack r := ReadsBack env.base64 env.attestorSets (attestorSetRowCursor r)

def txListing (respond : Db → PaginationParams → Reply TxRow) (matching : Db → List TxRow) :
    Listing where
  Row := TxRow
  Key := Int ×ₗ Int
  order := inferInstance
  Id := String
  respond
  matching
  key := txKey
  ident r := r.hash
  ReadsBack r := ReadsBack env.base64 env.txs (txRowCursor r)

/-- Each endpoint on a database that answers. -/
def listing : Endpoint → Listing
  | .blocks =>
    { Row := SlotRow
      Key := Int
      order := inferInstance
      Id := Int64
      respond := fun db => blocksList env (.ok db)
      matching := Db.slots
      key := slotKey
      ident := SlotRow.height
      ReadsBack := fun r => ReadsBack env.base64 env.blocks { slot := r.height.toUInt64 } }
  | .txs kind blockHeight =>
    txListing env (fun db params => txsList env (.ok db) { params with kind, blockHeight })
      (txsMatching kind blockHeight)
  | .addressTxs addr =>
    txListing env (fun db => addressTxs env (.ok db) addr) (addressTxsMatching env.postgres addr)
  | .schemas attestorSetId =>
    { Row := SchemaRow
      Key := Int ×ₗ env.postgres.collation.SortKey
      order := inferInstance
      Id := String
      respond := fun db params => schemasList env (.ok db) { params with attestorSetId }
      matching := schemasMatching attestorSetId
      key := schemaKey env.postgres
      ident := fun r => r.id
      ReadsBack := fun r => ReadsBack env.base64 env.schemas
        { slot := r.registeredAtSlot.toUInt64, id := r.id } }
  | .attestations =>
    attestationListing env (fun db => attestationsList env (.ok db)) (attestationsMatching none)
  | .attestationsBySchema schemaId =>
    attestationListing env (fun db => attestationsBySchema env (.ok db) schemaId)
      (attestationsMatching (some schemaId))
  | .attestationsByAttestorSet setId =>
    attestationListing env (fun db => attestationsByAttestorSet env (.ok db) setId)
      (attestorSetMatching setId)
  | .attestorSets =>
    attestorSetListing env (fun db => attestorSetsList env (.ok db)) Db.attestorSets
  | .attestorSetsByMember pubkey =>
    attestorSetListing env (fun db => attestorSetsByMember env (.ok db) pubkey)
      (memberMatching (env.trimLower pubkey))
  | .bounties board status =>
    { Row := BountyRow
      Key := Int ×ₗ env.postgres.collation.SortKey
      order := inferInstance
      Id := String
      respond := fun db params => bountiesList env (.ok db) { params with board, status }
      matching := bountiesMatching board status
      key := bountyKey env.postgres
      ident := BountyRow.id
      ReadsBack := fun r => ReadsBack env.base64 env.bounties
        { slot := r.postedAtSlot.toUInt64, id := r.id } }
  | .contracts status poster arbiter =>
    { Row := ContractRow
      Key := Int ×ₗ env.postgres.collation.SortKey
      order := inferInstance
      Id := String
      respond := fun db params => contractsList env (.ok db) { params with status, poster, arbiter }
      matching := contractsMatching status poster arbiter
      key := contractKey env.postgres
      ident := ContractRow.id
      ReadsBack := fun r => ReadsBack env.base64 env.contracts
        { slot := r.postedAtSlot.toUInt64, id := r.id } }

/-! ## Pages -/

/-- What `list` around a selection does. -/
def Paged.ofList {L : Listing} {C B : Type} (json : CursorJson C) (bound : C → B)
    (keyOf : B → L.Key) (cursor : L.Row → C) (maxAgeSecs : UInt32)
    (hrespond : ∀ db params, L.respond db params = list env.base64 json bound
      (fun before n => .ok (select L.key (L.matching db) (before.map keyOf) n)) cursor maxAgeSecs
      params)
    (hkey : ∀ r, keyOf (bound (cursor r)) = L.key r)
    (hreads : ∀ r, L.ReadsBack r → ReadsBack env.base64 json (cursor r)) : Paged L where
  position before := ((before.bind (decode env.base64 json)).map bound).map keyOf
  text r := encode env.base64 json (cursor r)
  respond_eq db params := ⟨maxAgeSecs, hrespond db params⟩
  position_none := rfl
  reads r hr := by
    obtain ⟨s, henc, hdec⟩ := decode_encode (hreads r hr)
    refine ⟨s, henc, ?_⟩
    rw [Option.bind_some, hdec, Option.map_some, Option.map_some, hkey]

def pagedAttestations {respond : Db → PaginationParams → Reply AttestationRow}
    {matching : Db → List AttestationRow}
    (hrespond : ∀ db params, respond db params = attestationsPageOf env (fun before n =>
      .ok (select (attestationKey env.postgres) (matching db)
        (before.map (Queries.AttestationsCursor.key env.postgres)) n)) params) :
    Paged (attestationListing env respond matching) :=
  .ofList env env.attestations boundAttestationsCursor
    (Queries.AttestationsCursor.key env.postgres) attestationRowCursor ttlModestSecs hrespond
    (fun _ => rfl) fun _ h => h

def pagedAttestorSets {respond : Db → PaginationParams → Reply AttestorSetRow}
    {matching : Db → List AttestorSetRow}
    (hrespond : ∀ db params, respond db params = attestorSetsPageOf env (fun before n =>
      .ok (select (attestorSetKey env.postgres) (matching db)
        (before.map (SlotIdCursor.key env.postgres)) n)) params) :
    Paged (attestorSetListing env respond matching) :=
  .ofList env env.attestorSets boundAttestorSetsCursor (SlotIdCursor.key env.postgres)
    attestorSetRowCursor ttlSlowSecs hrespond (fun _ => rfl) fun _ h => h

theorem attestorSetsByMember_accepted {pubkey : String}
    (h : (Endpoint.attestorSetsByMember pubkey).Accepted env) (pg : PgPool)
    (params : PaginationParams) : attestorSetsByMember env pg pubkey params =
      attestorSetsPageOf env (attestorSetsForMemberPage env.postgres pg (env.trimLower pubkey))
        params := by
  obtain ⟨data, hdecode, hlen⟩ := h
  simp only [attestorSetsByMember, hdecode, hlen, and_self, if_true]

/-- Every handler is `list` around its selection. -/
def paged : (e : Endpoint) → e.Accepted env → Paged (listing env e)
  | .blocks, _ =>
    .ofList env env.blocks (fun c => c.slot.toInt64) Int64.toInt
      (fun r : SlotRow => { slot := r.height.toUInt64 }) ttlLiveSecs (fun _ _ => rfl)
      (fun _ => rfl) fun _ h => h
  | .txs _ _, _ =>
    .ofList env env.txs boundTxsCursor Queries.TxsCursor.key txRowCursor ttlLiveSecs
      (fun _ _ => rfl) (fun _ => rfl) fun _ h => h
  | .addressTxs _, _ =>
    .ofList env env.txs boundTxsCursor Queries.TxsCursor.key txRowCursor ttlLiveSecs
      (fun _ _ => rfl) (fun _ => rfl) fun _ h => h
  | .schemas _, _ =>
    .ofList env env.schemas (fun c => { slot := c.slot.toInt64, id := c.id })
      (SlotIdCursor.key env.postgres)
      (fun r : SchemaRow => { slot := r.registeredAtSlot.toUInt64, id := r.id }) ttlSlowSecs
      (fun _ _ => rfl) (fun _ => rfl) fun _ h => h
  | .attestations, _ => pagedAttestations env fun _ _ => rfl
  | .attestationsBySchema _, _ => pagedAttestations env fun _ _ => rfl
  | .attestationsByAttestorSet _, _ => pagedAttestations env fun _ _ => rfl
  | .attestorSets, _ => pagedAttestorSets env fun _ _ => rfl
  | .attestorSetsByMember _, h =>
    pagedAttestorSets env fun db params => attestorSetsByMember_accepted env h (.ok db) params
  | .bounties _ _, _ =>
    .ofList env env.bounties (fun c => { slot := c.slot.toInt64, id := c.id })
      (SlotIdCursor.key env.postgres)
      (fun r : BountyRow => { slot := r.postedAtSlot.toUInt64, id := r.id }) ttlModestSecs
      (fun _ _ => rfl) (fun _ => rfl) fun _ h => h
  | .contracts _ _ _, _ =>
    .ofList env env.contracts (fun c => { slot := c.slot.toInt64, id := c.id })
      (SlotIdCursor.key env.postgres)
      (fun r : ContractRow => { slot := r.postedAtSlot.toUInt64, id := r.id }) ttlModestSecs
      (fun _ _ => rfl) (fun _ => rfl) fun _ h => h

/-! ## Unique sort keys -/

/-- The primary keys and unique constraints of the tables the endpoints read. -/
structure UniqueKeys (db : Db) : Prop where
  slots : (db.slots.map SlotRow.height).Nodup
  txHash : (db.transactions.map Indexer.TxRow.hash).Nodup
  txPosition : (db.transactions.map fun r => (r.slot, r.position)).Nodup
  attestorSets : (db.attestorSets.map AttestorSetRow.id).Nodup
  schemas : (db.schemas.map Indexer.SchemaRow.id).Nodup
  schemaName : (db.schemas.map fun r => (r.owner, r.name, r.version)).Nodup
  attestations :
    (db.attestations.map fun r => (r.schemaId, r.payloadHash, r.submittedAtTx)).Nodup
  attestationId : (db.attestations.map AttestationRow.id).Nodup
  bounties : (db.bounties.map BountyRow.id).Nodup
  contracts : (db.contracts.map ContractRow.id).Nodup

/-- The id of an attestation is a function of its schema and payload. -/
def IdFromPair (db : Db) : Prop :=
  ∀ a ∈ db.attestations, ∀ b ∈ db.attestations,
    a.schemaId = b.schemaId → a.payloadHash = b.payloadHash → a.id = b.id

/-- What an endpoint needs beyond the unique constraints. -/
def Endpoint.IdsFromPairs (db : Db) : Endpoint → Prop
  | .attestations | .attestationsBySchema _ | .attestationsByAttestorSet _ => IdFromPair db
  | _ => True

section Keys

variable {R γ K : Type} {rows : List R} {key : R → K} {cols : R → γ}

/-- A key that tells apart what a unique constraint tells apart is unique. -/
theorem nodup_of_columns (h : (rows.map cols).Nodup)
    (hkey : ∀ a ∈ rows, ∀ b ∈ rows, key a = key b → cols a = cols b) : (rows.map key).Nodup := by
  rw [List.Nodup, List.pairwise_map] at h ⊢
  exact h.imp_of_mem fun ha hb hne heq => hne (hkey _ ha _ hb heq)

end Keys

variable {env} {db db' : Db}

theorem slotIdKey_inj {a b : SlotIdCursor}
    (h : SlotIdCursor.key env.postgres a = SlotIdCursor.key env.postgres b) : a.id = b.id := by
  have hpair := Prod.mk.inj (toLex.injective h)
  exact env.postgres.collation.injective hpair.2

theorem nodup_txKeys (hu : UniqueKeys db) : ((txRows db).map txKey).Nodup := by
  have hsub : ((txRows db).map txKey).Sublist (db.transactions.map fun t =>
      Queries.TxsCursor.key { slot := t.slot, position := t.position }) :=
    Table.map_join_sublist hu.slots fun _ _ => rfl
  refine List.Nodup.sublist hsub (nodup_of_columns hu.txPosition fun a _ b _ h => ?_)
  obtain ⟨hslot, hpos⟩ := Prod.mk.inj (toLex.injective h)
  exact Prod.ext (Int64.toInt_inj.1 hslot) (Int32.toInt_inj.1 hpos)

theorem nodup_schemaKeys (hu : UniqueKeys db) (filter : Option String) :
    ((schemasMatching filter db).map (schemaKey env.postgres)).Nodup := by
  have hsub : ((schemasMatching filter db).map (schemaKey env.postgres)).Sublist
      (db.schemas.map fun s =>
        SlotIdCursor.key env.postgres { slot := s.registeredAtSlot, id := s.id }) :=
    (List.filter_sublist.map _).trans (Table.map_join_sublist hu.attestorSets fun _ _ => rfl)
  exact List.Nodup.sublist hsub (nodup_of_columns hu.schemas fun _ _ _ _ h => slotIdKey_inj h)

/-- Here the ids are needed: the unique constraints on attestations alone do not tell rows of one
slot, schema and payload apart. -/
theorem nodup_attestationKeys (hu : UniqueKeys db) (hid : IdFromPair db) :
    (db.attestations.map (attestationKey env.postgres)).Nodup := by
  apply nodup_of_columns hu.attestationId
  intro a ha b hb h
  obtain ⟨-, hpair⟩ := Prod.mk.inj (toLex.injective h)
  obtain ⟨hschema, hpayload⟩ := Prod.mk.inj (toLex.injective hpair)
  exact hid a ha b hb (env.postgres.collation.injective hschema)
    (env.postgres.collation.injective hpayload)

theorem nodup_keys {e : Endpoint} (hu : UniqueKeys db) (hid : e.IdsFromPairs db) :
    (((listing env e).matching db).map (listing env e).key).Nodup := by
  cases e with
  | blocks => exact nodup_of_columns hu.slots fun _ _ _ _ h => Int64.toInt_inj.1 h
  | txs kind blockHeight => exact (nodup_txKeys hu).sublist (List.filter_sublist.map _)
  | addressTxs addr => exact (nodup_txKeys hu).sublist (List.filter_sublist.map _)
  | schemas filter => exact nodup_schemaKeys hu filter
  | attestations => exact nodup_attestationKeys hu hid
  | attestationsBySchema schemaId =>
    exact (nodup_attestationKeys hu hid).sublist (List.filter_sublist.map _)
  | attestationsByAttestorSet setId =>
    refine (nodup_attestationKeys hu hid).sublist ?_
    exact Table.map_join_sublist (hu.schemas.sublist (List.filter_sublist.map _)) fun _ _ => rfl
  | attestorSets => exact nodup_of_columns hu.attestorSets fun _ _ _ _ h => slotIdKey_inj h
  | attestorSetsByMember pubkey =>
    exact (nodup_of_columns hu.attestorSets fun _ _ _ _ h => slotIdKey_inj h).sublist
      (List.filter_sublist.map _)
  | bounties board status =>
    exact (nodup_of_columns hu.bounties fun _ _ _ _ h => slotIdKey_inj h).sublist
      (List.filter_sublist.map _)
  | contracts status poster arbiter =>
    exact (nodup_of_columns hu.contracts fun _ _ _ _ h => slotIdKey_inj h).sublist
      (List.filter_sublist.map _)

/-! ## Insertions -/

/-- The rows of the one table are in the other, with these columns. -/
def Kept {R γ : Type} (cols : R → γ) (rows rows' : List R) : Prop :=
  ∀ r ∈ rows, ∃ r' ∈ rows', cols r' = cols r

/-- Between two requests rows are inserted, and those that are there keep their sort key and the
columns the endpoint joins and filters on; whatever else they hold may change. -/
def Endpoint.Grows (db db' : Db) : Endpoint → Prop
  | .blocks => Kept SlotRow.height db.slots db'.slots
  | .txs _ _ => Kept SlotRow.height db.slots db'.slots ∧
    Kept (fun r => (r.hash, r.slot, r.position, r.kind)) db.transactions db'.transactions
  | .addressTxs _ => Kept SlotRow.height db.slots db'.slots ∧
    Kept (fun r => (r.hash, r.slot, r.position, r.sender, r.kind, r.details))
      db.transactions db'.transactions
  | .schemas _ => Kept AttestorSetRow.id db.attestorSets db'.attestorSets ∧
    Kept (fun r => (r.id, r.registeredAtSlot, r.attestorSetId)) db.schemas db'.schemas
  | .attestations | .attestationsBySchema _ =>
    Kept (fun r => (r.id, r.submittedAtSlot, r.schemaId, r.payloadHash))
      db.attestations db'.attestations
  | .attestationsByAttestorSet _ =>
    Kept (fun r => (r.id, r.attestorSetId)) db.schemas db'.schemas ∧
    Kept (fun r => (r.id, r.submittedAtSlot, r.schemaId, r.payloadHash))
      db.attestations db'.attestations
  | .attestorSets =>
    Kept (fun r => (r.id, r.registeredAtSlot)) db.attestorSets db'.attestorSets
  | .attestorSetsByMember _ =>
    Kept (fun r => (r.id, r.registeredAtSlot, r.members)) db.attestorSets db'.attestorSets
  | .bounties _ _ =>
    Kept (fun r => (r.id, r.postedAtSlot, r.boardSchemaId, r.status)) db.bounties db'.bounties
  | .contracts _ _ _ =>
    Kept (fun r => (r.id, r.postedAtSlot, r.status, r.poster, r.arbiter)) db.contracts db'.contracts

section Growth

variable {R S T γ δ K ι κ : Type} [DecidableEq κ] {rows rows' : List R}
  {cols : R → γ} {key : R → K} {ident : R → ι}

theorem keeps_of_kept (h : Kept cols rows rows')
    (hcols : ∀ a b, cols a = cols b → ident a = ident b ∧ key a = key b) :
    Keyset.Keeps key ident rows rows' := by
  intro r hr
  obtain ⟨r', hr', hsame⟩ := h r hr
  exact ⟨r', hr', hcols _ _ hsame⟩

theorem Kept.filter {p : R → Bool} (h : Kept cols rows rows')
    (hp : ∀ a b, cols a = cols b → p a = p b) : Kept cols (rows.filter p) (rows'.filter p) := by
  intro r hr
  rw [List.mem_filter] at hr
  obtain ⟨r', hr', hsame⟩ := h r hr.1
  refine ⟨r', List.mem_filter.2 ⟨hr', ?_⟩, hsame⟩
  rw [hp _ _ hsame]
  exact hr.2

/-- A joined row stays if both its sides do. -/
theorem Kept.join {on : R → κ} {target : S → κ} {f : R → S → T} {t t' : List S} {scols : S → δ}
    {tcols : T → γ} (hr : Kept cols rows rows') (ht : Kept scols t t')
    (hon : ∀ a b, cols a = cols b → on a = on b)
    (htarget : ∀ a b, scols a = scols b → target a = target b)
    (hcols : ∀ a s, tcols (f a s) = cols a) :
    Kept tcols (Table.join on target f rows t) (Table.join on target f rows' t') := by
  intro c hc
  obtain ⟨a, ha, s, hs, hkey, rfl⟩ := Table.mem_join.1 hc
  obtain ⟨a', ha', hsame⟩ := hr a ha
  obtain ⟨s', hs', hsame'⟩ := ht s hs
  refine ⟨f a' s', Table.mem_join.2 ⟨a', ha', s', hs', ?_, rfl⟩, ?_⟩
  · rw [htarget _ _ hsame', hon _ _ hsame]
    exact hkey
  · rw [hcols, hcols]
    exact hsame

end Growth

/-- The rows of a table that is read in the order of `(slot, id)`, behind a filter. -/
theorem keeps_slotId {R γ : Type} {cols : R → γ} {slot : R → Int64} {ident : R → String}
    {p : R → Bool} {rows rows' : List R} (h : Kept cols rows rows')
    (hcols : ∀ a b, cols a = cols b → ident a = ident b ∧ slot a = slot b ∧ p a = p b) :
    Keyset.Keeps (fun r => SlotIdCursor.key env.postgres { slot := slot r, id := ident r }) ident
      (rows.filter p) (rows'.filter p) := by
  refine keeps_of_kept (h.filter fun a b hab => (hcols a b hab).2.2) fun a b hab => ?_
  obtain ⟨hident, hslot, -⟩ := hcols a b hab
  refine ⟨hident, ?_⟩
  rw [hident, hslot]

theorem attestationKey_congr {a b : AttestationRow}
    (h : (a.id, a.submittedAtSlot, a.schemaId, a.payloadHash) =
      (b.id, b.submittedAtSlot, b.schemaId, b.payloadHash)) :
    a.id = b.id ∧ attestationKey env.postgres a = attestationKey env.postgres b := by
  simp only [Prod.mk.injEq] at h
  refine ⟨h.1, ?_⟩
  rw [attestationKey, attestationKey, h.2.1, h.2.2.1, h.2.2.2]

theorem keeps_txs {p : TxRow → Bool} {γ : Type} {cols : TxRow → γ}
    (h : Kept cols (txRows db) (txRows db'))
    (hcols : ∀ a b, cols a = cols b →
      a.hash = b.hash ∧ a.slot = b.slot ∧ a.position = b.position ∧ p a = p b) :
    Keyset.Keeps txKey (fun r : TxRow => r.hash) ((txRows db).filter p) ((txRows db').filter p) := by
  refine keeps_of_kept (h.filter fun a b hab => (hcols a b hab).2.2.2) fun a b hab => ?_
  obtain ⟨hhash, hslot, hpos, -⟩ := hcols a b hab
  refine ⟨hhash, ?_⟩
  rw [txKey, txKey, hslot, hpos]

/-- What matches at one request still matches at the next. -/
theorem keeps_matching {e : Endpoint} (h : e.Grows db db') :
    Keyset.Keeps (listing env e).key (listing env e).ident ((listing env e).matching db)
      ((listing env e).matching db') := by
  cases e with
  | blocks => exact keeps_of_kept h fun a b hab => ⟨hab, congrArg Int64.toInt hab⟩
  | txs kind blockHeight =>
    obtain ⟨hslots, htxs⟩ := h
    have hrows : Kept (fun r : TxRow => (r.hash, r.slot, r.position, r.kind)) (txRows db)
        (txRows db') :=
      htxs.join hslots (fun a b hab => (Prod.mk.inj (Prod.mk.inj hab).2).1) (fun _ _ hab => hab)
        fun _ _ => rfl
    apply keeps_txs hrows
    intro a b hab
    simp only [Prod.mk.injEq] at hab
    exact ⟨hab.1, hab.2.1, hab.2.2.1, by rw [hab.2.1, hab.2.2.2]⟩
  | addressTxs addr =>
    obtain ⟨hslots, htxs⟩ := h
    have hrows : Kept (fun r : TxRow => (r.hash, r.slot, r.position, r.sender, r.kind, r.details))
        (txRows db) (txRows db') :=
      htxs.join hslots (fun a b hab => (Prod.mk.inj (Prod.mk.inj hab).2).1) (fun _ _ hab => hab)
        fun _ _ => rfl
    apply keeps_txs hrows
    intro a b hab
    simp only [Prod.mk.injEq] at hab
    exact ⟨hab.1, hab.2.1, hab.2.2.1, by rw [hab.2.2.2.1, hab.2.2.2.2.1, hab.2.2.2.2.2]⟩
  | schemas filter =>
    obtain ⟨hsets, hschemas⟩ := h
    have hrows : Kept (fun r : SchemaRow => (r.id, r.registeredAtSlot, r.attestorSetId))
        (schemaRows db) (schemaRows db') :=
      hschemas.join hsets (fun a b hab => (Prod.mk.inj (Prod.mk.inj hab).2).2) (fun _ _ hab => hab)
        fun _ _ => rfl
    apply keeps_slotId hrows
    intro a b hab
    simp only [Prod.mk.injEq] at hab
    exact ⟨hab.1, hab.2.1, by rw [hab.2.2]⟩
  | attestations => exact keeps_of_kept h fun _ _ => attestationKey_congr
  | attestationsBySchema schemaId =>
    refine keeps_of_kept (Kept.filter h fun a b hab => ?_) fun _ _ => attestationKey_congr
    rw [(Prod.mk.inj (Prod.mk.inj (Prod.mk.inj hab).2).2).1]
  | attestationsByAttestorSet setId =>
    obtain ⟨hschemas, hattestations⟩ := h
    have hbound := hschemas.filter (p := fun s => s.attestorSetId = setId) fun a b hab => by
      rw [(Prod.mk.inj hab).2]
    refine keeps_of_kept (hattestations.join hbound ?_ ?_ fun _ _ => rfl) fun _ _ =>
      attestationKey_congr
    · exact fun a b hab => (Prod.mk.inj (Prod.mk.inj (Prod.mk.inj hab).2).2).1
    · exact fun a b hab => (Prod.mk.inj hab).1
  | attestorSets =>
    apply keeps_of_kept h
    intro a b hab
    simp only [Prod.mk.injEq] at hab
    refine ⟨hab.1, ?_⟩
    dsimp only [listing, attestorSetListing]
    rw [attestorSetKey, attestorSetKey, hab.1, hab.2]
  | attestorSetsByMember pubkey =>
    apply keeps_slotId h
    intro a b hab
    simp only [Prod.mk.injEq] at hab
    exact ⟨hab.1, hab.2.1, by rw [hab.2.2]⟩
  | bounties board status =>
    apply keeps_slotId h
    intro a b hab
    simp only [Prod.mk.injEq] at hab
    exact ⟨hab.1, hab.2.1, by rw [hab.2.2.1, hab.2.2.2]⟩
  | contracts status poster arbiter =>
    apply keeps_slotId h
    intro a b hab
    simp only [Prod.mk.injEq] at hab
    exact ⟨hab.1, hab.2.1, by rw [hab.2.2.1, hab.2.2.2.1, hab.2.2.2.2]⟩

/-! ## Walks -/

/-- **Keyset pagination is a lossless, duplicate-free walk** at every list endpoint. -/
theorem walk_lossless {e : Endpoint} {reqs : List (Db × Option UInt32)} (haccept : e.Accepted env)
    (hreads : ∀ q ∈ reqs, ∀ r ∈ (listing env e).matching q.1, (listing env e).ReadsBack r)
    (huniq : ∀ q ∈ reqs, UniqueKeys q.1) (hid : ∀ q ∈ reqs, e.IdsFromPairs q.1)
    (hgrows : (reqs.map Prod.fst).IsChain fun db db' => e.Grows db db') :
    Lossless (listing env e) reqs := by
  refine (paged env e haccept).lossless hreads (fun q hq => nodup_keys (huniq q hq) (hid q hq)) ?_
  rw [List.isChain_map] at hgrows ⊢
  exact hgrows.imp fun _ _ => keeps_matching

/-! ## Two walks -/

section Walks

def blocksWire : List (BlocksCursor × List UInt8 × String) :=
  [(⟨1⟩, [123, 34, 115, 108, 111, 116, 34, 58, 49, 125], "eyJzbG90IjoxfQ"),
   (⟨2⟩, [123, 34, 115, 108, 111, 116, 34, 58, 50, 125], "eyJzbG90IjoyfQ"),
   (⟨3⟩, [123, 34, 115, 108, 111, 116, 34, 58, 51, 125], "eyJzbG90IjozfQ")]

def attestationsWire : List (AttestationsCursor × List UInt8 × String) :=
  [(⟨7, "lsc1", "lph1"⟩,
    [123, 34, 115, 108, 111, 116, 34, 58, 55, 44, 34, 115, 99, 104, 101, 109, 97, 95, 105, 100, 34,
      58, 34, 108, 115, 99, 49, 34, 44, 34, 112, 97, 121, 108, 111, 97, 100, 95, 104, 97, 115, 104,
      34, 58, 34, 108, 112, 104, 49, 34, 125],
    "eyJzbG90Ijo3LCJzY2hlbWFfaWQiOiJsc2MxIiwicGF5bG9hZF9oYXNoIjoibHBoMSJ9")]

/-- JSON of the cursors of a table. -/
def wireJson {C : Type} [DecidableEq C] (wire : List (C × List UInt8 × String)) : CursorJson C where
  toVec c := (wire.find? fun w => w.1 = c).map fun w => w.2.1
  fromSlice bytes := (wire.find? fun w => w.2.1 = bytes).map Prod.fst

/-- Base64url of the cursors of a table. -/
def wireBase64 (wire : List (List UInt8 × String)) : Base64 where
  encode bytes := ((wire.find? fun w => w.1 = bytes).map Prod.snd).getD ""
  decode text := (wire.find? fun w => w.2 = text).map Prod.fst

def sampleEnv : Env where
  postgres :=
    { collation := ⟨String, inferInstance, id, Function.injective_id⟩, jsonbText := fun _ => "" }
  base64 := wireBase64 (blocksWire.map Prod.snd ++ attestationsWire.map Prod.snd)
  blocks := wireJson blocksWire
  txs := wireJson []
  schemas := wireJson []
  attestations := wireJson attestationsWire
  attestorSets := wireJson []
  bounties := wireJson []
  contracts := wireJson []
  trimLower text := text
  bech32Decode _ := .error "invalid"

/-- Slots at the given heights. -/
def slotsDb (heights : List Int64) : Db :=
  { Db.empty with
    slots := heights.map fun h =>
      { height := h, hash := "0x", prevHash := none, stateRoot := none, timestamp := 0,
        batchCount := 0, txCount := 0, proposer := none, finalityStatus := none,
        finalizedAt := none, daBlockHeight := none } }

/-- Slot 3 comes in between the two pages. -/
def slotsWalk : List (Db × Option UInt32) :=
  [(slotsDb [1, 2], some 1), (slotsDb [1, 2, 3], none)]

theorem readsBack_blocks {n : UInt64} (h : n ∈ ([1, 2, 3] : List UInt64)) :
    ReadsBack sampleEnv.base64 sampleEnv.blocks { slot := n } := by
  simp only [List.mem_cons, List.not_mem_nil, or_false] at h
  rcases h with rfl | rfl | rfl
  · exact ⟨⟨_, rfl, by decide⟩, fun bytes hb => by cases hb; decide⟩
  · exact ⟨⟨_, rfl, by decide⟩, fun bytes hb => by cases hb; decide⟩
  · exact ⟨⟨_, rfl, by decide⟩, fun bytes hb => by cases hb; decide⟩

theorem slotsWalk_lossless :
    (follow (listing sampleEnv .blocks).respond none slotsWalk).map
        (fun p => p.data.map SlotRow.height) = [[2], [1]] ∧
      Lossless (listing sampleEnv .blocks) slotsWalk := by
  have hheights : ∀ q ∈ slotsWalk, ∀ r ∈ q.1.slots, r.height.toUInt64 ∈ [1, 2, 3] := by decide
  have huniq : ∀ q ∈ slotsWalk, (q.1.slots.map SlotRow.height).Nodup := by decide
  have hgrows : Kept SlotRow.height (slotsDb [1, 2]).slots (slotsDb [1, 2, 3]).slots := by
    unfold Kept
    decide
  refine ⟨by decide, walk_lossless trivial ?_ ?_ (fun _ _ => trivial) ?_⟩
  · exact fun q hq r hr => readsBack_blocks (hheights q hq r hr)
  · intro q hq
    refine ⟨huniq q hq, ?_, ?_, ?_, ?_, ?_, ?_, ?_, ?_, ?_⟩
    all_goals
      simp only [slotsWalk, List.mem_cons, List.not_mem_nil, or_false] at hq
      rcases hq with rfl | rfl <;> exact List.nodup_nil
  · exact List.isChain_pair.2 hgrows

/-- Two attestations of one payload in one slot, submitted by different transactions. -/
def twinsDb : Db :=
  { slotsDb [7] with
    transactions := [("0xaa", 0), ("0xbb", 1)].map fun (hash, position) =>
      { hash, slot := 7, position, sender := none, senderPubkey := none, nonce := none,
        feePaidNano := some 0, protocolFeeNano := none, kind := "submit_attestation",
        details := .obj [], outcome := "committed", revertReason := none }
    attestorSets :=
      [{ id := "las1", members := ["lpk1"], threshold := 1, registeredAtSlot := 7,
         registeredAtTx := "0xaa", registeredAtTimestamp := 0, schemaCount := 1 }]
    schemas :=
      [{ id := "lsc1", name := "proof", version := 1, owner := "lig1", attestorSetId := "las1",
         feeRoutingBps := 0, feeRoutingAddr := none, payloadShapeHash := "0x00",
         registeredAtSlot := 7, registeredAtTx := "0xaa", registeredAtTimestamp := 0,
         attestationCount := 2 }]
    attestations := [("lat1", "0xaa"), ("lat2", "0xbb")].map fun (id, tx) =>
      { id, schemaId := "lsc1", payloadHash := "lph1", submitter := "lig1",
        submitterPubkey := none, submittedAtSlot := 7, submittedAtTx := tx,
        submittedAtTimestamp := 0, signatureCount := 1 } }

def twinsWalk : List (Db × Option UInt32) := [(twinsDb, some 1), (twinsDb, some 1)]

/-- The second of the twins is never shown. -/
theorem twinsWalk_loses_row :
    UniqueKeys twinsDb ∧
      (∀ r ∈ twinsDb.attestations, ReadsBack sampleEnv.base64 sampleEnv.attestations
        (attestationRowCursor r)) ∧
      (follow (listing sampleEnv .attestations).respond none twinsWalk).map
        (fun p => p.data.map AttestationRow.id) = [["lat1"], []] ∧
      ¬ Lossless (listing sampleEnv .attestations) twinsWalk := by
  have hcursor : ∀ r ∈ twinsDb.attestations, attestationRowCursor r = ⟨7, "lsc1", "lph1"⟩ := by
    decide
  have hshown : (allRows (follow (listing sampleEnv .attestations).respond none twinsWalk)).map
      AttestationRow.id = ["lat1"] := by decide
  have hnext : (follow (listing sampleEnv .attestations).respond none twinsWalk).getLast?.map
      (fun p => p.pagination.next) = some none := by decide
  have hmem : "lat2" ∈ twinsDb.attestations.map AttestationRow.id := by decide
  refine ⟨⟨by decide, by decide, by decide, by decide, by decide, by decide, by decide, by decide,
    by decide, by decide⟩, fun r hr => ?_, by decide, fun h => ?_⟩
  · rw [hcursor r hr]
    exact ⟨⟨_, rfl, by decide⟩, fun bytes hb => by cases hb; decide⟩
  · obtain ⟨r, hr, hid⟩ := List.mem_map.1 hmem
    obtain ⟨r', hr', hsame⟩ := h.complete (Option.map_eq_some_iff.1 hnext) _ rfl r hr
    have hlost : "lat2" ∈ ["lat1"] := by
      rw [← hid, ← hshown]
      exact List.mem_map.2 ⟨r', hr', hsame⟩
    exact absurd hlost (by decide)

end Walks

end LigateApi.Api
