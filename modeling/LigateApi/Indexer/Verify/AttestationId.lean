import LigateApi.Indexer.Verify.Classify
import LigateApi.Indexer.Verify.Provenance
import Mathlib.Data.Set.Function

/-!
# The attestation id as a key

An attestation is a pair of a schema and a payload hash, and its `lat1…` id is derived from their
bytes. On a set of inputs without a collision of SHA-256 the id determines the pair
(`computeAttestationId_eq_iff`). Every row of the table has the id of its pair
(`attestationsKeyed_run`), so a conflict on the id is a submission of the same pair.
-/

namespace LigateApi.Indexer

open Lib Lib.Run

/-- The text is Bech32 for 32 bytes under the prefix `hrp`. -/
def DecodesTo (codec : Codec) (hrp s : String) (bytes : List UInt8) : Prop :=
  codec.bech32Decode s = some (hrp, bytes) ∧ bytes.length = 32

/-- The field an error is about. -/
def AttestationIdError.field : AttestationIdError → Option String
  | .bech32Decode field => some field
  | .hrpMismatch field _ _ => some field
  | .lengthMismatch field _ => some field
  | .bech32Encode => none

/-- What is used of SHA-256 and Bech32m: digests of 32 bytes, no collision among `inputs`, and a
text for every 32 bytes under `lat` that no other 32 bytes have. -/
structure Codec.FaithfulOn (codec : Codec) (inputs : Set (List UInt8)) : Prop where
  digest : ∀ input, (codec.sha256 input).length = 32
  collisionFree : Set.InjOn codec.sha256 inputs
  encodes : ∀ bytes, bytes.length = 32 → ∃ text, codec.bech32mEncode "lat" bytes = some text
  injective : ∀ a b text, a.length = 32 → b.length = 32 →
    codec.bech32mEncode "lat" a = some text → codec.bech32mEncode "lat" b = some text → a = b

/-! ## One id -/

section Id

variable {codec : Codec} {hrp s p s' p' field : String} {bytes bs bp bs' bp' : List UInt8}

theorem decodeHash32_eq_ok :
    decodeHash32 codec s hrp field = .ok bytes ↔ DecodesTo codec hrp s bytes := by
  unfold decodeHash32 DecodesTo
  cases hdec : codec.bech32Decode s with
  | none => simp
  | some decoded =>
    obtain ⟨hrp', data⟩ := decoded
    dsimp only
    by_cases hhrp : hrp' = hrp
    · by_cases hlen : data.length = 32
      · rw [if_neg (not_not.2 hhrp), if_neg (not_not.2 hlen)]
        constructor
        · intro h
          cases h
          exact ⟨by rw [hhrp], hlen⟩
        · intro h
          obtain ⟨heq, -⟩ := h
          cases heq
          rfl
      · rw [if_neg (not_not.2 hhrp), if_pos hlen]
        refine iff_of_false (by simp) ?_
        intro h
        obtain ⟨heq, hlen'⟩ := h
        cases heq
        exact hlen hlen'
    · rw [if_pos hhrp]
      refine iff_of_false (by simp) ?_
      intro h
      cases h.1
      exact hhrp rfl

theorem decodeHash32_field {e : AttestationIdError}
    (h : decodeHash32 codec s hrp field = .error e) : e.field = some field := by
  unfold decodeHash32 at h
  split at h
  · cases h
    rfl
  · split at h
    · cases h
      rfl
    · split at h
      · cases h
        rfl
      · cases h

/-- Either the text decodes, or the error names the field. -/
theorem decodeHash32_cases (codec : Codec) (s hrp field : String) :
    (∃ bytes, decodeHash32 codec s hrp field = .ok bytes ∧ DecodesTo codec hrp s bytes) ∨
    ∃ e, decodeHash32 codec s hrp field = .error e ∧ e.field = some field ∧
      ¬ ∃ bytes, DecodesTo codec hrp s bytes := by
  cases h : decodeHash32 codec s hrp field with
  | ok bytes => exact .inl ⟨bytes, rfl, decodeHash32_eq_ok.1 h⟩
  | error e =>
    refine .inr ⟨e, rfl, decodeHash32_field h, fun hdec => ?_⟩
    obtain ⟨bytes, hbytes⟩ := hdec
    rw [decodeHash32_eq_ok.2 hbytes] at h
    cases h

theorem DecodesTo.unique (h : DecodesTo codec hrp s bs) (h' : DecodesTo codec hrp s bs') :
    bs = bs' := by
  have heq := h.1.symm.trans h'.1
  cases heq
  rfl

/-- The id of a pair that decodes is the text of the digest of its 64 bytes. -/
theorem computeAttestationId_of_decodes (hs : DecodesTo codec "lsc" s bs)
    (hp : DecodesTo codec "lph" p bp) : computeAttestationId codec s p =
      match codec.bech32mEncode "lat" (codec.sha256 (bs ++ bp)) with
      | some id => .ok id
      | none => .error .bech32Encode := by
  unfold computeAttestationId
  rw [decodeHash32_eq_ok.2 hs, decodeHash32_eq_ok.2 hp]
  rfl

/-- An accepted pair decodes. -/
theorem decodes_of_computeAttestationId {id : String}
    (h : computeAttestationId codec s p = .ok id) :
    ∃ bs bp, DecodesTo codec "lsc" s bs ∧ DecodesTo codec "lph" p bp ∧
      codec.bech32mEncode "lat" (codec.sha256 (bs ++ bp)) = some id := by
  rcases decodeHash32_cases codec s "lsc" "schema_id" with ⟨bs, -, hbs⟩ | ⟨e, he, -⟩
  · rcases decodeHash32_cases codec p "lph" "payload_hash" with ⟨bp, -, hbp⟩ | ⟨e, he, -⟩
    · refine ⟨bs, bp, hbs, hbp, ?_⟩
      rw [computeAttestationId_of_decodes hbs hbp] at h
      split at h
      · next text htext =>
        cases h
        exact htext
      · cases h
    · unfold computeAttestationId at h
      rw [decodeHash32_eq_ok.2 hbs, he] at h
      cases h
  · unfold computeAttestationId at h
    rw [he] at h
    cases h

variable {inputs : Set (List UInt8)}

theorem computeAttestationId_ok_iff (hc : codec.FaithfulOn inputs) :
    (∃ id, computeAttestationId codec s p = .ok id) ↔
      (∃ bs, DecodesTo codec "lsc" s bs) ∧ ∃ bp, DecodesTo codec "lph" p bp := by
  constructor
  · intro h
    obtain ⟨id, hid⟩ := h
    obtain ⟨bs, bp, hbs, hbp, -⟩ := decodes_of_computeAttestationId hid
    exact ⟨⟨bs, hbs⟩, bp, hbp⟩
  · intro h
    obtain ⟨⟨bs, hbs⟩, bp, hbp⟩ := h
    obtain ⟨text, htext⟩ := hc.encodes (codec.sha256 (bs ++ bp)) (hc.digest _)
    exact ⟨text, by rw [computeAttestationId_of_decodes hbs hbp, htext]⟩

/-- A refused schema is named first, and a refused payload hash only behind an accepted schema. -/
theorem computeAttestationId_error (codec : Codec) (s p : String) :
    ((¬ ∃ bs, DecodesTo codec "lsc" s bs) →
      ∃ e, computeAttestationId codec s p = .error e ∧ e.field = some "schema_id") ∧
    ((∃ bs, DecodesTo codec "lsc" s bs) → (¬ ∃ bp, DecodesTo codec "lph" p bp) →
      ∃ e, computeAttestationId codec s p = .error e ∧ e.field = some "payload_hash") := by
  constructor
  · intro hs
    rcases decodeHash32_cases codec s "lsc" "schema_id" with ⟨bs, -, hbs⟩ | ⟨e, he, hfield, -⟩
    · exact absurd ⟨bs, hbs⟩ hs
    · refine ⟨e, ?_, hfield⟩
      unfold computeAttestationId
      rw [he]
      rfl
  · intro hs hp
    obtain ⟨bs, hbs⟩ := hs
    rcases decodeHash32_cases codec p "lph" "payload_hash" with ⟨bp, -, hbp⟩ | ⟨e, he, hfield, -⟩
    · exact absurd ⟨bp, hbp⟩ hp
    · refine ⟨e, ?_, hfield⟩
      unfold computeAttestationId
      rw [decodeHash32_eq_ok.2 hbs, he]
      rfl

/-- Two accepted pairs have one id if and only if they are the same bytes in the same places. -/
theorem computeAttestationId_eq_iff (hc : codec.FaithfulOn inputs)
    (hs : DecodesTo codec "lsc" s bs) (hp : DecodesTo codec "lph" p bp)
    (hs' : DecodesTo codec "lsc" s' bs') (hp' : DecodesTo codec "lph" p' bp')
    (hin : bs ++ bp ∈ inputs) (hin' : bs' ++ bp' ∈ inputs) :
    computeAttestationId codec s p = computeAttestationId codec s' p' ↔ bs = bs' ∧ bp = bp' := by
  obtain ⟨text, htext⟩ := hc.encodes (codec.sha256 (bs ++ bp)) (hc.digest _)
  obtain ⟨text', htext'⟩ := hc.encodes (codec.sha256 (bs' ++ bp')) (hc.digest _)
  rw [computeAttestationId_of_decodes hs hp, computeAttestationId_of_decodes hs' hp', htext, htext']
  dsimp only
  rw [Except.ok.injEq]
  constructor
  · intro heq
    subst heq
    have hdigest := hc.injective _ _ text (hc.digest _) (hc.digest _) htext htext'
    have hconcat := hc.collisionFree hin hin' hdigest
    -- both schemas have 32 bytes, so the concatenation splits in one way
    exact List.append_inj hconcat (hs.2.trans hs'.2.symm)
  · intro heq
    obtain ⟨rfl, rfl⟩ := heq
    exact Option.some.inj (htext.symm.trans htext')

end Id

/-! ## The ids of submissions -/

section Classified

variable {codec : Codec} {serde : Serde} {d : IndexerSubmitAttestation}

theorem classifyAttestationEvent_id {ev : LedgerEvent}
    (h : classifyAttestationEvent codec serde ev = some (.submitAttestation d)) :
    computeAttestationId codec d.schemaId d.payloadHash = .ok d.id := by
  unfold classifyAttestationEvent at h
  split at h
  · obtain ⟨_, -, hd⟩ := Option.map_eq_some_iff.1 h
    cases hd
  · obtain ⟨_, -, hd⟩ := Option.map_eq_some_iff.1 h
    cases hd
  · obtain ⟨x, -, hx⟩ := Option.bind_eq_some_iff.1 h
    split at hx
    · rename_i id hid
      cases hx
      exact hid
    · cases hx
  · cases h

/-- A submission carries the id of its pair. -/
theorem classifyEvents_id {events : List LedgerEvent}
    (h : classifyEvents codec serde events = .submitAttestation d) :
    computeAttestationId codec d.schemaId d.payloadHash = .ok d.id := by
  cases hatt : events.findSome? (classifyAttestationEvent codec serde) with
  | some tx =>
    rw [classifyEvents, hatt, Option.some_or, Option.getD_some] at h
    obtain ⟨ev, -, hev⟩ := List.exists_of_findSome?_eq_some hatt
    exact classifyAttestationEvent_id (h ▸ hev)
  | none =>
    -- without an attestation event another family leads
    have hpass := classifyAttestation_pass codec serde events
    rw [hatt, Option.map_none, eq_comm, Option.map_eq_none_iff] at hpass
    have hlead : leading codec serde events = some (.attestation, d.id) := by
      rw [← classifyEvents_subject, h]
      rfl
    rw [leading, hpass, Option.map_none, Option.none_or] at hlead
    rcases Option.or_eq_some_iff.1 hlead with hfound | ⟨-, hfound⟩
    · obtain ⟨_, -, hfamily⟩ := Option.map_eq_some_iff.1 hfound
      cases hfamily
    · obtain ⟨_, -, hfamily⟩ := Option.map_eq_some_iff.1 hfound
      cases hfamily

end Classified

/-! ## The table -/

/-- Every row has the id of its pair. -/
def AttestationsKeyed (codec : Codec) (db : Db) : Prop :=
  ∀ r ∈ db.attestations, computeAttestationId codec r.schemaId r.payloadHash = .ok r.id

/-- The row and the submission are about the same bytes. -/
def SamePair (codec : Codec) (r : AttestationRow) (d : IndexerSubmitAttestation) : Prop :=
  ∃ bs bp, DecodesTo codec "lsc" r.schemaId bs ∧ DecodesTo codec "lph" r.payloadHash bp ∧
    DecodesTo codec "lsc" d.schemaId bs ∧ DecodesTo codec "lph" d.payloadHash bp

/-- The bytes hashed for the pair are among `inputs`. -/
def HashedIn (codec : Codec) (inputs : Set (List UInt8)) (s p : String) : Prop :=
  ∀ bs bp, DecodesTo codec "lsc" s bs → DecodesTo codec "lph" p bp → bs ++ bp ∈ inputs

/-- What identifies an attestation to a reader of the table. -/
def AttestationRow.pair (r : AttestationRow) : String × String × String :=
  (r.id, r.schemaId, r.payloadHash)

section Table

variable {codec : Codec} {inputs : Set (List UInt8)} {db db' : Db} {d : IndexerSubmitAttestation}
  {txHash : String} {slotHeight : UInt64} {timestamp : Int}

theorem AttestationsKeyed.congr (h : AttestationsKeyed codec db)
    (ht : db'.attestations = db.attestations) : AttestationsKeyed codec db' := by
  unfold AttestationsKeyed
  rw [ht]
  exact h

theorem AttestationsKeyed.insertAttestation (h : AttestationsKeyed codec db)
    (hid : computeAttestationId codec d.schemaId d.payloadHash = .ok d.id)
    (hok : insertAttestation d txHash slotHeight timestamp db = .ok db') :
    AttestationsKeyed codec db' := by
  intro r hr
  rcases insertAttestation_ok hok with ⟨-, n, rfl⟩ | ⟨-, -, rfl⟩
  · obtain ⟨old, hold, ⟨-, rfl⟩ | ⟨-, rfl⟩⟩ := Table.mem_update.1 hr
    · exact h old hold
    · exact h r hold
  · rcases List.mem_append.1 hr with hr | hr
    · exact h r hr
    · rw [List.mem_singleton.1 hr]
      exact hid

/-- The id is taken if and only if the pair is. -/
theorem hasAttestation_iff_samePair (hc : codec.FaithfulOn inputs) (h : AttestationsKeyed codec db)
    (hid : computeAttestationId codec d.schemaId d.payloadHash = .ok d.id)
    (hrows : ∀ r ∈ db.attestations, HashedIn codec inputs r.schemaId r.payloadHash)
    (hd : HashedIn codec inputs d.schemaId d.payloadHash) :
    db.hasAttestation d.id ↔ ∃ r ∈ db.attestations, SamePair codec r d := by
  obtain ⟨bs, bp, hbs, hbp, -⟩ := decodes_of_computeAttestationId hid
  constructor
  · intro htaken
    obtain ⟨r, hr, hrid⟩ := htaken
    obtain ⟨bs', bp', hbs', hbp', -⟩ := decodes_of_computeAttestationId (h r hr)
    have heq : computeAttestationId codec r.schemaId r.payloadHash =
        computeAttestationId codec d.schemaId d.payloadHash := by rw [h r hr, hid, hrid]
    obtain ⟨rfl, rfl⟩ := (computeAttestationId_eq_iff hc hbs' hbp' hbs hbp
      (hrows r hr _ _ hbs' hbp') (hd _ _ hbs hbp)).1 heq
    exact ⟨r, hr, _, _, hbs', hbp', hbs, hbp⟩
  · intro hsame
    obtain ⟨r, hr, bs', bp', hrs, hrp, hds, hdp⟩ := hsame
    have heq := (computeAttestationId_eq_iff hc hrs hrp hds hdp
      (hrows r hr _ _ hrs hrp) (hd _ _ hds hdp)).2 ⟨rfl, rfl⟩
    rw [h r hr, hid, Except.ok.injEq] at heq
    exact ⟨r, hr, heq⟩

/-- A conflict on the id keeps the rows, without one there is a new row. -/
theorem insertAttestation_folds
    (hok : insertAttestation d txHash slotHeight timestamp db = .ok db') :
    (db.hasAttestation d.id →
      db'.attestations.map AttestationRow.pair = db.attestations.map AttestationRow.pair) ∧
    (¬ db.hasAttestation d.id →
      db'.attestations = db.attestations ++ [attestationRow d txHash slotHeight timestamp]) := by
  constructor
  · intro hold
    obtain ⟨-, rfl⟩ := (insertAttestation_known hold).1 hok
    exact Table.map_update fun _ _ _ => rfl
  · intro hnew
    obtain ⟨-, -, -, -, rfl⟩ := (insertAttestation_new hnew).1 hok
    rfl

end Table

/-! ## Runs -/

section Runs

variable {env : Env} {faults : TxStmt → Fault} {client : NodeClient} {w : TxWork} {db : Db}

/-- Of the statements behind a transaction's own row only `insert_attestation` writes the table. -/
theorem survives_attestationsKeyed
    (hkind : ∀ d, w.classified.kind = .submitAttestation d →
      computeAttestationId env.codec d.schemaId d.payloadHash = .ok d.id) :
    SurvivesResources w (AttestationsKeyed env.codec) where
  attestorSet d db db' _ hok h := by
    obtain ⟨row, -, -, rfl⟩ := insertAttestorSet_ok hok
    exact h.congr rfl
  schema d db db' _ hok h := by
    rcases insertSchema_ok hok with ⟨-, rfl⟩ | ⟨-, -, rfl⟩
    · exact h
    · exact h.congr rfl
  schemaCount d db db' _ hok h := by
    rcases bumpAttestorSetSchemaCount_ok hok with ⟨-, rfl⟩ | ⟨r, n, -, -, rfl⟩
    · exact h
    · exact h.congr rfl
  schemasOwned d db db' _ hok h := by
    rcases bumpAddressSchemasOwned_ok hok with ⟨-, row, -, -, rfl⟩ | ⟨old, row, -, -, -, rfl⟩
    · exact h.congr rfl
    · exact h.congr rfl
  attestation d db db' hk hok h := h.insertAttestation (hkind d hk) hok
  attestationCount d db db' _ hok h := by
    rcases bumpSchemaAttestationCount_ok hok with ⟨-, rfl⟩ | ⟨r, n, -, -, rfl⟩
    · exact h
    · exact h.congr rfl
  bounties db t h := h.congr rfl
  contracts db t h := h.congr rfl

theorem attestationsKeyed_processTx (v : Visit env) (h : AttestationsKeyed env.codec db) :
    AttestationsKeyed env.codec (processTx env faults v.client v.work db).db := by
  refine Maintains.attempt ?_ ?_ (Maintains.refl _) { db := db } h
  · intro db db' hok h
    rw [insertTransaction_frame hok]
    exact h.congr rfl
  · intro r hr
    have hsum : Keeps (fun db : Db => db.attestations) (updateAddressSummaries faults v.work) :=
      keeps_updateAddressSummaries fun _ _ => rfl
    apply maintains_insertResourceRows
    · apply survives_attestationsKeyed
      intro d hd
      exact classifyEvents_id (v.kind.symm.trans hd)
    · exact hr.congr (hsum r)

/-- Whatever fails along the way, the rows ingested into an empty table have the ids of their
pairs. -/
theorem attestationsKeyed_run {vs : List ((TxStmt → Fault) × Visit env)} {db₀ : Db}
    (hempty : db₀.attestations = []) (hrun : exec (ingest env) db₀ vs = some db) :
    AttestationsKeyed env.codec db := by
  refine exec_invariant (I := AttestationsKeyed env.codec) ?_ ?_ hrun
  · intro m e m' hm hstep
    cases hstep
    exact attestationsKeyed_processTx e.2 hm
  · intro r hr
    rw [hempty] at hr
    cases hr

end Runs

/-- The `lat1…` id is a key for the pair. It exists if and only if both parts decode, with an error
that names the first part that does not. Among inputs without a collision it is the same for the
same bytes in the same places only. In a table filled by ingestion, a submission of a pair that has a row
is folded into it, and any other gets a row of its own. -/
theorem attestation_id_is_faithful_key {env : Env} {inputs : Set (List UInt8)}
    (hc : env.codec.FaithfulOn inputs) :
    (∀ s p, (∃ id, computeAttestationId env.codec s p = .ok id) ↔
      (∃ bs, DecodesTo env.codec "lsc" s bs) ∧ ∃ bp, DecodesTo env.codec "lph" p bp) ∧
    (∀ s p, ((¬ ∃ bs, DecodesTo env.codec "lsc" s bs) →
        ∃ e, computeAttestationId env.codec s p = .error e ∧ e.field = some "schema_id") ∧
      ((∃ bs, DecodesTo env.codec "lsc" s bs) → (¬ ∃ bp, DecodesTo env.codec "lph" p bp) →
        ∃ e, computeAttestationId env.codec s p = .error e ∧ e.field = some "payload_hash")) ∧
    (∀ s p s' p' bs bp bs' bp', DecodesTo env.codec "lsc" s bs → DecodesTo env.codec "lph" p bp →
      DecodesTo env.codec "lsc" s' bs' → DecodesTo env.codec "lph" p' bp' →
      bs ++ bp ∈ inputs → bs' ++ bp' ∈ inputs →
      (computeAttestationId env.codec s p = computeAttestationId env.codec s' p' ↔
        bs = bs' ∧ bp = bp')) ∧
    (∀ s p s' p' a b, DecodesTo env.codec "lsc" s a → DecodesTo env.codec "lph" p b →
      DecodesTo env.codec "lsc" s' b → DecodesTo env.codec "lph" p' a →
      a ++ b ∈ inputs → b ++ a ∈ inputs → a ≠ b →
      computeAttestationId env.codec s p ≠ computeAttestationId env.codec s' p') ∧
    (∀ (vs : List ((TxStmt → Fault) × Visit env)) db₀ db db' d txHash slotHeight timestamp,
      db₀.attestations = [] → exec (ingest env) db₀ vs = some db →
      computeAttestationId env.codec d.schemaId d.payloadHash = .ok d.id →
      (∀ r ∈ db.attestations, HashedIn env.codec inputs r.schemaId r.payloadHash) →
      HashedIn env.codec inputs d.schemaId d.payloadHash →
      insertAttestation d txHash slotHeight timestamp db = .ok db' →
      ((∃ r ∈ db.attestations, SamePair env.codec r d) →
        db'.attestations.map AttestationRow.pair = db.attestations.map AttestationRow.pair) ∧
      ((¬ ∃ r ∈ db.attestations, SamePair env.codec r d) →
        db'.attestations = db.attestations ++ [attestationRow d txHash slotHeight timestamp])) := by
  refine ⟨fun s p => computeAttestationId_ok_iff hc, computeAttestationId_error env.codec, ?_, ?_,
    ?_⟩
  · intro s p s' p' bs bp bs' bp' hs hp hs' hp' hin hin'
    exact computeAttestationId_eq_iff hc hs hp hs' hp' hin hin'
  · intro s p s' p' a b hs hp hs' hp' hin hin' hne heq
    exact hne ((computeAttestationId_eq_iff hc hs hp hs' hp' hin hin').1 heq).1
  · intro vs db₀ db db' d txHash slotHeight timestamp hempty hrun hid hrows hd hok
    have hkeyed := attestationsKeyed_run hempty hrun
    rw [← hasAttestation_iff_samePair hc hkeyed hid hrows hd]
    exact insertAttestation_folds hok

/-! ## The chain's snapshot vector -/

def ones : List UInt8 := List.replicate 32 0x11
def threes : List UInt8 := List.replicate 32 0x33

/-- SHA-256 of `ones ++ threes`. -/
def vectorDigest : List UInt8 :=
  [ 0xb0, 0xdc, 0xb0, 0x9a, 0xf5, 0x49, 0x6e, 0x77,
    0x9e, 0x60, 0xb2, 0x11, 0x09, 0xa7, 0x18, 0x47,
    0x50, 0x91, 0x19, 0x1e, 0xfc, 0x7a, 0x86, 0x38,
    0xb0, 0x1d, 0x51, 0xc6, 0x22, 0xfc, 0x91, 0x28 ]

/-- SHA-256 of `threes ++ ones`. -/
def swappedDigest : List UInt8 :=
  [ 0x24, 0x4e, 0x18, 0x7d, 0x66, 0x34, 0x0d, 0x96,
    0x47, 0x85, 0xa7, 0xb4, 0x60, 0x59, 0x77, 0x09,
    0x70, 0x42, 0x50, 0x9b, 0x40, 0x04, 0x10, 0x1e,
    0xcb, 0xab, 0x99, 0x97, 0x1e, 0x8d, 0x02, 0xcd ]

/-- A character of its own for each byte, outside ASCII. -/
def wideChar (b : UInt8) : Char := Char.ofNat (256 + b.toNat)

/-- The codec on the pairs of `ones` and `threes`, with a stand-in for every other input. -/
def vectorCodec : Codec where
  base64Decode _ := none
  bech32mEncode hrp bytes :=
    if hrp = "lat" ∧ bytes = vectorDigest then
      some "lat1krwtpxh4f9h808nqkggsnfccgagfzxg7l3agvw9sr4guvghujy5qh0lg3q"
    else if hrp = "lat" ∧ bytes = swappedDigest then
      some "lat1y38psltxxsxev3u9576xqkthp9cyy5ymgqzpq8kt4wvew85dqtxs0pkz7j"
    else some (hrp ++ "1" ++ String.ofList (bytes.map wideChar))
  bech32Decode
    | "lsc1zyg3zyg3zyg3zyg3zyg3zyg3zyg3zyg3zyg3zyg3zyg3zyg3zygsnlhl0u" => some ("lsc", ones)
    | "lph1xvenxvenxvenxvenxvenxvenxvenxvenxvenxvenxvenxvenxves7y6tew" => some ("lph", threes)
    | "lsc1xvenxvenxvenxvenxvenxvenxvenxvenxvenxvenxvenxvenxvesm798u7" => some ("lsc", threes)
    | "lph1zyg3zyg3zyg3zyg3zyg3zyg3zyg3zyg3zyg3zyg3zyg3zyg3zygsk9gn2v" => some ("lph", ones)
    | _ => none
  sha256 input :=
    if input = ones ++ threes then vectorDigest
    else if input = threes ++ ones then swappedDigest
    else List.replicate 32 0

theorem toNat_wideChar (b : UInt8) : (wideChar b).toNat = 256 + b.toNat := by
  have hb := b.toNat_lt
  have hvalid : (256 + b.toNat).isValidChar := .inl (by omega)
  unfold wideChar Char.ofNat
  rw [dif_pos hvalid]
  rfl

theorem wideChar_injective : Function.Injective wideChar := by
  intro a b h
  have hnat := congrArg Char.toNat h
  rw [toNat_wideChar, toNat_wideChar] at hnat
  exact UInt8.toNat.inj (by omega)

/-- What the stand-in writes starts, behind the prefix, outside ASCII. -/
theorem standIn_ne {bytes : List UInt8} {text : String} (hlen : bytes.length = 32)
    (htext : text.toList.all (fun c => c.toNat < 256) = true) :
    "lat" ++ "1" ++ String.ofList (bytes.map wideChar) ≠ text := by
  intro heq
  obtain ⟨b, rest, rfl⟩ := List.exists_cons_of_length_eq_add_one hlen
  have hmem : wideChar b ∈ text.toList := by
    rw [← heq]
    simp
  have hlt := of_decide_eq_true (List.all_eq_true.1 htext _ hmem)
  rw [toNat_wideChar] at hlt
  omega

theorem standIn_inj {a b : List UInt8} (h : "lat" ++ "1" ++ String.ofList (a.map wideChar) =
    "lat" ++ "1" ++ String.ofList (b.map wideChar)) : a = b := by
  rw [String.append_right_inj, String.ofList_inj] at h
  exact List.map_injective_iff.2 wideChar_injective h

/-- The three cases of the codec's texts. -/
theorem vectorCodec_encode (bytes : List UInt8) :
    (bytes = vectorDigest ∧ vectorCodec.bech32mEncode "lat" bytes =
      some "lat1krwtpxh4f9h808nqkggsnfccgagfzxg7l3agvw9sr4guvghujy5qh0lg3q") ∨
    (bytes = swappedDigest ∧ vectorCodec.bech32mEncode "lat" bytes =
      some "lat1y38psltxxsxev3u9576xqkthp9cyy5ymgqzpq8kt4wvew85dqtxs0pkz7j") ∨
    vectorCodec.bech32mEncode "lat" bytes =
      some ("lat" ++ "1" ++ String.ofList (bytes.map wideChar)) := by
  unfold vectorCodec
  dsimp only
  by_cases h : bytes = vectorDigest
  · exact .inl ⟨h, if_pos ⟨rfl, h⟩⟩
  · rw [if_neg fun h' => h h'.2]
    by_cases h' : bytes = swappedDigest
    · exact .inr (.inl ⟨h', if_pos ⟨rfl, h'⟩⟩)
    · exact .inr (.inr (if_neg fun h'' => h' h''.2))

theorem vectorCodec_faithful :
    vectorCodec.FaithfulOn {ones ++ threes, threes ++ ones} where
  digest input := by
    unfold vectorCodec
    dsimp only
    split
    · rfl
    · split
      · rfl
      · rfl
  collisionFree := by
    intro a ha b hb heq
    have hne : vectorCodec.sha256 (ones ++ threes) ≠ vectorCodec.sha256 (threes ++ ones) := by
      decide
    rcases ha with rfl | ha
    · rcases hb with rfl | hb
      · rfl
      · rw [Set.mem_singleton_iff] at hb
        subst hb
        exact absurd heq hne
    · rw [Set.mem_singleton_iff] at ha
      subst ha
      rcases hb with rfl | hb
      · exact absurd heq.symm hne
      · exact hb.symm
  encodes bytes _ := by
    rcases vectorCodec_encode bytes with ⟨-, h⟩ | ⟨-, h⟩ | h
    · exact ⟨_, h⟩
    · exact ⟨_, h⟩
    · exact ⟨_, h⟩
  injective a b text ha hb hta htb := by
    rcases vectorCodec_encode a with ⟨ra, hea⟩ | ⟨ra, hea⟩ | hea <;>
      rcases vectorCodec_encode b with ⟨rb, heb⟩ | ⟨rb, heb⟩ | heb <;>
      rw [hea, Option.some.injEq] at hta <;> rw [heb, Option.some.injEq] at htb <;>
      have heq := hta.trans htb.symm
    · rw [ra, rb]
    · exact absurd heq (by decide)
    · exact absurd heq.symm (standIn_ne hb (by decide))
    · exact absurd heq (by decide)
    · rw [ra, rb]
    · exact absurd heq.symm (standIn_ne hb (by decide))
    · exact absurd heq (standIn_ne ha (by decide))
    · exact absurd heq (standIn_ne ha (by decide))
    · exact standIn_inj heq

/-- The chain's vector has an id, and the swapped pair another one. -/
theorem attestation_id_is_faithful_key_vector :
    (∃ id, computeAttestationId vectorCodec
      "lsc1zyg3zyg3zyg3zyg3zyg3zyg3zyg3zyg3zyg3zyg3zyg3zyg3zygsnlhl0u"
      "lph1xvenxvenxvenxvenxvenxvenxvenxvenxvenxvenxvenxvenxves7y6tew" = .ok id) ∧
    computeAttestationId vectorCodec
        "lsc1zyg3zyg3zyg3zyg3zyg3zyg3zyg3zyg3zyg3zyg3zyg3zyg3zygsnlhl0u"
        "lph1xvenxvenxvenxvenxvenxvenxvenxvenxvenxvenxvenxvenxves7y6tew" ≠
      computeAttestationId vectorCodec
        "lsc1xvenxvenxvenxvenxvenxvenxvenxvenxvenxvenxvenxvenxvesm798u7"
        "lph1zyg3zyg3zyg3zyg3zyg3zyg3zyg3zyg3zyg3zyg3zyg3zyg3zygsk9gn2v" := by
  obtain ⟨hok, -, -, hswap, -⟩ := @attestation_id_is_faithful_key
    { marketEnv with codec := vectorCodec } _ vectorCodec_faithful
  refine ⟨(hok _ _).2 ⟨⟨ones, ⟨rfl, rfl⟩⟩, threes, ⟨rfl, rfl⟩⟩, ?_⟩
  apply hswap _ _ _ _ ones threes ⟨rfl, rfl⟩ ⟨rfl, rfl⟩ ⟨rfl, rfl⟩ ⟨rfl, rfl⟩ (.inl rfl) (.inr rfl)
  decide

end LigateApi.Indexer
