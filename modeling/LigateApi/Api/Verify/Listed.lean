import LigateApi.Api.Verify.Resource

/-!
# Lists and details agree

A list joins and filters the rows of a table; a detail endpoint looks up one row and shows it. In a
reachable state the two are about the same rows: a finished walk over a list shows an id exactly if a
row with the id is stored that fits the filters, and exactly if the detail endpoint finds the id and
shows fields that fit them (`listed_iff_found`).
-/

namespace LigateApi.Api

open Lib Lib.Run Queries
open Indexer hiding TxRow SchemaRow Env

/-- The address is the sender of the transaction, or a side of the transfer. -/
def TookPart (postgres : Postgres) (addr : String) (sender : Option String) (kind : String)
    (details : Json) : Prop :=
  sender = some addr ∨ kind = "transfer" ∧
    (postgres.fieldText "from" details = some addr ∨ postgres.fieldText "to" details = some addr)

variable (env : Env) (denv : DetailEnv) (db : Db)

/-- A row with the id is stored, and fits the filters. -/
def Endpoint.Stored : (e : Endpoint) → (listing env e).Id → Prop
  | .blocks, (height : Int64) => ∃ r ∈ db.slots, r.height = height
  | .txs kind blockHeight, (hash : String) =>
    ∃ r ∈ db.transactions, r.hash = hash ∧ (∀ k ∈ kind, r.kind = k) ∧
      ∀ h ∈ blockHeight, r.slot = h.toInt64
  | .addressTxs addr, (hash : String) =>
    ∃ r ∈ db.transactions, r.hash = hash ∧ TookPart env.postgres addr r.sender r.kind r.details
  | .schemas attestorSetId, (id : String) =>
    ∃ r ∈ db.schemas, r.id = id ∧ ∀ s ∈ attestorSetId, r.attestorSetId = s
  | .attestations, (id : String) => ∃ r ∈ db.attestations, r.id = id
  | .attestationsBySchema schemaId, (id : String) =>
    ∃ r ∈ db.attestations, r.id = id ∧ r.schemaId = schemaId
  | .attestationsByAttestorSet setId, (id : String) =>
    ∃ r ∈ db.attestations, r.id = id ∧
      ∃ s ∈ db.schemas, s.id = r.schemaId ∧ s.attestorSetId = setId
  | .attestorSets, (id : String) => ∃ r ∈ db.attestorSets, r.id = id
  | .attestorSetsByMember pubkey, (id : String) =>
    ∃ r ∈ db.attestorSets, r.id = id ∧ env.trimLower pubkey ∈ r.members
  | .bounties board status, (id : String) =>
    ∃ r ∈ db.bounties, r.id = id ∧ (∀ b ∈ board, r.boardSchemaId = b) ∧ ∀ s ∈ status, r.status = s
  | .contracts status poster arbiter, (id : String) =>
    ∃ r ∈ db.contracts, r.id = id ∧ (∀ s ∈ status, r.status = s) ∧ (∀ a ∈ poster, r.poster = a) ∧
      ∀ a ∈ arbiter, r.arbiter = a

/-- The detail endpoint finds the id, and what it shows fits the filters. The path of a block takes
its height as an unsigned number, and that of an attestation its id in lower case. -/
def Endpoint.FoundIn : (e : Endpoint) → (listing env e).Id → Prop
  | .blocks, (height : Int64) => (Resource.block height.toUInt64).Found denv db fun _ => True
  | .txs kind blockHeight, (hash : String) =>
    (Resource.tx hash).Found denv db fun b : TxResponse =>
      (∀ k ∈ kind, b.kind = k) ∧ ∀ h ∈ blockHeight, b.blockHeight = h
  | .addressTxs addr, (hash : String) =>
    (Resource.tx hash).Found denv db fun b : TxResponse =>
      TookPart env.postgres addr b.sender b.kind b.details
  | .schemas attestorSetId, (id : String) =>
    (Resource.schema id).Found denv db fun b : SchemaResponse =>
      ∀ s ∈ attestorSetId, b.attestorSetId = s
  | .attestations, (id : String) =>
    denv.toLowercase id = id ∧ (Resource.attestation id).Found denv db fun _ => True
  | .attestationsBySchema schemaId, (id : String) =>
    denv.toLowercase id = id ∧ (Resource.attestation id).Found denv db
      fun b : AttestationResponse => b.schemaId = schemaId
  | .attestationsByAttestorSet setId, (id : String) =>
    denv.toLowercase id = id ∧ (Resource.attestation id).Found denv db
      fun b : AttestationResponse => (Resource.schema b.schemaId).Found denv db
        fun s : SchemaResponse => s.attestorSetId = setId
  | .attestorSets, (id : String) => (Resource.attestorSet id).Found denv db fun _ => True
  | .attestorSetsByMember pubkey, (id : String) =>
    (Resource.attestorSet id).Found denv db fun b : AttestorSetResponse =>
      env.trimLower pubkey ∈ b.members
  | .bounties board status, (id : String) =>
    (Resource.bounty id).Found denv db fun b : BountyDetailResponse =>
      (∀ s ∈ board, b.boardSchemaId = s) ∧ ∀ s ∈ status, b.status = s
  | .contracts status poster arbiter, (id : String) =>
    (Resource.contract id).Found denv db fun b : ContractDetailResponse =>
      (∀ s ∈ status, b.status = s) ∧ (∀ a ∈ poster, b.poster = a) ∧ ∀ a ∈ arbiter, b.arbiter = a

section Stored

variable {env denv db} {codec : Codec}

/-- An inert filter, or a column with the value. -/
theorem optionAll_eq {α : Type} [DecidableEq α] {o : Option α} {a : α} :
    (o.all fun b => decide (a = b)) = true ↔ ∀ b ∈ o, a = b := by
  cases o <;> simp

theorem tookPart_iff {postgres : Postgres} {addr : String} {t : TxRow} :
    (t.sender = some addr ||
        (t.kind = "transfer" && postgres.fieldText "from" t.details = some addr) ||
        (t.kind = "transfer" && postgres.fieldText "to" t.details = some addr)) = true ↔
      TookPart postgres addr t.sender t.kind t.details := by
  simp only [TookPart, Bool.or_eq_true, Bool.and_eq_true, decide_eq_true_eq, or_assoc, and_or_left]

theorem exists_filter {R : Type} {rows : List R} {p : R → Bool} {P Q : R → Prop}
    (hp : ∀ r, p r = true ↔ P r) : (∃ r ∈ rows.filter p, Q r) ↔ ∃ r ∈ rows, Q r ∧ P r := by
  simp only [List.mem_filter, hp, and_assoc, and_comm (a := P _)]

theorem exists_txRows (hdb : Intact db) {P : Indexer.TxRow → Prop} :
    (∃ r ∈ txRows db, P r.toTxRow) ↔ ∃ t ∈ db.transactions, P t := by
  constructor
  · rintro ⟨r, hr, hP⟩
    exact ⟨r.toTxRow, (mem_txRows hdb).2 ⟨r, hr, rfl⟩, hP⟩
  · rintro ⟨t, ht, hP⟩
    obtain ⟨r, hr, rfl⟩ := (mem_txRows hdb).1 ht
    exact ⟨r, hr, hP⟩

theorem exists_schemaRows (hdb : Intact db) {P : Indexer.SchemaRow → Prop} :
    (∃ r ∈ schemaRows db, P r.toSchemaRow) ↔ ∃ t ∈ db.schemas, P t := by
  constructor
  · rintro ⟨r, hr, hP⟩
    exact ⟨r.toSchemaRow, (mem_schemaRows hdb).2 ⟨r, hr, rfl⟩, hP⟩
  · rintro ⟨t, ht, hP⟩
    obtain ⟨r, hr, rfl⟩ := (mem_schemaRows hdb).1 ht
    exact ⟨r, hr, hP⟩

/-- The rows of a list, in terms of the table. -/
theorem matching_iff_stored (hdb : Intact db) (e : Endpoint) (id : (listing env e).Id) :
    (∃ r ∈ (listing env e).matching db, (listing env e).ident r = id) ↔ e.Stored env db id := by
  cases e with
  | blocks => exact Iff.rfl
  | txs kind blockHeight =>
    refine (exists_filter fun r => ?_).trans (exists_txRows hdb
      (P := fun t => t.hash = id ∧ (∀ k ∈ kind, t.kind = k) ∧ ∀ h ∈ blockHeight, t.slot = h.toInt64))
    rw [Bool.and_eq_true, optionAll_eq, optionAll_eq]
    simp only [Option.mem_map, forall_exists_index, and_imp, forall_apply_eq_imp_iff₂]
  | addressTxs addr =>
    exact (exists_filter fun r => tookPart_iff).trans (exists_txRows hdb
      (P := fun t => t.hash = id ∧ TookPart env.postgres addr t.sender t.kind t.details))
  | schemas set =>
    exact (exists_filter fun r => optionAll_eq).trans (exists_schemaRows hdb
      (P := fun t => t.id = id ∧ ∀ s ∈ set, t.attestorSetId = s))
  | attestations => exact Iff.rfl
  | attestationsBySchema schemaId => exact exists_filter fun r => decide_eq_true_iff
  | attestationsByAttestorSet setId =>
    constructor
    · rintro ⟨c, hc, hid⟩
      obtain ⟨a, ha, s, hs, hkey, rfl⟩ := Table.mem_join.1 hc
      rw [List.mem_filter, decide_eq_true_iff] at hs
      exact ⟨a, ha, hid, s, hs.1, hkey, hs.2⟩
    · rintro ⟨a, ha, hid, s, hs, hkey, hset⟩
      have hbound : s ∈ db.schemas.filter fun s => s.attestorSetId = setId :=
        List.mem_filter.2 ⟨hs, decide_eq_true hset⟩
      exact ⟨a, Table.mem_join.2 ⟨a, ha, s, hbound, hkey, rfl⟩, hid⟩
  | attestorSets => exact Iff.rfl
  | attestorSetsByMember pubkey => exact exists_filter fun r => decide_eq_true_iff
  | bounties board status =>
    refine exists_filter fun r => ?_
    rw [Bool.and_eq_true, optionAll_eq, optionAll_eq]
  | contracts status poster arbiter =>
    refine exists_filter fun r => ?_
    rw [Bool.and_eq_true, Bool.and_eq_true, optionAll_eq, optionAll_eq, optionAll_eq, and_assoc]

end Stored

section Found

variable {env denv db} {codec : Codec}

theorem forall_slot_iff {slot : Int64} {heights : Option UInt64} :
    (∀ h ∈ heights, slot.toUInt64 = h) ↔ ∀ h ∈ heights, slot = h.toInt64 := by
  constructor
  · intro hall h hh
    rw [← hall h hh, Int64.toInt64_toUInt64]
  · intro hall h hh
    rw [hall h hh, UInt64.toUInt64_toInt64]

/-- A stored attestation is found under the id as it is spelled. -/
theorem attestation_listed (hdb : Intact db) (hlat : LatIds codec denv)
    (hkeyed : AttestationsKeyed codec db) {id : String} {p : AttestationResponse → Prop} :
    (denv.toLowercase id = id ∧ (Resource.attestation id).Found denv db p) ↔
      ∃ r ∈ db.attestations, r.id = id ∧ p (attestationRowToResponse denv r) := by
  rw [attestation_found hdb hlat hkeyed]
  constructor
  · rintro ⟨hlower, r, hr, hid, hp⟩
    exact ⟨r, hr, hid.trans hlower, hp⟩
  · rintro ⟨r, hr, rfl, hp⟩
    have hlower := (attestation_spelled hlat hkeyed hr).1
    exact ⟨hlower, r, hr, hlower.symm, hp⟩

/-- What a detail endpoint finds, in terms of the table. -/
theorem stored_iff_found (hdb : Intact db) (hlat : LatIds codec denv)
    (hkeyed : AttestationsKeyed codec db) (e : Endpoint) (id : (listing env e).Id) :
    e.Stored env db id ↔ e.FoundIn env denv db id := by
  cases e with
  | blocks =>
    refine Iff.trans ?_ (block_found hdb).symm
    simp only [and_true]
    exact Iff.rfl
  | txs kind blockHeight =>
    refine Iff.trans (exists_txRows hdb).symm (Iff.trans ?_ (tx_found hdb).symm)
    refine exists_congr fun r => and_congr_right fun _ => and_congr_right fun _ => ?_
    exact and_congr_right fun _ => forall_slot_iff.symm
  | addressTxs addr =>
    refine Iff.trans ?_ (tx_found hdb).symm
    exact (exists_txRows hdb (P := fun t => t.hash = id ∧
      TookPart env.postgres addr t.sender t.kind t.details)).symm
  | schemas set =>
    refine Iff.trans ?_ (schema_found hdb).symm
    exact (exists_schemaRows hdb
      (P := fun t => t.id = id ∧ ∀ s ∈ set, t.attestorSetId = s)).symm
  | attestations =>
    refine Iff.trans ?_ (attestation_listed hdb hlat hkeyed).symm
    simp only [and_true]
    exact Iff.rfl
  | attestationsBySchema schemaId =>
    refine Iff.trans ?_ (attestation_listed hdb hlat hkeyed).symm
    exact Iff.rfl
  | attestationsByAttestorSet setId =>
    refine Iff.trans ?_ (attestation_listed hdb hlat hkeyed).symm
    refine exists_congr fun r => and_congr_right fun _ => and_congr_right fun _ => ?_
    refine Iff.trans ?_ (schema_found hdb).symm
    exact (exists_schemaRows hdb (P := fun s => s.id = r.schemaId ∧ s.attestorSetId = setId)).symm
  | attestorSets =>
    refine Iff.trans ?_ (attestorSet_found hdb).symm
    simp only [and_true]
    exact Iff.rfl
  | attestorSetsByMember pubkey =>
    refine Iff.trans ?_ (attestorSet_found hdb).symm
    exact Iff.rfl
  | bounties board status =>
    refine Iff.trans ?_ (bounty_found hdb).symm
    exact Iff.rfl
  | contracts status poster arbiter =>
    refine Iff.trans ?_ (contract_found hdb).symm
    exact Iff.rfl

end Found

section Runs

variable {env denv} {ienv : Indexer.Env} {es : List Event} {s : IndexerState}

/-- Over tables at rest a walk is lossless. -/
theorem resting_lossless {e : Endpoint} (haccept : e.Accepted env)
    (hrun : exec (step ienv) .init es = some s) {limits : List (Option UInt32)}
    (hreads : ∀ r ∈ (listing env e).matching s.db, (listing env e).ReadsBack r) :
    Lossless (listing env e) (limits.map fun limit => (s.db, limit)) := by
  have hdb : Intact s.db := (written_run hrun).intact intact_empty
  have hrest : ∀ q ∈ limits.map fun limit => (s.db, limit), q.1 = s.db := by
    intro q hq
    obtain ⟨limit, -, rfl⟩ := List.mem_map.1 hq
    rfl
  apply (paged env e haccept).lossless
  · intro q hq
    rw [hrest q hq]
    exact hreads
  · intro q hq
    rw [hrest q hq]
    exact nodup_keys (uniqueKeys_of_intact hdb)
      (idsFromPairs_of_keyed (attestationsKeyed_of_run hrun))
  · rw [List.map_map]
    refine (List.pairwise_map.2 (List.pairwise_of_forall fun _ _ => ?_)).isChain
    exact fun r hr => ⟨r, hr, rfl, rfl⟩

/-- **Every list agrees with its detail endpoint** in every reachable state: a walk of more requests
than there are rows ends, and has shown exactly the ids that are stored in rows that fit the filters,
which are exactly those that the detail endpoint finds with fields that fit them. -/
theorem listed_iff_found {e : Endpoint} (haccept : e.Accepted env) (hlat : LatIds ienv.codec denv)
    (hrun : exec (step ienv) .init es = some s)
    (hreads : ∀ r ∈ (listing env e).matching s.db, (listing env e).ReadsBack r)
    {limits : List (Option UInt32)}
    (hlen : ((listing env e).matching s.db).length < limits.length) :
    Finished (follow (listing env e).respond none (limits.map fun limit => (s.db, limit))) ∧
      ∀ id, ((∃ r ∈ allRows (follow (listing env e).respond none
          (limits.map fun limit => (s.db, limit))), (listing env e).ident r = id) ↔
          e.Stored env s.db id) ∧
        (e.Stored env s.db id ↔ e.FoundIn env denv s.db id) := by
  have hdb : Intact s.db := (written_run hrun).intact intact_empty
  have hwalk : Lossless (listing env e) (limits.map fun limit => (s.db, limit)) :=
    resting_lossless haccept hrun hreads
  have hend := hwalk.ends [] s.db limits rfl hlen
  have hrest : ∀ q ∈ limits.map fun limit => (s.db, limit), q.1 = s.db := by
    intro q hq
    obtain ⟨limit, -, rfl⟩ := List.mem_map.1 hq
    rfl
  have hperm := hwalk.exact s.db hrest hend
  refine ⟨hend, fun id => ⟨?_, stored_iff_found hdb hlat (attestationsKeyed_of_run hrun) e id⟩⟩
  rw [← matching_iff_stored hdb]
  exact exists_congr fun r => and_congr_left fun _ => hperm.mem_iff

theorem listed_iff_found_two_blocks :
    ∃ s, exec (step plainEnv) .init (.start none true :: twoSlots) = some s ∧
      s.db.slots.map SlotRow.height = [1, 2] ∧
      Finished (follow (listing sampleEnv .blocks).respond none
        [(s.db, some 1), (s.db, some 1), (s.db, none)]) ∧
      ∀ height, ((∃ r ∈ allRows (follow (listing sampleEnv .blocks).respond none
          [(s.db, some 1), (s.db, some 1), (s.db, none)]), r.height = height) ↔
          Endpoint.blocks.Stored sampleEnv s.db height) ∧
        (Endpoint.blocks.Stored sampleEnv s.db height ↔
          Endpoint.blocks.FoundIn sampleEnv plainDetailEnv s.db height) := by
  have hheights : (exec (step plainEnv) .init (.start none true :: twoSlots)).map
      (fun s => s.db.slots.map SlotRow.height) = some [1, 2] := by decide
  obtain ⟨s, hrun, hslots⟩ := Option.map_eq_some_iff.1 hheights
  have hlen : ((listing sampleEnv .blocks).matching s.db).length = 2 := by
    have hmap := congrArg List.length hslots
    rw [List.length_map] at hmap
    exact hmap
  have hlimits : ((listing sampleEnv .blocks).matching s.db).length <
      [some (1 : UInt32), some 1, none].length := by
    rw [hlen]
    exact Nat.lt_succ_self 2
  refine ⟨s, hrun, hslots, listed_iff_found (e := .blocks) trivial (fun _ _ h => by cases h) hrun
    (readsBack_of_heights ?_) hlimits⟩
  rw [hslots]
  exact List.subset_append_left [1, 2] [3]

end Runs

end LigateApi.Api
