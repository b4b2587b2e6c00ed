import LigateApi.Api.Verify.Pagination
import LigateApi.Indexer.Verify.Emitted
import LigateApi.Indexer.Verify.Later
import LigateApi.Indexer.Verify.PrevHash

/-!
# Pagination beside the indexer

A client pages through a list while the indexer runs: its requests meet the database at the times
they come in, between any two steps of the machine. Where a run keeps the columns a list is sorted,
joined and filtered by (`Lasting`), what it keeps of the rows (`Later`) is what a lossless walk needs,
whatever fails and however often the process restarts during the walk.
-/

namespace LigateApi.Api

open Lib Lib.Run Queries
open Indexer hiding TxRow SchemaRow Env

/-- The lists whose columns a run keeps. The others are sorted or filtered by what a statement may
write again: the place of a transaction, the slot of an attestor set, the board, the parties or the
status of a bounty or a contract. -/
def Endpoint.Lasting : Endpoint → Prop
  | .blocks | .schemas _ => True
  | .attestations | .attestationsBySchema _ | .attestationsByAttestorSet _ => True
  | .bounties board status => board = none ∧ status = none
  | .contracts status poster arbiter => status = none ∧ poster = none ∧ arbiter = none
  | .txs _ _ | .addressTxs _ | .attestorSets | .attestorSetsByMember _ => False

/-! ## Unique keys and ids -/

section Keys

variable {ienv : Indexer.Env} {db : Db} {e : Endpoint}

theorem uniqueKeys_of_intact (h : Intact db) : UniqueKeys db where
  slots := h.slots
  txHash := h.transactions.unique
  txPosition := h.positions
  attestorSets := h.attestorSets.unique
  schemas := h.schemas.unique
  schemaName := h.schemaNames
  attestations := h.submissions
  attestationId := h.attestations.unique
  bounties := h.bounties.unique
  contracts := h.contracts.unique

theorem idFromPair_of_keyed {codec : Codec} (h : AttestationsKeyed codec db) : IdFromPair db := by
  intro a ha b hb hschema hpayload
  have hid := h a ha
  rw [hschema, hpayload, h b hb] at hid
  exact (Except.ok.inj hid).symm

theorem idsFromPairs_of_keyed {codec : Codec} (h : AttestationsKeyed codec db) :
    e.IdsFromPairs db := by
  cases e with
  | attestations => exact idFromPair_of_keyed h
  | attestationsBySchema => exact idFromPair_of_keyed h
  | attestationsByAttestorSet => exact idFromPair_of_keyed h
  | _ => trivial

end Keys

/-! ## Rows -/

section Rows

variable {env : Env} {db db' : Db}

/-- The columns that the later row has in common. -/
theorem kept_of_follows {R κ γ : Type} {key : R → κ} {rel : R → R → Prop} {cols : R → γ}
    {rows rows' : List R} (h : Table.Follows key rel rows rows')
    (hcols : ∀ r r', key r' = key r → rel r r' → cols r' = cols r) : Kept cols rows rows' := by
  intro r hr
  obtain ⟨r', hr', hkey, hrel⟩ := h r hr
  exact ⟨r', hr', hcols r r' hkey hrel⟩

/-- A schema keeps all but the number of its attestations. -/
theorem kept_schemas {γ : Type} {cols : Indexer.SchemaRow → γ} (h : Later db db')
    (hcols : ∀ r n, cols { r with attestationCount := n } = cols r) :
    Kept cols db.schemas db'.schemas := by
  apply kept_of_follows h.schemas
  intro r r' _ hlater
  rw [hlater.same]
  exact hcols _ _

/-- An attestation keeps all but the number of its signatures. -/
theorem kept_attestations {γ : Type} {cols : AttestationRow → γ} (h : Later db db')
    (hcols : ∀ r n, cols { r with signatureCount := n } = cols r) :
    Kept cols db.attestations db'.attestations := by
  apply kept_of_follows h.attestations
  intro r r' _ hlater
  unfold AttestationRow.Later at hlater
  rw [hlater]
  exact hcols _ _

/-- What a list shows, a later state of the database still has in its place. -/
theorem keeps_of_later {e : Endpoint} (he : e.Lasting) (h : Later db db') :
    Keyset.Keeps (listing env e).key (listing env e).ident ((listing env e).matching db)
      ((listing env e).matching db') := by
  cases e with
  | blocks =>
    have hgrows : Endpoint.Grows db db' .blocks := kept_of_follows h.slots fun _ _ hkey _ => hkey
    exact keeps_matching hgrows
  | schemas filter =>
    have hgrows : Endpoint.Grows db db' (.schemas filter) :=
      ⟨kept_of_follows h.attestorSets fun _ _ hkey _ => hkey, kept_schemas h fun _ _ => rfl⟩
    exact keeps_matching hgrows
  | attestations =>
    have hgrows : Endpoint.Grows db db' .attestations := kept_attestations h fun _ _ => rfl
    exact keeps_matching hgrows
  | attestationsBySchema schemaId =>
    have hgrows : Endpoint.Grows db db' (.attestationsBySchema schemaId) :=
      kept_attestations h fun _ _ => rfl
    exact keeps_matching hgrows
  | attestationsByAttestorSet setId =>
    have hgrows : Endpoint.Grows db db' (.attestationsByAttestorSet setId) :=
      ⟨kept_schemas h fun _ _ => rfl, kept_attestations h fun _ _ => rfl⟩
    exact keeps_matching hgrows
  | bounties board status =>
    obtain ⟨rfl, rfl⟩ := he
    have hkept : Kept (fun r : BountyRow => (r.id, r.postedAtSlot)) db.bounties db'.bounties :=
      kept_of_follows h.bounties fun _ _ hkey hlater => Prod.ext hkey hlater.postedAtSlot
    apply keeps_slotId hkept
    intro a b hab
    simp only [Prod.mk.injEq] at hab
    exact ⟨hab.1, hab.2, rfl⟩
  | contracts status poster arbiter =>
    obtain ⟨rfl, rfl, rfl⟩ := he
    have hkept : Kept (fun r : ContractRow => (r.id, r.postedAtSlot)) db.contracts db'.contracts :=
      kept_of_follows h.contracts fun _ _ hkey hlater => Prod.ext hkey hlater.postedAtSlot
    apply keeps_slotId hkept
    intro a b hab
    simp only [Prod.mk.injEq] at hab
    exact ⟨hab.1, hab.2, rfl⟩
  | txs kind blockHeight => exact he.elim
  | addressTxs addr => exact he.elim
  | attestorSets => exact he.elim
  | attestorSetsByMember pubkey => exact he.elim

end Rows

/-! ## Requests during a run -/

section Runs

variable {ienv : Indexer.Env} {env : Env} {s : IndexerState} {seen : List Db}
  {es : List (Option Event)}

/-- What holds of every state a client's requests meet. -/
structure Readable (ienv : Indexer.Env) (s : IndexerState) : Prop where
  intact : Intact s.db
  emitted : EmittedInv ienv s

theorem readable_init : Readable ienv .init :=
  ⟨intact_empty, List.forall_mem_nil _, List.forall_mem_nil _⟩

theorem readable_step {s s' : IndexerState} {e : Event} (hs : Readable ienv s)
    (hstep : step ienv s e = some s') : Readable ienv s' where
  intact := (step_db hstep).written.intact hs.intact
  emitted := ⟨works_step hstep hs.emitted.works, (step_db hstep).attestationsKeyed hs.emitted⟩

/-- Every request meets tables without a flaw, and ids made from pairs. -/
theorem intact_of_request (hrun : exec (observe (step ienv) IndexerState.db) (.init, []) es =
      some (s, seen)) {db : Db} (hdb : db ∈ seen) :
    Intact db ∧ AttestationsKeyed ienv.codec db := by
  obtain ⟨m, hm, rfl⟩ := (observe_holds (I := Readable ienv) (fun _ _ _ => readable_step)
    readable_init hrun).2 db hdb
  exact ⟨hm.intact, hm.emitted.keyed⟩

/-- Of two requests, the second meets a later state. -/
theorem later_of_requests (hrun : exec (observe (step ienv) IndexerState.db) (.init, []) es =
      some (s, seen)) : seen.Pairwise Later := by
  have hall := (observe_pairwise (I := Readable ienv) Later.refl (fun _ _ _ => Later.trans)
    (fun _ _ _ => readable_step)
    (fun _ _ _ hs hstep => (step_db hstep).written.later hs.intact) readable_init hrun).2
  exact (List.pairwise_append.1 hall).1

theorem later_of_reads (hrun : exec (observe (step ienv) IndexerState.db) (.init, []) es =
      some (s, seen)) {i j : Nat} {db db' : Db} (hij : i ≤ j) (hi : seen[i]? = some db)
    (hj : seen[j]? = some db') : Later db db' := by
  obtain ⟨hi', rfl⟩ := List.getElem?_eq_some_iff.1 hi
  obtain ⟨hj', rfl⟩ := List.getElem?_eq_some_iff.1 hj
  rcases Nat.eq_or_lt_of_le hij with rfl | hlt
  · exact Later.refl _
  · exact List.pairwise_iff_getElem.1 (later_of_requests hrun) i j hi' hj' hlt

/-- **Paging through a list while the indexer writes to it** loses no row and shows none twice, in
every run of the machine. -/
theorem live_walk_lossless {e : Endpoint} (he : e.Lasting) {reqs : List (Db × Option UInt32)}
    (hrun : exec (observe (step ienv) IndexerState.db) (.init, []) es =
      some (s, reqs.map Prod.fst))
    (hreads : ∀ q ∈ reqs, ∀ r ∈ (listing env e).matching q.1, (listing env e).ReadsBack r) :
    Lossless (listing env e) reqs := by
  have haccept : e.Accepted env := by
    cases e with
    | attestorSetsByMember pubkey => exact he.elim
    | _ => trivial
  refine (paged env e haccept).lossless hreads (fun q hq => ?_) ?_
  · obtain ⟨hintact, hkeyed⟩ := intact_of_request hrun (List.mem_map_of_mem hq)
    exact nodup_keys (uniqueKeys_of_intact hintact) (idsFromPairs_of_keyed hkeyed)
  · have hlater : reqs.Pairwise fun q q' => Later q.1 q'.1 :=
      List.pairwise_map.1 (later_of_requests hrun)
    rw [List.isChain_map]
    exact hlater.isChain.imp fun _ _ => keeps_of_later he

/-- The process has stored two slots when the first page is asked for, and before the second it
crashes, starts again and stores a third. -/
def readBetweenCrashes : List (Option Event) :=
  (.start none true :: .head (some 3) :: (slotTurn 1 ++ slotTurn 2)).map some ++ none ::
    (.crash :: .start none true :: .head (some 3) :: slotTurn 3).map some ++ [none]

theorem readsBack_of_heights {db : Db} (h : db.slots.map SlotRow.height ⊆ [1, 2, 3]) :
    ∀ r ∈ (listing sampleEnv .blocks).matching db, (listing sampleEnv .blocks).ReadsBack r := by
  have hsmall : ∀ n ∈ ([1, 2, 3] : List Int64), n.toUInt64 ∈ ([1, 2, 3] : List UInt64) := by
    intro n hn
    simp only [List.mem_cons, List.not_mem_nil, or_false] at hn
    rcases hn with rfl | rfl | rfl
    · exact .head _
    · exact .tail _ (.head _)
    · exact .tail _ (.tail _ (.head _))
  exact fun r hr => readsBack_blocks (hsmall _ (h (List.mem_map_of_mem hr)))

theorem live_walk_lossless_between_crashes :
    ∃ s db₁ db₂, exec (observe (step plainEnv) IndexerState.db) (.init, []) readBetweenCrashes =
        some (s, [db₁, db₂]) ∧
      db₁.slots.map SlotRow.height = [1, 2] ∧ db₂.slots.map SlotRow.height = [1, 2, 3] ∧
      (follow (listing sampleEnv .blocks).respond none [(db₁, some 1), (db₂, none)]).map
        (fun p => p.data.map SlotRow.height) = [[2], [1]] ∧
      Lossless (listing sampleEnv .blocks) [(db₁, some 1), (db₂, none)] := by
  obtain ⟨s, db₁, db₂, hrun, h₁, h₂, hpages⟩ : ∃ s db₁ db₂,
      exec (observe (step plainEnv) IndexerState.db) (.init, []) readBetweenCrashes =
        some (s, [db₁, db₂]) ∧
      db₁.slots.map SlotRow.height = [1, 2] ∧ db₂.slots.map SlotRow.height = [1, 2, 3] ∧
      (follow (listing sampleEnv .blocks).respond none [(db₁, some 1), (db₂, none)]).map
        (fun p => p.data.map SlotRow.height) = [[2], [1]] :=
    ⟨_, _, _, rfl, by decide, by decide, by decide⟩
  refine ⟨s, db₁, db₂, hrun, h₁, h₂, hpages, live_walk_lossless (e := .blocks) ?_ hrun ?_⟩
  · trivial
  · intro q hq
    rcases List.mem_pair.1 hq with rfl | rfl
    · exact readsBack_of_heights (by simp [h₁])
    · exact readsBack_of_heights (by simp [h₂])

end Runs

end LigateApi.Api
