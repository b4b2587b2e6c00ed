import LigateApi.Indexer.Verify.Contract
import LigateApi.Indexer.Verify.Escrow

/-!
# Posting provenance

The posting columns of a bounty or a contract are written when its row is inserted and never again.
They name the posting transaction exactly if that is the one whose hydrate inserts the row: the
hydrate of the posting may fail, and then the first later event that hydrates inserts a row with its
own slot, hash and timestamp, which no re-walk corrects. Here statements may be refused and the
process may die; what counts is which hydrates find no row (`PostingFirst`).
-/

namespace LigateApi.Indexer

open Lib Lib.Run

/-! ## Origins -/

/-- Slot, hash and timestamp of the posting. -/
def BountyRow.origin (r : BountyRow) : Int64 × String × Int :=
  (r.postedAtSlot, r.postedAtTx, r.postedAtTimestamp)

def ContractRow.origin (r : ContractRow) : Int64 × String × Int :=
  (r.postedAtSlot, r.postedAtTx, r.postedAtTimestamp)

def TxWork.origin (w : TxWork) : Int64 × String × Int :=
  (w.slotNumber.toInt64, w.classified.hash, w.timestamp)

def bountyOrigin (b : String) (db : Db) : Option (Int64 × String × Int) :=
  (Table.lookup BountyRow.id b db.bounties).map BountyRow.origin

def contractOrigin (c : String) (db : Db) : Option (Int64 × String × Int) :=
  (Table.lookup ContractRow.id c db.contracts).map ContractRow.origin

/-! ## One transaction, with faults -/

section Faults

variable {env : Env} {faults : TxStmt → Fault} {client : NodeClient} {w : TxWork} {db : Db}
  {b c : String}

theorem keeps_bountyOrigin_delta {kind : BountyEventKind} {id : String} :
    Keeps (bountyOrigin b) (bountyDelta env faults w id kind) :=
  keeps_bountyColumn_delta (fun _ => rfl) fun _ _ _ _ => rfl

theorem keeps_contractOrigin_delta {kind : ContractEventKind} {id : String} :
    Keeps (contractOrigin c) (contractDelta faults id kind) :=
  keeps_contractColumn_delta fun _ => rfl

theorem bountyOrigin_upsert {id : String} {record : BountyRecord} {db' : Db}
    (h : upsertBounty id record w.slotNumber w.classified.hash w.timestamp db = .ok db') :
    bountyOrigin b db' = bountyOrigin b db ∨
      b = id ∧ bountyOrigin b db = none ∧ bountyOrigin b db' = some w.origin := by
  rw [(upsertBounty_ok h).2]
  exact Table.map_lookup_upsert (fun _ => rfl) fun _ => rfl

theorem contractOrigin_upsert {id : String} {record : ContractRecord} {db' : Db}
    (h : upsertContract env id record w.slotNumber w.classified.hash w.timestamp db = .ok db') :
    contractOrigin c db' = contractOrigin c db ∨
      c = id ∧ contractOrigin c db = none ∧ contractOrigin c db' = some w.origin := by
  rw [upsertContract_eq h]
  exact Table.map_lookup_upsert (fun _ => rfl) fun _ => rfl

/-- A hydrate and its delta: an origin appears only where there was none. -/
theorem origin_hydrate {π : Db → Option (Int64 × String × Int)} {p : Prop} {stmt : TxStmt}
    {f : Db → Except DbError Db} {delta : TxRun → TxRun}
    (hf : ∀ db db', f db = .ok db' → π db' = π db ∨ p ∧ π db = none ∧ π db' = some w.origin)
    (hdelta : Keeps π delta) (r : TxRun) :
    π (TxRun.attempt faults stmt f delta id r).db = π r.db ∨
      p ∧ π r.db = none ∧ π (TxRun.attempt faults stmt f delta id r).db = some w.origin := by
  rcases attempt_same_or_ok faults stmt f delta r with h | ⟨db', -, -, hdb, h⟩
  · exact .inl (congrArg π h)
  · rw [h, hdelta]
    exact hf r.db db' hdb

theorem bountyOrigin_insertResourceRows (r : TxRun) :
    bountyOrigin b (insertResourceRows env faults client w r).db = bountyOrigin b r.db ∨
      (∃ kind record, Hydrated client w b kind record) ∧ bountyOrigin b r.db = none ∧
        bountyOrigin b (insertResourceRows env faults client w r).db = some w.origin := by
  by_cases hb : ∃ id kind, w.classified.kind = .bountyEvent id kind
  · obtain ⟨id, kind, hkind⟩ := hb
    unfold insertResourceRows
    simp only [hkind]
    cases hrec : client.bountyAt id with
    | error e => exact .inl rfl
    | ok found =>
      cases found with
      | none => exact .inl rfl
      | some record =>
        refine origin_hydrate (fun db db' h => ?_) keeps_bountyOrigin_delta r
        rcases bountyOrigin_upsert (b := b) h with hsame | ⟨rfl, hnone, hsome⟩
        · exact .inl hsame
        · exact .inr ⟨⟨kind, record, hkind, hrec⟩, hnone, hsome⟩
  · exact .inl (keeps_insertResourceRows ⟨fun _ _ => rfl, fun _ _ => rfl, fun _ _ => rfl,
      schemasOwned_ignored fun _ _ => rfl, fun id kind hk => absurd ⟨id, kind, hk⟩ hb, fun _ _ _ _ _ => rfl⟩ r)

theorem contractOrigin_insertResourceRows (r : TxRun) :
    contractOrigin c (insertResourceRows env faults client w r).db = contractOrigin c r.db ∨
      (∃ kind record, HydratedContract client w c kind record) ∧ contractOrigin c r.db = none ∧
        contractOrigin c (insertResourceRows env faults client w r).db = some w.origin := by
  by_cases hc : ∃ id kind, w.classified.kind = .contractEvent id kind
  · obtain ⟨id, kind, hkind⟩ := hc
    unfold insertResourceRows
    simp only [hkind]
    cases hrec : client.contractAt id with
    | error e => exact .inl rfl
    | ok found =>
      cases found with
      | none => exact .inl rfl
      | some record =>
        refine origin_hydrate (fun db db' h => ?_) keeps_contractOrigin_delta r
        rcases contractOrigin_upsert (c := c) h with hsame | ⟨rfl, hnone, hsome⟩
        · exact .inl hsame
        · exact .inr ⟨⟨kind, record, hkind, hrec⟩, hnone, hsome⟩
  · exact .inl (keeps_insertResourceRows ⟨fun _ _ => rfl, fun _ _ => rfl, fun _ _ => rfl,
      schemasOwned_ignored fun _ _ => rfl, fun _ _ _ _ _ => rfl, fun id kind hk => absurd ⟨id, kind, hk⟩ hc⟩ r)

/-- The whole turn of the loop changes such an origin only through its resource rows. -/
theorem processTx_before_resources (env : Env) (faults : TxStmt → Fault) (client : NodeClient)
    (w : TxWork) (db : Db) :
    (processTx env faults client w db).db = db ∨
      ∃ r : TxRun, r.db.bounties = db.bounties ∧ r.db.contracts = db.contracts ∧
        processTx env faults client w db = insertResourceRows env faults client w r := by
  rcases attempt_same_or_ok faults .transaction
    (insertTransaction w.classified w.slotNumber w.position w.decoded)
    (fun r => insertResourceRows env faults client w (updateAddressSummaries faults w r))
    { db := db } with h | ⟨db', -, -, hdb, h⟩
  · exact .inl h
  · have hbounties : Keeps Db.bounties (updateAddressSummaries faults w) :=
      keeps_updateAddressSummaries fun _ _ => rfl
    have hcontracts : Keeps Db.contracts (updateAddressSummaries faults w) :=
      keeps_updateAddressSummaries fun _ _ => rfl
    refine .inr ⟨_, ?_, ?_, h⟩
    · rw [hbounties, insertTransaction_frame hdb]
    · rw [hcontracts, insertTransaction_frame hdb]

theorem bountyOrigin_processTx (b : String) (env : Env) (faults : TxStmt → Fault)
    (client : NodeClient) (w : TxWork) (db : Db) :
    bountyOrigin b (processTx env faults client w db).db = bountyOrigin b db ∨
      (∃ kind record, Hydrated client w b kind record) ∧ bountyOrigin b db = none ∧
        bountyOrigin b (processTx env faults client w db).db = some w.origin := by
  rcases processTx_before_resources env faults client w db with h | ⟨r, hb, -, h⟩
  · exact .inl (congrArg (bountyOrigin b) h)
  · have hr : bountyOrigin b r.db = bountyOrigin b db := by rw [bountyOrigin, hb, bountyOrigin]
    rw [h, ← hr]
    exact bountyOrigin_insertResourceRows r

theorem contractOrigin_processTx (c : String) (env : Env) (faults : TxStmt → Fault)
    (client : NodeClient) (w : TxWork) (db : Db) :
    contractOrigin c (processTx env faults client w db).db = contractOrigin c db ∨
      (∃ kind record, HydratedContract client w c kind record) ∧ contractOrigin c db = none ∧
        contractOrigin c (processTx env faults client w db).db = some w.origin := by
  rcases processTx_before_resources env faults client w db with h | ⟨r, -, hc, h⟩
  · exact .inl (congrArg (contractOrigin c) h)
  · have hr : contractOrigin c r.db = contractOrigin c db := by
      rw [contractOrigin, hc, contractOrigin]
    rw [h, ← hr]
    exact contractOrigin_insertResourceRows r

end Faults

/-! ## Histories -/

/-- The transaction carries the posting of contract `c`. -/
def Visit.postsContract {env : Env} (v : Visit env) (c : String) : Prop :=
  ∃ ev ∈ v.events, ev.key = "Contracts/ContractPosted" ∧
    env.serde.contract .posted ev.value = some c

def Visit.hydrates {env : Env} (v : Visit env) (b : String) : Prop :=
  ∃ kind record, Hydrated v.client v.work b kind record

def Visit.hydratesContract {env : Env} (v : Visit env) (c : String) : Prop :=
  ∃ kind record, HydratedContract v.client v.work c kind record

/-- One turn of the loop, whatever fails in it. -/
def ingest (env : Env) (db : Db) (e : (TxStmt → Fault) × Visit env) : Option Db :=
  some (processTx env e.1 e.2.client e.2.work db).db

/-- A hydrate that finds no row belongs to the posting transaction. -/
def PostingFirst {env : Env} (db : Db) (e : (TxStmt → Fault) × Visit env) : Prop :=
  (∀ b, Table.lookup BountyRow.id b db.bounties = none → e.2.hydrates b → e.2.posts b) ∧
    ∀ c, Table.lookup ContractRow.id c db.contracts = none → e.2.hydratesContract c →
      e.2.postsContract c

section Origin

variable {env : Env} {vs es : List ((TxStmt → Fault) × Visit env)} {db₀ db : Db}
  {π : String → Db → Option (Int64 × String × Int)} {posts hydrates : Visit env → String → Prop}

/-- Every origin is that of a posting transaction of the history, if the hydrates that find none
are. -/
theorem origin_posted
    (hstep : ∀ k faults (v : Visit env) db,
      π k (processTx env faults v.client v.work db).db = π k db ∨
        hydrates v k ∧ π k db = none ∧
          π k (processTx env faults v.client v.work db).db = some v.work.origin)
    (hnew : ∀ k, π k db₀ = none)
    (hfirst : Along (ingest env) (fun db e => ∀ k, π k db = none → hydrates e.2 k → posts e.2 k)
      db₀ vs)
    (hes : es <+: vs) (hrun : exec (ingest env) db₀ es = some db) :
    ∀ k o, π k db = some o → ∃ e ∈ es, posts e.2 k ∧ o = e.2.work.origin := by
  refine exec_history (I := fun es db => ∀ k o, π k db = some o →
    ∃ e ∈ es, posts e.2 k ∧ o = e.2.work.origin) ?_ ?_ hes hrun
  · intro k o ho
    rw [hnew k] at ho
    cases ho
  · intro es e m t hpre hm hinv ht k o ho
    cases ht
    rcases hstep k e.1 e.2 m with hsame | ⟨hhyd, hnone, hsome⟩
    · rw [hsame] at ho
      obtain ⟨e', he', hposts⟩ := hinv k o ho
      exact ⟨e', List.mem_append_left _ he', hposts⟩
    · rw [hsome, Option.some.injEq] at ho
      exact ⟨e, List.mem_append_right _ List.mem_cons_self,
        hfirst.at_prefix hpre hm k hnone hhyd, ho.symm⟩

end Origin

section History

variable {env : Env} {vs : List ((TxStmt → Fault) × Visit env)} {db₀ : Db}

/-- **Posting provenance** while the posting transaction is the first to hydrate. -/
theorem posted_at_of_posting_first (hbounties : db₀.bounties = []) (hcontracts : db₀.contracts = [])
    (honce : ∀ e ∈ vs, ∀ e' ∈ vs, ∀ b, e.2.posts b → e'.2.posts b →
      e.2.work.origin = e'.2.work.origin)
    (honce' : ∀ e ∈ vs, ∀ e' ∈ vs, ∀ c, e.2.postsContract c → e'.2.postsContract c →
      e.2.work.origin = e'.2.work.origin)
    (hfirst : Along (ingest env) PostingFirst db₀ vs)
    {es : List ((TxStmt → Fault) × Visit env)} {db : Db} (hes : es <+: vs)
    (hrun : exec (ingest env) db₀ es = some db) :
    (∀ b r, Table.lookup BountyRow.id b db.bounties = some r →
      ∀ e ∈ es, e.2.posts b → e.2.hydrates b → r.origin = e.2.work.origin) ∧
    ∀ c r, Table.lookup ContractRow.id c db.contracts = some r →
      ∀ e ∈ es, e.2.postsContract c → e.2.hydratesContract c → r.origin = e.2.work.origin := by
  have hb : Along (ingest env) (fun db e => ∀ b, bountyOrigin b db = none → e.2.hydrates b →
      e.2.posts b) db₀ vs := by
    apply hfirst.imp
    intro db e h b hnone
    exact h.1 b (Option.map_eq_none_iff.1 hnone)
  have hc : Along (ingest env) (fun db e => ∀ c, contractOrigin c db = none →
      e.2.hydratesContract c → e.2.postsContract c) db₀ vs := by
    apply hfirst.imp
    intro db e h c hnone
    exact h.2 c (Option.map_eq_none_iff.1 hnone)
  constructor
  · intro b r hr e he hposts _
    have horigin : bountyOrigin b db = some r.origin := by rw [bountyOrigin, hr, Option.map_some]
    obtain ⟨e', he', hposts', ho⟩ := origin_posted
      (fun k faults v db => bountyOrigin_processTx k env faults v.client v.work db)
      (fun k => by rw [bountyOrigin, hbounties]; rfl) hb hes hrun b _ horigin
    rw [ho]
    exact honce e' (hes.subset he') e (hes.subset he) b hposts' hposts
  · intro c r hr e he hposts _
    have horigin : contractOrigin c db = some r.origin := by
      rw [contractOrigin, hr, Option.map_some]
    obtain ⟨e', he', hposts', ho⟩ := origin_posted
      (fun k faults v db => contractOrigin_processTx k env faults v.client v.work db)
      (fun k => by rw [contractOrigin, hcontracts]; rfl) hc hes hrun c _ horigin
    rw [ho]
    exact honce' e' (hes.subset he') e (hes.subset he) c hposts' hposts

end History

/-! ## A posting that is hydrated first, and one that is not -/

def contractPostedVisit : Visit marketEnv := marketVisit marketNode "0xcc" 2 [contractPostedEvent]

/-- The postings, the second of them after a missed one, and a claim. -/
def promptPosting : List ((TxStmt → Fault) × Visit marketEnv) :=
  [(noFaults, marketVisit silentNode "0xaa" 1 [postedEvent]), (noFaults, postedVisit),
    (noFaults, contractPostedVisit), (noFaults, marketVisit marketNode "0xbb" 3 [claimedEvent "30"])]

theorem postingFirst_promptPosting :
    Along (ingest marketEnv) PostingFirst boardDb promptPosting := by
  have hmissed : ∀ db, PostingFirst db
      (noFaults, marketVisit silentNode "0xaa" 1 [postedEvent]) := by
    refine fun db => ⟨?_, ?_⟩
    · rintro b - ⟨kind, record, -, hrecord⟩
      cases hrecord
    · rintro c - ⟨kind, record, hkind, -⟩
      cases hkind
  have hposted : ∀ db, PostingFirst db (noFaults, postedVisit) := by
    refine fun db => ⟨?_, ?_⟩
    · rintro b - ⟨kind, record, hkind, -⟩
      cases hkind
      exact ⟨postedEvent, List.mem_cons_self, rfl, rfl⟩
    · rintro c - ⟨kind, record, hkind, -⟩
      cases hkind
  have hcontract : ∀ db, PostingFirst db (noFaults, contractPostedVisit) := by
    refine fun db => ⟨?_, ?_⟩
    · rintro b - ⟨kind, record, hkind, -⟩
      cases hkind
    · rintro c - ⟨kind, record, hkind, -⟩
      cases hkind
      exact ⟨contractPostedEvent, List.mem_cons_self, rfl, rfl⟩
  refine ⟨hmissed _, ?_⟩
  rintro _ ⟨⟩
  refine ⟨hposted _, ?_⟩
  rintro _ ⟨⟩
  refine ⟨hcontract _, ?_⟩
  rintro _ ⟨⟩
  refine ⟨⟨?_, ?_⟩, fun _ _ => trivial⟩
  · rintro b hnone ⟨kind, record, hkind, -⟩
    cases hkind
    cases hnone
  · rintro c - ⟨kind, record, hkind, -⟩
    cases hkind

section Keys

variable {client : NodeClient} {hash : String} {position : Int32} {ev : LedgerEvent} {id : String}

theorem not_posts_of_key (h : ev.key ≠ "Bounty/BountyPosted") :
    ¬ (marketVisit client hash position [ev]).posts id := by
  rintro ⟨ev', hev, hkey, -⟩
  rw [List.mem_singleton.1 hev] at hkey
  exact h hkey

theorem not_postsContract_of_key (h : ev.key ≠ "Contracts/ContractPosted") :
    ¬ (marketVisit client hash position [ev]).postsContract id := by
  rintro ⟨ev', hev, hkey, -⟩
  rw [List.mem_singleton.1 hev] at hkey
  exact h hkey

end Keys

theorem promptPosting_named :
    ∃ db, exec (ingest marketEnv) boardDb promptPosting = some db ∧
      (∀ r, Table.lookup BountyRow.id "lbt1" db.bounties = some r →
        r.origin = postedVisit.work.origin) ∧
      ∀ r, Table.lookup ContractRow.id "lct1" db.contracts = some r →
        r.origin = contractPostedVisit.work.origin := by
  have hmem : ∀ e ∈ promptPosting, (∀ b, e.2.posts b → e.2.work.origin = postedVisit.work.origin) ∧
      ∀ c, e.2.postsContract c → e.2.work.origin = contractPostedVisit.work.origin := by
    intro e he
    simp only [promptPosting, List.mem_cons, List.not_mem_nil, or_false] at he
    rcases he with rfl | rfl | rfl | rfl
    · exact ⟨fun b _ => rfl, fun c h => absurd h (not_postsContract_of_key (by decide))⟩
    · exact ⟨fun b _ => rfl, fun c h => absurd h (not_postsContract_of_key (by decide))⟩
    · exact ⟨fun b h => absurd h (not_posts_of_key (by decide)), fun c _ => rfl⟩
    · exact ⟨fun b h => absurd h (not_posts_of_key (by decide)),
        fun c h => absurd h (not_postsContract_of_key (by decide))⟩
  obtain ⟨db, hrun⟩ : ∃ db, exec (ingest marketEnv) boardDb promptPosting = some db := ⟨_, rfl⟩
  obtain ⟨hb, hc⟩ := posted_at_of_posting_first rfl rfl
    (fun e he e' he' b h h' => ((hmem e he).1 b h).trans ((hmem e' he').1 b h').symm)
    (fun e he e' he' c h h' => ((hmem e he).2 c h).trans ((hmem e' he').2 c h').symm)
    postingFirst_promptPosting (List.prefix_refl _) hrun
  refine ⟨db, hrun, ?_, ?_⟩
  · intro r hr
    exact hb "lbt1" r hr (noFaults, postedVisit) (List.mem_cons_of_mem _ List.mem_cons_self)
      ⟨postedEvent, List.mem_cons_self, rfl, rfl⟩ ⟨.posted, _, rfl, rfl⟩
  · intro r hr
    exact hc "lct1" r hr (noFaults, contractPostedVisit)
      (List.mem_cons_of_mem _ (List.mem_cons_of_mem _ List.mem_cons_self))
      ⟨contractPostedEvent, List.mem_cons_self, rfl, rfl⟩ ⟨.posted, _, rfl, rfl⟩

/-- The postings are missed, a claim and a delivery are not, and the slot is walked again. -/
def latePosting : List ((TxStmt → Fault) × Visit marketEnv) :=
  [(noFaults, marketVisit silentNode "0xaa" 1 [postedEvent]),
    (noFaults, marketVisit silentNode "0xcc" 2 [contractPostedEvent]),
    (noFaults, marketVisit marketNode "0xbb" 3 [claimedEvent "30"]),
    (noFaults, marketVisit marketNode "0xdd" 4 [deliveryAcceptedEvent]),
    (noFaults, postedVisit), (noFaults, contractPostedVisit)]

theorem latePosting_misnamed :
    ∃ db, exec (ingest marketEnv) boardDb latePosting = some db ∧
      (postedVisit.posts "lbt1" ∧ postedVisit.hydrates "lbt1" ∧
        ∃ r, Table.lookup BountyRow.id "lbt1" db.bounties = some r ∧
          r.postedAtTx = "0xbb" ∧ r.origin ≠ postedVisit.work.origin) ∧
      contractPostedVisit.postsContract "lct1" ∧ contractPostedVisit.hydratesContract "lct1" ∧
        ∃ r, Table.lookup ContractRow.id "lct1" db.contracts = some r ∧
          r.postedAtTx = "0xdd" ∧ r.origin ≠ contractPostedVisit.work.origin := by
  refine ⟨_, rfl, ⟨⟨postedEvent, List.mem_cons_self, rfl, rfl⟩, ⟨.posted, _, rfl, rfl⟩, _, rfl, rfl,
    by decide⟩, ⟨contractPostedEvent, List.mem_cons_self, rfl, rfl⟩, ⟨.posted, _, rfl, rfl⟩, _, rfl,
    rfl, by decide⟩

end LigateApi.Indexer
