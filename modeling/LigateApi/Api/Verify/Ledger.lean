import LigateApi.Api.Verify.Resource
import LigateApi.Indexer.Verify.Mirror

/-!
# The lists of transactions show the ledger

A transaction may be reported again in another place, and the lists of transactions are lossless
under no condition on the node. Against a node that serves a fixed chain no row moves: a walk
through `/v1/txs` or the transactions of an address is lossless while the indexer writes, what it
shows was committed on the chain, and what was committed up to the cursor at its first request it
has shown when it ends (`ledger_walk`).
-/

namespace LigateApi.Api

open Lib Lib.Run Queries
open Indexer hiding TxRow SchemaRow Env

/-! ## The two lists -/

inductive TxList
  | all (kind : Option String) (blockHeight : Option UInt64)
  | ofAddress (addr : String)

namespace TxList

variable (env : Env)

def endpoint : TxList → Endpoint
  | all kind blockHeight => .txs kind blockHeight
  | ofAddress addr => .addressTxs addr

/-- The filter of the list. -/
def shows (t : Indexer.TxRow) : TxList → Bool
  | all kind blockHeight =>
    kind.all (fun k => t.kind = k) &&
      (blockHeight.map UInt64.toInt64).all fun height => t.slot = height
  | ofAddress addr =>
    t.sender = some addr ||
      (t.kind = "transfer" && env.postgres.fieldText "from" t.details = some addr) ||
      (t.kind = "transfer" && env.postgres.fieldText "to" t.details = some addr)

def respond : TxList → Db → PaginationParams → Reply TxRow
  | all kind blockHeight => fun db params =>
    txsList env (.ok db) { params with kind, blockHeight }
  | ofAddress addr => fun db => addressTxs env (.ok db) addr

def listing (l : TxList) : Listing :=
  txListing env (l.respond env) fun db => (txRows db).filter fun t => l.shows env t.toTxRow

theorem listing_endpoint (l : TxList) : Api.listing env l.endpoint = l.listing env := by
  cases l <;> rfl

def paged (l : TxList) : Paged (l.listing env) :=
  match l with
  | all kind blockHeight => Api.paged env (.txs kind blockHeight) trivial
  | ofAddress addr => Api.paged env (.addressTxs addr) trivial

end TxList

section Walk

variable {env : Env} {l : TxList} {db db' : Db} {R : Type}

/-- A request leads to one page at most. -/
theorem length_follow_le (respond : Db → PaginationParams → Reply R) (before : Option String)
    (reqs : List (Db × Option UInt32)) : (follow respond before reqs).length ≤ reqs.length := by
  induction reqs generalizing before with
  | nil => exact Nat.le_refl 0
  | cons q reqs ih =>
    obtain ⟨db, limit⟩ := q
    rw [follow, List.length_cons]
    split
    · split
      · exact Nat.succ_le_succ (Nat.zero_le _)
      · exact Nat.succ_le_succ (ih _)
    · exact Nat.zero_le _
    · exact Nat.zero_le _

/-- Every row that is shown matched at one of the requests. -/
theorem Lossless.shown {L : Listing} {reqs : List (Db × Option UInt32)} (h : Lossless L reqs)
    {r : L.Row} (hr : r ∈ allRows (follow L.respond none reqs)) :
    ∃ q ∈ reqs, r ∈ L.matching q.1 := by
  obtain ⟨page, hpage, hr⟩ := List.mem_flatMap.1 hr
  obtain ⟨i, hi⟩ := List.getElem?_of_mem hpage
  have hlt : i < reqs.length :=
    (List.getElem?_eq_some_iff.1 hi).1.trans_le (length_follow_le _ _ _)
  exact ⟨reqs[i], List.getElem_mem hlt, h.matching i page _ hi (List.getElem?_eq_getElem hlt) r hr⟩

/-- While no row changes, the lists of transactions only grow. -/
theorem keeps_txList (hdb : Intact db) (hdb' : Intact db')
    (h : ∀ t ∈ db.transactions, t ∈ db'.transactions) :
    Keyset.Keeps (l.listing env).key (l.listing env).ident ((l.listing env).matching db)
      ((l.listing env).matching db') := by
  intro r hr
  obtain ⟨hr, hshows⟩ := List.mem_filter.1 hr
  obtain ⟨r', hr', hsame⟩ := (mem_txRows hdb').1 (h _ ((mem_txRows hdb).2 ⟨r, hr, rfl⟩))
  refine ⟨r', List.mem_filter.2 ⟨hr', ?_⟩, congrArg Indexer.TxRow.hash hsame, ?_⟩
  · rw [hsame]
    exact hshows
  · have hkey : Queries.txKey r' = Queries.txKey r := by
      simp only [txKey, hsame]
    exact hkey

end Walk

/-! ## Walks during an honest run -/

section Runs

variable {ienv : Indexer.Env} {env : Env} {chain : Chain} {l : TxList} {s : IndexerState}
  {es : List (Option Event)} {reqs : List (IndexerState × Option UInt32)}

/-- What the pages of a walk have to do with the chain; `first` is the state at its first
request. -/
structure ShowsLedger (ienv : Indexer.Env) (env : Env) (chain : Chain) (l : TxList)
    (first : Option IndexerState) (pages : List (Page TxRow)) : Prop where
  /-- What is shown was committed. -/
  committed : ∀ r ∈ allRows pages, ∃ n i tx, chain.Commits n i tx ∧
    r.toTxRow = chain.row ienv n i tx
  /-- What was committed up to the cursor is shown, if it meets the filter and the node has not
  answered 404 for its height. -/
  complete : Finished pages → ∀ m ∈ first, ∀ k i tx, 1 ≤ k →
    (∃ h ∈ m.db.lastIndexedHeight, k ≤ h) → (∀ head, (k, head) ∉ m.notFound) →
    chain.Commits k i tx → l.shows env (chain.row ienv k i tx) →
    ∃ r ∈ allRows pages, r.toTxRow = chain.row ienv k i tx

/-- The states at the requests are in order, and from one to the next no row changes. -/
structure SeenInOrder (ienv : Indexer.Env) (chain : Chain)
    (reqs : List (IndexerState × Option UInt32)) : Prop where
  mirror : ∀ q ∈ reqs, MirrorInv ienv chain q.1
  intact : ∀ q ∈ reqs, Intact q.1.db
  grows : reqs.Pairwise fun q q' => ∀ t ∈ q.1.db.transactions, t ∈ q'.1.db.transactions

theorem seenInOrder (hrun : exec (observe (step ienv) id) (.init, []) es =
      some (s, reqs.map Prod.fst))
    (hhonest : Along (step ienv) (Honest chain) .init es.reduceOption) :
    SeenInOrder ienv chain reqs := by
  obtain ⟨hseen, hgrow⟩ := observe_along
    (I := fun m => MirrorInv ienv chain m ∧ Intact m.db)
    (R := fun m m' => ∀ t ∈ m.db.transactions, t ∈ m'.db.transactions)
    (fun _ _ h => h) (fun _ _ _ h h' t ht => h' t (h t ht))
    (fun m e m' hm he hstep => ⟨⟨mirrorInv_step hm.1 he hstep,
      (step_db hstep).written.intact hm.2⟩, (hm.1.transactions he (step_db hstep)).1⟩)
    ⟨mirrorInv_init, intact_empty⟩ hhonest hrun
  exact ⟨fun q hq => (hseen q.1 (List.mem_map_of_mem hq)).1,
    fun q hq => (hseen q.1 (List.mem_map_of_mem hq)).2, List.pairwise_map.1 hgrow⟩

theorem SeenInOrder.lossless (h : SeenInOrder ienv chain reqs)
    (hreads : ∀ q ∈ reqs, ∀ r ∈ (l.listing env).matching q.1.db, (l.listing env).ReadsBack r) :
    Lossless (l.listing env) (reqs.map fun q => (q.1.db, q.2)) := by
  refine (l.paged env).lossless ?_ ?_ ?_
  · intro p hp
    obtain ⟨q, hq, rfl⟩ := List.mem_map.1 hp
    exact hreads q hq
  · intro p hp
    obtain ⟨q, hq, rfl⟩ := List.mem_map.1 hp
    exact (nodup_txKeys (uniqueKeys_of_intact (h.intact q hq))).sublist
      (List.filter_sublist.map _)
  · rw [List.map_map, List.isChain_map]
    refine List.Pairwise.isChain (h.grows.imp_of_mem fun {q q'} hq hq' hkept => ?_)
    exact keeps_txList (h.intact q hq) (h.intact q' hq') hkept

/-- What is shown was stored at one of the requests. -/
theorem SeenInOrder.shown (h : SeenInOrder ienv chain reqs)
    (hlossless : Lossless (l.listing env) (reqs.map fun q => (q.1.db, q.2))) {r : TxRow}
    (hr : r ∈ allRows (follow (l.respond env) none (reqs.map fun q => (q.1.db, q.2)))) :
    ∃ q ∈ reqs, r.toTxRow ∈ q.1.db.transactions := by
  obtain ⟨p, hp, hr⟩ := Lossless.shown hlossless hr
  obtain ⟨q, hq, rfl⟩ := List.mem_map.1 hp
  exact ⟨q, hq, (mem_txRows (h.intact q hq)).2 ⟨r, (List.mem_filter.1 hr).1, rfl⟩⟩

/-- **The lists show the ledger.** -/
theorem ledger_walk
    (hrun : exec (observe (step ienv) id) (.init, []) es = some (s, reqs.map Prod.fst))
    (hhonest : Along (step ienv) (Honest chain) .init es.reduceOption)
    (hreads : ∀ q ∈ reqs, ∀ r ∈ (l.listing env).matching q.1.db, (l.listing env).ReadsBack r) :
    Lossless (l.listing env) (reqs.map fun q => (q.1.db, q.2)) ∧
      ShowsLedger ienv env chain l (reqs.head?.map Prod.fst)
        (follow (l.respond env) none (reqs.map fun q => (q.1.db, q.2))) := by
  have hseen : SeenInOrder ienv chain reqs := seenInOrder hrun hhonest
  have hlossless : Lossless (l.listing env) (reqs.map fun q => (q.1.db, q.2)) :=
    hseen.lossless hreads
  refine ⟨hlossless, ⟨fun r hr => ?_, fun hend m hm k i tx hk hcursor hnot hc hshows => ?_⟩⟩
  · obtain ⟨q, hq, hstored⟩ := hseen.shown hlossless hr
    exact (hseen.mirror q hq).rows _ hstored
  · obtain ⟨q, hq, rfl⟩ := Option.map_eq_some_iff.1 hm
    have hmem : q ∈ reqs := List.mem_of_mem_head? hq
    obtain ⟨h, hh, hle⟩ := hcursor
    have hlisted : chain.row ienv k i tx ∈ q.1.db.transactions := by
      rcases (hseen.mirror q hmem).progress.passed.cursor h hh k hk hle with ⟨head, h404⟩ | hdone
      · exact absurd h404 (hnot head)
      · exact hdone i tx hc
    obtain ⟨r, hr, hrow⟩ := (mem_txRows (hseen.intact q hmem)).1 hlisted
    have hmatch : r ∈ (l.listing env).matching q.1.db :=
      List.mem_filter.2 ⟨hr, by rw [hrow]; exact hshows⟩
    obtain ⟨r', hr', hident⟩ := hlossless.complete hend (q.1.db, q.2)
      (by rw [List.head?_map, hq]; rfl) r hmatch
    -- a row under this hash is the one of the chain, whenever it was shown
    obtain ⟨q', hq', hstored⟩ := hseen.shown hlossless hr'
    have hhash : r'.toTxRow.hash = (chain.row ienv k i tx).hash :=
      hident.trans (congrArg Indexer.TxRow.hash hrow)
    exact ⟨r', hr', (hseen.mirror q' hq').rows.eq_row hc hstored hhash⟩

end Runs

/-! ## Two pages -/

def txsWire : List (TxsCursor × List UInt8 × String) :=
  [(⟨1, 0⟩, [123, 34, 115, 108, 111, 116, 34, 58, 49, 44, 34, 105, 100, 120, 34, 58, 48, 125],
    "eyJzbG90IjoxLCJpZHgiOjB9"),
   (⟨1, 1⟩, [123, 34, 115, 108, 111, 116, 34, 58, 49, 44, 34, 105, 100, 120, 34, 58, 49, 125],
    "eyJzbG90IjoxLCJpZHgiOjF9")]

/-- Cursors of transactions. -/
def ledgerEnv : Env :=
  { sampleEnv with base64 := wireBase64 (txsWire.map Prod.snd), txs := wireJson txsWire }

/-- Between the two requests the process dies. -/
def readAfterRewalk : List (Option Event) := rewalkRun.map some ++ [none, some .crash, none]

theorem readsBack_txs {c : TxsCursor} (h : c ∈ txsWire.map Prod.fst) :
    ReadsBack ledgerEnv.base64 ledgerEnv.txs c := by
  simp only [txsWire, List.map_cons, List.map_nil, List.mem_cons, List.not_mem_nil, or_false] at h
  rcases h with rfl | rfl
  · exact ⟨⟨_, rfl, by decide⟩, fun bytes hb => by cases hb; decide⟩
  · exact ⟨⟨_, rfl, by decide⟩, fun bytes hb => by cases hb; decide⟩

theorem ledger_walk_two_pages :
    ∃ s m₁ m₂, exec (observe (step registryEnv) id) (.init, []) readAfterRewalk =
        some (s, [m₁, m₂]) ∧
      (follow (TxList.respond ledgerEnv (.all none none)) none
        [(m₁.db, some 1), (m₂.db, none)]).map (fun p => p.data.map fun r => r.hash) =
          [["0xbb"], ["0xaa"]] ∧
      ShowsLedger registryEnv ledgerEnv registryChain (.all none none) (some m₁)
        (follow (TxList.respond ledgerEnv (.all none none)) none
          [(m₁.db, some 1), (m₂.db, none)]) := by
  obtain ⟨s, m₁, m₂, hrun, h₁, h₂, hpages⟩ : ∃ s m₁ m₂,
      exec (observe (step registryEnv) id) (.init, []) readAfterRewalk = some (s, [m₁, m₂]) ∧
      (txRows m₁.db).map txRowCursor = txsWire.map Prod.fst ∧
      (txRows m₂.db).map txRowCursor = txsWire.map Prod.fst ∧
      (follow (TxList.respond ledgerEnv (.all none none)) none
        [(m₁.db, some 1), (m₂.db, none)]).map (fun p => p.data.map fun r => r.hash) =
          [["0xbb"], ["0xaa"]] :=
    ⟨_, _, _, rfl, by decide, by decide, by decide⟩
  have hhonest : Along (step registryEnv) (Honest registryChain) .init
      readAfterRewalk.reduceOption := by
    obtain ⟨m, hm⟩ : ∃ m, exec (step registryEnv) .init rewalkRun = some m := ⟨_, rfl⟩
    have hall : Along (step registryEnv) (Honest registryChain) .init (rewalkRun ++ [.crash]) :=
      (along_append hm).2 ⟨honest_rewalkRun, trivial, fun _ _ => trivial⟩
    exact hall
  have hshows := (@ledger_walk registryEnv ledgerEnv registryChain (.all none none) s _
    [(m₁, some 1), (m₂, none)] hrun hhonest ?_).2
  · exact ⟨s, m₁, m₂, hrun, hpages, hshows⟩
  · intro q hq r hr
    have hcursor : txRowCursor r ∈ (txRows q.1.db).map txRowCursor :=
      List.mem_map_of_mem (List.mem_filter.1 hr).1
    rcases List.mem_pair.1 hq with rfl | rfl
    · exact readsBack_txs (h₁ ▸ hcursor)
    · exact readsBack_txs (h₂ ▸ hcursor)

end LigateApi.Api
