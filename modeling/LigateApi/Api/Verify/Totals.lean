import LigateApi.Api.Totals
import LigateApi.Indexer.Verify.Rewalk

/-!
# Totals while the indexer writes

Each of the eight queries finds the tables as they are at its own moment, and the indexer goes on
writing in between. The tables only grow (`Grows`), so a count that is read late may exceed one that
is read early, never the other way around. The slots are counted first and their highest number is
read last, which keeps the number of blocks below the tip. The transactions are counted before the
committed ones among them, so the part exceeds the whole as soon as enough committed rows come in
between the two queries.
-/

namespace LigateApi.Api.Stats

open Queries Indexer Lib Lib.Run

/-! ## Growing tables -/

/-- Rows are only added: the heights and the outcomes that were there are there still. -/
structure Grows (db db' : Db) : Prop where
  slots : db.slots.map SlotRow.height <+: db'.slots.map SlotRow.height
  transactions :
    db.transactions.map Indexer.TxRow.outcome <+: db'.transactions.map Indexer.TxRow.outcome

theorem Grows.refl (db : Db) : Grows db db := ⟨List.prefix_rfl, List.prefix_rfl⟩

theorem Grows.trans {a b c : Db} (h : Grows a b) (h' : Grows b c) : Grows a c :=
  ⟨h.slots.trans h'.slots, h.transactions.trans h'.transactions⟩

/-- A writer of the tables, as it looks from a reader. -/
structure Ingest where
  State : Type
  Event : Type
  step : State → Event → Option State
  db : State → Db
  Inv : State → Prop
  keeps : ∀ s e s', Inv s → step s e = some s' → Inv s'
  grows : ∀ s e s', Inv s → step s e = some s' → Grows (db s) (db s')
  /-- `height` is the primary key of `slots`. -/
  unique : ∀ s, Inv s → ((db s).slots.map SlotRow.height).Nodup

/-! ## The two pairs of queries -/

/-- The rows that were not committed. -/
def countUncommitted (db : Db) : Nat := db.transactions.countP fun r => !isCommitted r

/-- The committed rows that `db'` has on top of `db`. -/
def newCommitted (db db' : Db) : Nat :=
  (db'.transactions.drop db.transactions.length).countP isCommitted

section Pairs

variable {db db' : Db}

theorem countP_isCommitted (rows : List Indexer.TxRow) :
    rows.countP isCommitted = (rows.map Indexer.TxRow.outcome).countP fun o => o = "committed" := by
  rw [List.countP_map]
  rfl

theorem countCommitted_grows (h : Grows db db') :
    countCommitted db' = countCommitted db + newCommitted db db' := by
  obtain ⟨new, hnew⟩ := h.transactions
  have hdrop : (db'.transactions.drop db.transactions.length).map Indexer.TxRow.outcome = new := by
    rw [List.map_drop, ← hnew]
    exact List.drop_left' (List.length_map _)
  rw [newCommitted, countCommitted, countCommitted, countP_isCommitted, countP_isCommitted,
    countP_isCommitted, hdrop, ← hnew, List.countP_append]

/-- All rows counted in one state, the committed ones in a later one. -/
theorem committed_le_total_iff (h : Grows db db') :
    countCommitted db' ≤ db.transactions.length ↔ newCommitted db db' ≤ countUncommitted db := by
  have htotal : db.transactions.length = countCommitted db + countUncommitted db := by
    rw [List.length_eq_countP_add_countP isCommitted]
    simp only [countCommitted, countUncommitted, Bool.not_eq_true, Bool.decide_eq_false]
  rw [countCommitted_grows h, htotal]
  omega

theorem le_maxHeight {tip : Int} {r : SlotRow} (h : maxHeight db = some tip) (hr : r ∈ db.slots) :
    slotKey r ≤ tip :=
  (List.max?_eq_some_iff.1 h).2 _ (List.mem_map_of_mem hr)

/-- There are no more slots than numbers from 0 up to the tip. -/
theorem slots_le_tip (hunique : (db.slots.map SlotRow.height).Nodup)
    (hpos : ∀ r ∈ db.slots, 0 ≤ r.height.toInt) :
    (db.slots.length : Int) ≤ (maxHeight db).getD 0 + 1 := by
  cases htip : maxHeight db with
  | none =>
    have hnil : db.slots = [] := by
      rw [maxHeight, List.max?_eq_none_iff] at htip
      exact List.map_eq_nil_iff.1 htip
    rw [hnil]
    decide
  | some tip =>
    have hkeys : (db.slots.map slotKey).Nodup := by
      have hmap : db.slots.map slotKey = (db.slots.map SlotRow.height).map Int64.toInt := by
        rw [List.map_map]
        rfl
      rw [hmap]
      exact hunique.map fun _ _ => Int64.toInt_inj.1
    have hrange : ∀ r ∈ db.slots, slotKey r ∈ (List.range (tip + 1).toNat).map Int.ofNat := by
      intro r hr
      have hlow := hpos r hr
      have hhigh := le_maxHeight htip hr
      unfold slotKey at hhigh ⊢
      refine List.mem_map.2 ⟨r.height.toInt.toNat, List.mem_range.2 ?_, ?_⟩
      · omega
      · exact Int.toNat_of_nonneg hlow
    have htip0 : 0 ≤ tip := by
      obtain ⟨r, hr, rfl⟩ := List.mem_map.1 (List.max?_eq_some_iff.1 htip).1
      exact hpos r hr
    have hle := Table.length_le_of_keys hkeys hrange
    rw [List.length_map, List.length_range] at hle
    rw [Option.getD_some]
    omega

/-- The slots counted in one state, the tip read in a later one. -/
theorem blocks_le_tip (h : Grows db db') (hunique : (db'.slots.map SlotRow.height).Nodup)
    (hpos : ∀ r ∈ db'.slots, 0 ≤ r.height.toInt) :
    (db.slots.length : Int) ≤ (maxHeight db').getD 0 + 1 := by
  have hle := h.slots.length_le
  rw [List.length_map, List.length_map] at hle
  have htip := slots_le_tip hunique hpos
  omega

end Pairs

/-! ## The indexer -/

/-- One row per height, and every transaction of the table committed. -/
structure Ingested (db : Db) : Prop where
  unique : (db.slots.map SlotRow.height).Nodup
  committed : ∀ r ∈ db.transactions, r.outcome = "committed"

section Indexer

variable {env : Indexer.Env} {faults : TxStmt → Fault} {client : Indexer.NodeClient} {w : TxWork}
  {s : IndexerState} {e : Event} {db : Db}

theorem grows_processTx (h : Ingested db) : Grows db (processTx env faults client w db).db where
  slots := by rw [slots_processTx]
  transactions := by
    rcases transactions_cases env faults client w db with ht | ⟨-, ht⟩
    · rw [ht]
    · rw [ht]
      -- a row that is there is rewritten with the outcome it has
      apply Table.map_prefix_upsert
      intro r hr _
      exact (h.committed r hr).symm

theorem heights_flipPendingSlot {height : UInt64} {now : Int} :
    (flipPendingSlot height now db).slots.map SlotRow.height = db.slots.map SlotRow.height := by
  apply Table.map_update
  intro r _ _
  split <;> rfl

theorem grows_of_dbStep (h : DbStep env s e db) (hs : Ingested s.db) : Grows s.db db := by
  cases h with
  | same => exact Grows.refl _
  | upsertSlot hw ha => exact ⟨Table.map_prefix_upsert fun _ _ _ => rfl, List.prefix_rfl⟩
  | processTx hw => exact grows_processTx hs
  | cursor hw => exact ⟨List.prefix_rfl, List.prefix_rfl⟩
  | flip => exact ⟨heights_flipPendingSlot ▸ List.prefix_rfl, List.prefix_rfl⟩

theorem ingested_of_dbStep (h : DbStep env s e db) (hs : Ingested s.db) : Ingested db := by
  cases h with
  | same => exact hs
  | upsertSlot hw ha => exact ⟨Table.nodup_upsert (fun _ => rfl) hs.unique, hs.committed⟩
  | processTx hw =>
    refine ⟨?_, fun r hr => ?_⟩
    · rw [slots_processTx]
      exact hs.unique
    · rcases outcome_processTx hr with hr | hr
      · exact hs.committed r hr
      · exact hr
  | cursor hw => exact ⟨hs.unique, hs.committed⟩
  | flip =>
    refine ⟨?_, hs.committed⟩
    rw [heights_flipPendingSlot]
    exact hs.unique

/-- The indexer leaves no room: every row it adds is committed, and so is every row before. -/
theorem newCommitted_le_iff_of_ingested {db' : Db} (h : Ingested db) (h' : Ingested db')
    (hgrows : Grows db db') :
    newCommitted db db' ≤ countUncommitted db ↔
      db'.transactions.length = db.transactions.length := by
  have hnone : countUncommitted db = 0 := by
    refine List.countP_eq_zero.2 fun r hr => ?_
    simp [isCommitted, h.committed r hr]
  have hall : newCommitted db db' = db'.transactions.length - db.transactions.length := by
    rw [newCommitted, ← List.length_drop]
    refine List.countP_eq_length.2 fun r hr => ?_
    simp [isCommitted, h'.committed r (List.mem_of_mem_drop hr)]
  have hle := hgrows.transactions.length_le
  rw [List.length_map, List.length_map] at hle
  omega

end Indexer

/-- The indexer as a writer. -/
def indexerIngest (env : Indexer.Env) : Ingest where
  State := IndexerState
  Event := Event
  step := step env
  db := IndexerState.db
  Inv s := Ingested s.db
  keeps _ _ _ hs h := ingested_of_dbStep (step_db h) hs
  grows _ _ _ hs h := grows_of_dbStep (step_db h) hs
  unique _ h := h.unique

/-! ## A request among the writes -/

/-- What the answer says of itself: the committed transactions are some of the transactions, and
the blocks are no more than the slots up to the tip. -/
def Consistent (response : TotalsResponse) : Prop :=
  response.txsCommitted ≤ response.txsTotal ∧
    (response.blocks : Int) ≤ response.indexedAtSlot + 1

instance (response : TotalsResponse) : Decidable (Consistent response) :=
  inferInstanceAs (Decidable (_ ∧ _))

/-- A query that succeeds finds the tables of its own moment. -/
def Finds (pool : Fin 8 → PgPool) (seen : List Db) : Prop :=
  ∀ i db, pool i = .ok db → seen[(i : Nat)]? = some db

section Request

variable {w : Ingest} {s₀ s : w.State} {es : List (Option w.Event)} {seen : List Db}

/-- The reads of a request are ordered, and the state it ends in is ahead of all of them. -/
theorem Ingest.reads (h₀ : w.Inv s₀)
    (hrun : exec (observe w.step w.db) (s₀, []) es = some (s, seen)) :
    w.Inv s ∧ (seen ++ [w.db s]).Pairwise Grows :=
  observe_pairwise Grows.refl (fun _ _ _ => Grows.trans) w.keeps w.grows h₀ hrun

theorem Ingest.heights (h₀ : w.Inv s₀)
    (hrun : exec (observe w.step w.db) (s₀, []) es = some (s, seen)) {db : Db} (hdb : db ∈ seen) :
    (db.slots.map SlotRow.height).Nodup ∧
      ((∀ r ∈ (w.db s).slots, 0 ≤ r.height.toInt) → ∀ r ∈ db.slots, 0 ≤ r.height.toInt) := by
  obtain ⟨hinv, hreads⟩ := Ingest.reads h₀ hrun
  have hgrows : Grows db (w.db s) :=
    (List.pairwise_append.1 hreads).2.2 db hdb _ (List.mem_singleton.2 rfl)
  refine ⟨(w.unique s hinv).sublist hgrows.slots.sublist, fun hpos r hr => ?_⟩
  obtain ⟨r', hr', heq⟩ := List.mem_map.1 (hgrows.slots.subset (List.mem_map_of_mem hr))
  rw [← heq]
  exact hpos r' hr'

variable {pool : Fin 8 → PgPool} {queryTotalSupply : Except String Nat}
  {avowTreasuryAddr : Option String} {queryBalanceFor : String → Except String Nat}
  {response : TotalsResponse}

/-- **Totals beside a writer.** Whatever is written between the queries, the answer is consistent
exactly if the committed rows added between the second and the third are no more than the other rows
the second has counted. -/
theorem totals_consistent_iff (h₀ : w.Inv s₀)
    (hrun : exec (observe w.step w.db) (s₀, []) es = some (s, seen))
    (hpos : ∀ r ∈ (w.db s).slots, 0 ≤ r.height.toInt) (hfinds : Finds pool seen)
    (hok : computeTotals pool queryTotalSupply avowTreasuryAddr queryBalanceFor = .ok response)
    {d₁ d₂ : Db} (hd₁ : seen[1]? = some d₁) (hd₂ : seen[2]? = some d₂) :
    Consistent response ↔ newCommitted d₁ d₂ ≤ countUncommitted d₁ := by
  obtain ⟨snapshot, hpool, rfl⟩ := computeTotals_eq_ok hok
  have hseen : ∀ i : Fin 8, seen[(i : Nat)]? = some (snapshot i) := fun i => hfinds i _ (hpool i)
  obtain ⟨-, hreads⟩ := Ingest.reads h₀ hrun
  obtain rfl : snapshot 1 = d₁ := Option.some.inj ((hseen 1).symm.trans hd₁)
  obtain rfl : snapshot 2 = d₂ := Option.some.inj ((hseen 2).symm.trans hd₂)
  have htxs : Grows (snapshot 1) (snapshot 2) :=
    reads_related hreads (by decide) (hseen 1) (hseen 2)
  have hslots : Grows (snapshot 0) (snapshot 7) :=
    reads_related hreads (by decide) (hseen 0) (hseen 7)
  obtain ⟨hunique, hheights⟩ := Ingest.heights h₀ hrun (List.mem_of_getElem? (hseen 7))
  have hblocks := blocks_le_tip hslots hunique (hheights hpos)
  unfold Consistent
  dsimp only
  rw [committed_le_total_iff htxs]
  exact and_iff_left hblocks

end Request

/-! ## A slot that comes in during the request -/

/-- What eight successful queries find. -/
def poolOf (seen : List Db) (i : Fin 8) : PgPool :=
  match seen[(i : Nat)]? with
  | some db => .ok db
  | none => .error ⟨"no answer"⟩

theorem finds_poolOf (seen : List Db) : Finds (poolOf seen) seen := by
  intro i db h
  unfold poolOf at h
  split at h
  · rename_i found hfound
    cases h
    exact hfound
  · cases h

/-- The indexer up to the first transaction of the slot. -/
def reachSlot (c : ChainSlot) : List Event :=
  [.start (some c.slot.number) true, .head (some c.slot.number), .slotAt (.ok (some c.slot)),
    .upsertSlot (nodeOf c []) 0 true .ok, .walkSlot (nodeOf c [])]

/-- The request starts before the first transaction, which comes in after `early` queries. -/
def requestDuring (c : ChainSlot) (early : Nat) : List (Option Event) :=
  (reachSlot c).map some ++ List.replicate early none ++
    [some (.processTx (nodeOf c []) noFaults)] ++ List.replicate (8 - early) none

/-- The request runs beside the indexer, and gets this answer. -/
def Answered (es : List (Option Event)) (response : TotalsResponse) : Prop :=
  ∃ s seen, exec (observe (step plainEnv) IndexerState.db) (IndexerState.init, []) es =
      some (s, seen) ∧
    computeTotals (poolOf seen) (.ok 1000) none (fun _ => .error "no treasury") = .ok response

/-- A committed transaction comes in between the two counts: the answer is one of none. -/
theorem totals_one_committed_of_none :
    ∃ response, Answered (requestDuring committedSlot 2) response ∧
      response.txsTotal = 0 ∧ response.txsCommitted = 1 ∧ ¬ Consistent response :=
  ⟨_, ⟨_, _, rfl, rfl⟩, by decide, by decide, by decide⟩

/-- It comes in before both of them. -/
theorem totals_consistent_one_of_one :
    ∃ response, Answered (requestDuring committedSlot 1) response ∧
      response.txsTotal = 1 ∧ response.txsCommitted = 1 ∧ Consistent response := by
  refine ⟨_, ⟨_, _, rfl, rfl⟩, by decide, by decide, ?_⟩
  have hinit : (indexerIngest plainEnv).Inv IndexerState.init :=
    ⟨List.nodup_nil, List.forall_mem_nil _⟩
  have hrun : exec (observe (step plainEnv) IndexerState.db) (IndexerState.init, [])
      (requestDuring committedSlot 1) = some (_, _) := rfl
  refine (totals_consistent_iff hinit hrun ?_ (finds_poolOf _) rfl rfl rfl).2 ?_
  · decide
  · decide

end LigateApi.Api.Stats
