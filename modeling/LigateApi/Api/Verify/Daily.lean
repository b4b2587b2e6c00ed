import LigateApi.Api.Daily
import LigateApi.Indexer.Verify.Intact

/-!
# The daily series share the rows out

Each point of a series stands for the rows of its group, each row from the start of the window on is
in one group, and the numbers add up to the rows (`Buckets.Splits`). For the transactions this rests
on the constraints of the schema: a transaction's slot has a row, and only one, so the join neither
drops a transaction nor counts it twice, in every state that a run reaches (`daily_series_split`).
-/

namespace LigateApi.Api.Stats

open Lib Lib.Run Queries Buckets
open Indexer hiding TxRow SchemaRow Env

/-! ## Series of one column -/

section Column

variable {format : Int → String} {db : Db} {days : UInt32} {now : Int}

/-- A series over the instants of some rows. -/
theorem splits_daily {R : Type} {context : String} {stamps : Db → List Int} {rows : List R}
    {stamp : R → Int} (hstamps : stamps db = rows.map stamp) :
    ∃ groups, computeDaily context stamps format (.ok db) days now =
        .ok { days, points := groups.map fun g => { date := format g.1, count := g.2 } } ∧
      (groups.map Prod.fst).Pairwise (· < ·) ∧
      Splits (fun r => dayOf (stamp r)) (rows.filter fun r => windowStart now days ≤ stamp r)
        groups := by
  refine ⟨_, rfl, ?_, ?_⟩
  · rw [groupCount, List.map_map]
    have hfst : ∀ ks : List Int, ∀ f : Int → Nat, ks.map (Prod.fst ∘ fun k => (k, f k)) = ks :=
      fun ks f => List.map_id ks
    rw [hfst]
    exact pairwise_ascending _
  · rw [hstamps, List.filter_map]
    exact splits_groupCount.of_map

end Column

/-! ## Transactions -/

section Rate

variable {postgres : Postgres} {format : Int → String} {db : Db} {since now : Int}

/-- The instant of the slot of a transaction. -/
def slotStamp (db : Db) (t : Indexer.TxRow) : Int :=
  ((Table.lookup SlotRow.height t.slot db.slots).map fun s => 1000 * s.timestamp).getD 0

/-- A transaction with the instant of its slot. -/
def rateRow (db : Db) (t : Indexer.TxRow) : RateRow :=
  { stamp := slotStamp db t, kind := t.kind, outcome := t.outcome }

/-- Every transaction is joined with its slot, once. -/
theorem rateRows_eq (hdb : Intact db) : rateRows db = db.transactions.map (rateRow db) := by
  rw [rateRows, Table.join_eq_filterMap hdb.slots, List.filterMap_eq_map_iff_forall_eq_some]
  intro t ht
  obtain ⟨s, hs, hheight⟩ := (hdb.transactions.rows t ht).slot
  have hl : Table.lookup SlotRow.height t.slot db.slots = some s :=
    (Table.lookup_eq_some_iff hdb.slots).2 ⟨hs, hheight⟩
  simp only [rateRow, slotStamp, hl, Option.map_some, Option.getD_some]

/-- The groups are those of the transactions since then. -/
theorem splits_rate (hdb : Intact db) :
    Splits (fun t => (rateRow db t).group)
      (db.transactions.filter fun t => since ≤ slotStamp db t) (rateGroups postgres since db) := by
  have hsplits : ∀ rows : List RateRow, Splits RateRow.group rows
      (((rows.map RateRow.group).dedup.map fun g =>
        (g, rows.countP fun r => r.group = g)).insertionSort
          fun a b => a.1.order postgres ≤ b.1.order postgres) :=
    fun rows => (splits_of_keys (List.Perm.refl _)).perm (List.perm_insertionSort _ _)
  rw [rateGroups, rateRows_eq hdb, List.filter_map]
  exact (hsplits _).of_map

theorem order_injective : Function.Injective (RateGroup.order postgres) := by
  intro g g' h
  have h := toLex.injective h
  simp only [Prod.mk.injEq] at h
  obtain ⟨hday, hrest⟩ := h
  have hrest := toLex.injective hrest
  simp only [Prod.mk.injEq] at hrest
  cases g
  cases g'
  simp only [RateGroup.mk.injEq]
  exact ⟨hday, postgres.collation.injective hrest.1, postgres.collation.injective hrest.2⟩

/-- The groups are in strict order. -/
theorem pairwise_rateGroups : (rateGroups postgres since db).Pairwise fun a b =>
    a.1.order postgres < b.1.order postgres := by
  have htrans : IsTrans (RateGroup × Nat) fun a b => a.1.order postgres ≤ b.1.order postgres :=
    ⟨fun _ _ _ hab hbc => hab.trans hbc⟩
  have htotal : Std.Total fun a b : RateGroup × Nat => a.1.order postgres ≤ b.1.order postgres :=
    ⟨fun a b => le_total _ _⟩
  have hle := List.pairwise_insertionSort
    (fun a b : RateGroup × Nat => a.1.order postgres ≤ b.1.order postgres)
  have hne : (rateGroups postgres since db).Pairwise fun a b => a.1 ≠ b.1 := by
    have hperm := List.perm_insertionSort
      (fun a b : RateGroup × Nat => a.1.order postgres ≤ b.1.order postgres)
    refine List.pairwise_map.1 (((hperm _).map Prod.fst).nodup_iff.2 ?_)
    rw [List.map_map]
    exact (List.nodup_dedup _).map_on fun a _ b _ hab => hab
  exact ((hle _).and hne).imp fun h => lt_of_le_of_ne h.1 fun he => h.2 (order_injective he)

/-- **The series share the rows out**, in every state a run reaches. -/
theorem daily_series_split {ienv : Indexer.Env} {es : List Event} {s : IndexerState}
    {days : UInt32} (hrun : exec (step ienv) .init es = some s) :
    (∃ groups, computeNewWalletsDaily format (.ok s.db) days now =
        .ok { days, points := groups.map fun g => { date := format g.1, count := g.2 } } ∧
      (groups.map Prod.fst).Pairwise (· < ·) ∧
      Splits (fun t => dayOf t) ((firstSeenStamps s.db).filter fun t => windowStart now days ≤ t)
        groups) ∧
    (∃ groups, computeAttestationsDaily format (.ok s.db) days now =
        .ok { days, points := groups.map fun g => { date := format g.1, count := g.2 } } ∧
      (groups.map Prod.fst).Pairwise (· < ·) ∧
      Splits (fun r => dayOf (1000 * r.submittedAtTimestamp))
        (s.db.attestations.filter fun r => windowStart now days ≤ 1000 * r.submittedAtTimestamp)
        groups) ∧
    ∃ groups, computeTxRateDaily postgres format (.ok s.db) days now =
        .ok { days, points := groups.map fun g =>
          { date := format g.1.day, kind := g.1.kind, outcome := g.1.outcome, count := g.2 } } ∧
      (groups.Pairwise fun a b => a.1.order postgres < b.1.order postgres) ∧
      Splits (fun t => (rateRow s.db t).group)
        (s.db.transactions.filter fun t => windowStart now days ≤ slotStamp s.db t) groups ∧
      ∀ g ∈ groups, g.1.outcome = "committed" := by
  have hdb : Intact s.db := (written_run hrun).intact intact_empty
  refine ⟨splits_daily (List.map_id _).symm, splits_daily rfl,
    rateGroups postgres (windowStart now days) s.db, rfl, pairwise_rateGroups, splits_rate hdb, ?_⟩
  intro g hg
  obtain ⟨hcount, hpos⟩ := (splits_rate hdb).counts g hg
  rw [hcount, List.countP_pos_iff] at hpos
  obtain ⟨t, ht, hgroup⟩ := hpos
  have hout : t.outcome = "committed" := (hdb.transactions.rows t (List.mem_filter.1 ht).1).committed
  rw [← of_decide_eq_true hgroup]
  exact hout

end Rate

/-! ## A slot walked twice -/

/-- Texts in the order of their characters. -/
def plainPostgres : Postgres where
  collation := ⟨String, inferInstance, id, Function.injective_id⟩
  jsonbText _ := ""

/-- Both transactions of the slot are counted, and once. -/
theorem daily_series_split_rewalked : ∃ s, ∃ groups : List (RateGroup × Nat),
    exec (step registryEnv) .init rewalkRun = some s ∧
      computeTxRateDaily plainPostgres toString (.ok s.db) 7 0 = .ok {
        days := 7
        points := groups.map fun g => {
          date := toString g.1.day, kind := g.1.kind, outcome := g.1.outcome, count := g.2 } } ∧
      (groups.map Prod.snd).sum = 2 := by
  have hrows : (exec (step registryEnv) .init rewalkRun).map (fun s =>
      (s.db.transactions.filter fun t => windowStart 0 7 ≤ slotStamp s.db t).length) = some 2 := by
    decide
  obtain ⟨s, hs, hlen⟩ := Option.map_eq_some_iff.1 hrows
  obtain ⟨-, -, groups, hcompute, -, hsplits, -⟩ :=
    @daily_series_split plainPostgres toString 0 registryEnv rewalkRun s 7 hs
  exact ⟨s, groups, hs, hcompute, hsplits.total.trans hlen⟩

end LigateApi.Api.Stats
