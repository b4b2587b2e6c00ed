import LigateApi.Indexer.Verify.Walk

/-!
# Completeness of the transaction ingest

A slot served in full is ingested completely (`Complete`) exactly if none of its transactions was
reverted, there are at most `2 ^ 31` of them, and no stored row under one of their hashes carries a
revert reason: the row of a reverted transaction has no revert reason, which a CHECK of the table
requires, so it is refused and only logged.
-/

namespace LigateApi.Indexer

open Lib

/-- The applied transactions of the slot. -/
def ChainSlot.applied (c : ChainSlot) : List LedgerTx := c.txs.filter LedgerTx.applied

/-- The rows of the slot, as hash, position and outcome. -/
def slotOutcomes (n : UInt64) (db : Db) : List (String × Int × Option String) :=
  (db.transactions.filter fun r => r.slot = n.toInt64).map
    fun r => (r.hash, r.position.toInt, some r.outcome)

/-- One row for each applied transaction, at its place and with its outcome, and besides them the
rows of other transactions as they were. -/
def Complete (c : ChainSlot) (before after : Db) : Prop :=
  (slotOutcomes c.slot.number after).Perm
      (c.applied.mapIdx fun i tx => (tx.hash, (i : Int), outcomeText (outcomeOf tx.result))) ∧
    (after.transactions.filter fun r => r.slot ≠ c.slot.number.toInt64).Perm
      (before.transactions.filter fun r => ∀ tx ∈ c.applied, r.hash ≠ tx.hash)

/-- The slot is stored and has no rows yet; `hash` is the primary key. -/
structure Fresh (c : ChainSlot) (db : Db) : Prop where
  stored : db.hasSlot c.slot.number.toInt64
  slot : ∀ r ∈ db.transactions, r.slot ≠ c.slot.number.toInt64
  unique : (db.transactions.map TxRow.hash).Nodup

section Outcome

variable {env : Env} {client : NodeClient}

theorem outcome_processTx {faults : TxStmt → Fault} {w : TxWork} {db : Db} {r : TxRow}
    (h : r ∈ (processTx env faults client w db).db.transactions) :
    r ∈ db.transactions ∨ r.outcome = "committed" := by
  rcases transactions_cases env faults client w db with ht | ⟨-, ht⟩
  · rw [ht] at h
    exact .inl h
  · rw [ht] at h
    rcases Table.mem_upsert h with h | rfl | ⟨old, -, -, rfl⟩
    · exact .inl h.1
    · exact .inr rfl
    · exact .inr rfl

/-- Every row a pass writes says `committed`. -/
theorem outcome_writeAll {ws : List TxWork} {db : Db} {r : TxRow}
    (h : r ∈ (writeAll env client ws db).transactions) :
    r ∈ db.transactions ∨ r.outcome = "committed" := by
  induction ws generalizing db with
  | nil => exact .inl h
  | cons w ws ih =>
    rcases ih h with h | h
    · exact outcome_processTx h
    · exact .inr h

end Outcome

section Complete

variable {env : Env} {client : NodeClient} {c : ChainSlot} {db : Db}

theorem applied_iff {tx : LedgerTx} :
    tx.applied = true ↔ tx.result = "successful" ∨ tx.result = "reverted" := by
  rw [← outcomeOf_eq_committed, ← outcomeOf_eq_reverted]
  unfold LedgerTx.applied
  cases outcomeOf tx.result <;> decide

theorem ingest_eq_writeAll (hs : Serves client c) :
    (ingestSlotTransactions env client c.slot db).1 =
      writeAll env client (c.applied.mapIdx (mkWork env c.slot c.events)) db := by
  unfold ingestSlotTransactions writeAll ChainSlot.applied
  rw [slotWork_eq hs.events, hs.servedTxs]

theorem slotOutcomes_eq (n : UInt64) (db : Db) :
    slotOutcomes n db = (slotRows n db).map fun a => (a.1, a.2.2.1.toInt, some a.2.2.2.2.2) := by
  rw [slotOutcomes, slotRows, List.map_map]
  rfl

section Committed

variable (hs : Serves client c) (hf : Fresh c db) (hn : (c.txs.map LedgerTx.hash).Nodup)
  (hc : ∀ tx ∈ c.txs, tx.result ≠ "reverted")

include hn hc in
theorem plain_applied : Plain c.slot.number (c.applied.mapIdx (mkWork env c.slot c.events)) := by
  have hsub : c.applied.Sublist c.txs := List.filter_sublist
  refine plain_mapIdx (fun tx htx => ?_) ((hsub.map LedgerTx.hash).nodup hn)
  obtain ⟨hmem, happlied⟩ := List.mem_filter.1 htx
  exact (applied_iff.1 happlied).resolve_right (hc tx hmem)

include hs hf hn hc in
/-- The table after a pass over a slot of committed transactions. -/
theorem placed_ingest (hu : ∀ tx ∈ c.applied, Unreverted db.transactions tx.hash) :
    Placed db.transactions (ingestSlotTransactions env client c.slot db).1.transactions
      (kept (c.applied.mapIdx (mkWork env c.slot c.events))) := by
  have hplain : Plain c.slot.number ([] ++ c.applied.mapIdx (mkWork env c.slot c.events)) :=
    plain_applied hn hc
  rw [ingest_eq_writeAll hs]
  refine pass_from hplain hf.stored hf.slot (fun w hw => ?_) (placed_nil hf.unique)
  obtain ⟨i, -, hi⟩ := mem_kept.1 hw
  obtain ⟨j, hj, rfl⟩ := List.mem_mapIdx.1 (List.mem_of_getElem? hi)
  exact hu _ (List.getElem_mem hj)

include hs hf hn hc in
theorem complete_of_committed (hlen : c.applied.length ≤ 2 ^ 31)
    (hu : ∀ tx ∈ c.applied, Unreverted db.transactions tx.hash) :
    Complete c db (ingestSlotTransactions env client c.slot db).1 := by
  have hplain : Plain c.slot.number (c.applied.mapIdx (mkWork env c.slot c.events)) :=
    plain_applied hn hc
  have hkept : kept (c.applied.mapIdx (mkWork env c.slot c.events)) =
      c.applied.mapIdx (mkWork env c.slot c.events) := by
    rw [kept, List.take_of_length_le]
    rw [List.length_mapIdx]
    omega
  have hafter : Placed db.transactions
      (ingestSlotTransactions env client c.slot db).1.transactions _ :=
    placed_ingest hs hf hn hc hu
  rw [hkept] at hafter
  constructor
  · rw [slotOutcomes_eq]
    refine ((hafter.slotRows_perm hf.slot hplain.slot hplain.hashes).map _).trans
      (List.Perm.of_eq (List.ext_getElem? fun i => ?_))
    rw [List.getElem?_map, List.getElem?_map, List.getElem?_mapIdx, List.getElem?_mapIdx]
    cases htx : c.applied[i]? with
    | none => rfl
    | some tx =>
      have hi : i < 2 ^ 31 := (List.getElem?_eq_some_iff.1 htx).1.trans_le hlen
      obtain ⟨hmem, happlied⟩ := List.mem_filter.1 (List.mem_of_getElem? htx)
      have hout : outcomeOf tx.result = .committed :=
        outcomeOf_eq_committed.2 ((applied_iff.1 happlied).resolve_right (hc tx hmem))
      simp only [Option.map_some, hout, outcomeText]
      rw [TxWork.row, TxRow.onChain, txRow, mkWork, Int32.toInt_ofNat_of_lt hi]
  · have hwork : ∀ r : TxRow, (∀ w ∈ c.applied.mapIdx (mkWork env c.slot c.events),
        r.hash ≠ w.hash) ↔ ∀ tx ∈ c.applied, r.hash ≠ tx.hash := by
      intro r
      constructor
      · intro h tx htx
        obtain ⟨i, hi⟩ := List.getElem?_of_mem htx
        refine h (mkWork env c.slot c.events i tx) (List.mem_of_getElem? (i := i) ?_)
        rw [List.getElem?_mapIdx, hi]
        rfl
      · intro h w hw
        obtain ⟨i, hi, rfl⟩ := List.mem_mapIdx.1 hw
        exact h _ (List.getElem_mem hi)
    rw [List.perm_ext_iff_of_nodup (hafter.nodup.of_map.filter _) (hf.unique.of_map.filter _)]
    intro r
    simp only [List.mem_filter, decide_eq_true_eq]
    constructor
    · rintro ⟨hr, hslot⟩
      rcases hafter.mem hr with ⟨w, hw, hrow, -⟩ | ⟨hne, hr⟩
      · exact absurd ((slot_of_onChain hrow).trans (slot_row (hplain.slot w hw))) hslot
      · exact ⟨hr, (hwork r).1 hne⟩
    · rintro ⟨hr, hne⟩
      exact ⟨(hafter.other r ((hwork r).2 hne)).2 hr, hf.slot r hr⟩

end Committed

/-- A complete ingest has met no reverted transaction, no position past the column's range and no
stored revert reason. -/
theorem committed_of_complete (hs : Serves client c) (hf : Fresh c db)
    (h : Complete c db (ingestSlotTransactions env client c.slot db).1) :
    (∀ tx ∈ c.txs, tx.result ≠ "reverted") ∧ c.applied.length ≤ 2 ^ 31 ∧
      ∀ tx ∈ c.applied, Unreverted db.transactions tx.hash := by
  have hrow : ∀ (i : Nat) (tx : LedgerTx), c.applied[i]? = some tx → ∃ r ∈
      (ingestSlotTransactions env client c.slot db).1.transactions,
      r.slot = c.slot.number.toInt64 ∧ r.position.toInt = i ∧
        some r.outcome = outcomeText (outcomeOf tx.result) := by
    intro i tx hi
    have hmem : (tx.hash, (i : Int), outcomeText (outcomeOf tx.result)) ∈
        slotOutcomes c.slot.number (ingestSlotTransactions env client c.slot db).1 := by
      refine h.1.mem_iff.2 (List.mem_of_getElem? (i := i) ?_)
      rw [List.getElem?_mapIdx, hi]
      rfl
    obtain ⟨r, hr, heq⟩ := List.mem_map.1 hmem
    obtain ⟨hr, hslot⟩ := List.mem_filter.1 hr
    simp only [Prod.mk.injEq] at heq
    exact ⟨r, hr, by simpa using hslot, heq.2.1, heq.2.2⟩
  refine ⟨?_, ?_, ?_⟩
  · intro tx htx hrev
    have happlied : tx ∈ c.applied := List.mem_filter.2 ⟨htx, applied_iff.2 (.inr hrev)⟩
    obtain ⟨i, hi⟩ := List.getElem?_of_mem happlied
    obtain ⟨r, hr, hslot, -, hout⟩ := hrow i tx hi
    rw [ingest_eq_writeAll hs] at hr
    rw [outcomeOf_eq_reverted.2 hrev] at hout
    rcases outcome_writeAll hr with hr | hr
    · exact hf.slot r hr hslot
    · rw [hr] at hout
      exact absurd hout (by decide)
  · by_contra hlong
    have hlt : 2 ^ 31 < c.applied.length := by omega
    obtain ⟨r, -, -, hpos, -⟩ := hrow (2 ^ 31) _ (List.getElem?_eq_getElem hlt)
    have := Int32.toInt_lt r.position
    omega
  · -- a row with a revert reason stays in its slot
    intro tx htx r hr hhash
    by_contra hrev
    have hstays : r ∈ (ingestSlotTransactions env client c.slot db).1.transactions := by
      rw [ingest_eq_writeAll hs]
      exact mem_writeAll_of_reverted hf.unique hr hrev
    have hkept := h.2.mem_iff.1 (List.mem_filter.2 ⟨hstays, by simpa using hf.slot r hr⟩)
    have hne : ∀ tx ∈ c.applied, r.hash ≠ tx.hash := by
      simpa using (List.mem_filter.1 hkept).2
    exact hne tx htx hhash

/-- **Completeness of the ingest.** -/
theorem ingest_complete_iff (hs : Serves client c) (hf : Fresh c db)
    (hn : (c.txs.map LedgerTx.hash).Nodup) :
    Complete c db (ingestSlotTransactions env client c.slot db).1 ↔
      (∀ tx ∈ c.txs, tx.result ≠ "reverted") ∧ c.applied.length ≤ 2 ^ 31 ∧
        ∀ tx ∈ c.applied, Unreverted db.transactions tx.hash :=
  ⟨committed_of_complete hs hf, fun h => complete_of_committed hs hf hn h.1 h.2.1 h.2.2⟩

end Complete

/-! ## A slot of three transactions -/

/-- A node that answers 404 to the lookups of `missing` transactions and serves the rest. -/
def nodeOf (c : ChainSlot) (missing : List UInt64) : NodeClient where
  eventsForSlot _ := .ok c.events
  batchAt b := .ok (some (c.batch b))
  txAtNumber n := .ok (if n ∈ missing then none else some (c.tx n))
  bountyAt _ := .ok none
  contractAt _ := .ok none

theorem nodeOf_serves (c : ChainSlot) : Serves (nodeOf c []) c where
  events := rfl
  batch _ _ := rfl
  tx _ _ _ _ := rfl

/-- Slot 7 with the transactions 10, 11 and 12 in one batch. -/
def threeTxSlot (result : UInt64 → String) : ChainSlot where
  slot :=
    { number := 7, hash := "0x07", prevHash := some "0x06", timestamp := some 1700000000000,
      stateRoot := none, batchCount := some 1, txCount := some 3, batchRange := some ⟨4, 5⟩,
      finalityStatus := some "pending" }
  batch _ := { txRange := ⟨10, 13⟩, receipt := none }
  tx n :=
    { hash := if n = 10 then "0xaa" else if n = 11 then "0xbb" else "0xcc", number := n,
      batchNumber := 4, body := "", result := result n }
  events := []

/-- The database once the slot is stored. -/
def storedSlot (c : ChainSlot) : Db := upsertSlot c.slot none none 0 true Db.empty

theorem fresh_storedSlot (c : ChainSlot) : Fresh c (storedSlot c) where
  stored := ⟨slotRow Db.empty c.slot none none 0 true, List.mem_singleton.2 rfl, rfl⟩
  slot := List.forall_mem_nil _
  unique := List.nodup_nil

/-- Two committed transactions around a skipped one. -/
def skippedSlot : ChainSlot := threeTxSlot fun n => if n = 11 then "skipped" else "successful"

theorem skippedSlot_complete :
    (∀ tx ∈ skippedSlot.txs, tx.result ≠ "reverted") ∧
      Complete skippedSlot (storedSlot skippedSlot)
        (ingestSlotTransactions plainEnv (nodeOf skippedSlot []) skippedSlot.slot
          (storedSlot skippedSlot)).1 :=
  ⟨by decide, (ingest_complete_iff (nodeOf_serves _) (fresh_storedSlot _) (by decide)).2
    ⟨by decide, by decide, fun _ _ => unreverted_nil _⟩⟩

/-- Two committed transactions around a reverted one. -/
def revertedSlot : ChainSlot := threeTxSlot fun n => if n = 11 then "reverted" else "successful"

theorem revertedSlot_incomplete :
    Serves (nodeOf revertedSlot []) revertedSlot ∧
      Fresh revertedSlot (storedSlot revertedSlot) ∧
      (revertedSlot.txs.map LedgerTx.hash).Nodup ∧
      ¬ Complete revertedSlot (storedSlot revertedSlot)
        (ingestSlotTransactions plainEnv (nodeOf revertedSlot []) revertedSlot.slot
          (storedSlot revertedSlot)).1 := by
  refine ⟨nodeOf_serves _, fresh_storedSlot _, by decide, fun h => ?_⟩
  have := (committed_of_complete (nodeOf_serves _) (fresh_storedSlot _) h).1
  exact absurd this (by decide)

end LigateApi.Indexer
