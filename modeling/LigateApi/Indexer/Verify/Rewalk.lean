import Mathlib.Data.List.Nodup
import LigateApi.Indexer.Verify.Complete
import LigateApi.Indexer.Verify.Steps

/-!
# Walking a slot again

Positions are counted over the transactions a pass was served. A first pass that met a 404 leaves
the later transactions one place too low, and the second pass cannot put the missing one in: its
place is taken. The second pass repairs the first exactly if what the first was served is a prefix
of the slot.
-/

namespace LigateApi.Indexer

open Lib Lib.Run

/-- A sublist whose first `k` elements are no prefix leaves out the element at its first
difference. -/
theorem exists_gap {α : Type} {s l : List α} (h : s.Sublist l) (hn : l.Nodup) {k : Nat}
    (hk : ¬ s.take k <+: l) :
    ∃ d < k, ∃ a b, s[d]? = some a ∧ l[d]? = some b ∧ b ∉ s ∧ s.take d = l.take d := by
  induction h generalizing k with
  | slnil => exact absurd (by simp) hk
  | @cons s l x h _ =>
    -- the difference is here: `x` is not served
    obtain ⟨hx, -⟩ := List.nodup_cons.1 hn
    cases k with
    | zero => exact absurd (by simp) hk
    | succ k =>
      cases s with
      | nil => exact absurd (by simp) hk
      | cons a s => exact ⟨0, Nat.succ_pos k, a, x, rfl, rfl, fun hm => hx (h.subset hm), rfl⟩
  | @cons_cons s l x h ih =>
    obtain ⟨hx, hn⟩ := List.nodup_cons.1 hn
    cases k with
    | zero => exact absurd (by simp) hk
    | succ k =>
      rw [List.take_succ_cons, List.cons_prefix_cons, and_iff_right rfl] at hk
      obtain ⟨d, hd, a, b, ha, hb, hmem, htake⟩ := ih hn hk
      refine ⟨d + 1, Nat.succ_lt_succ hd, a, b, ha, hb, fun hm => ?_, ?_⟩
      · rcases List.mem_cons.1 hm with rfl | hm
        · exact hx (List.mem_of_getElem? hb)
        · exact hmem hm
      · rw [List.take_succ_cons, List.take_succ_cons, htake]

/-! ## Two passes -/

/-- The second pass leaves the rows a clean pass leaves in an empty table. -/
def Repaired (env : Env) (client₁ client₂ : NodeClient) (c : ChainSlot) (db : Db) : Prop :=
  (slotRows c.slot.number (ingestSlotTransactions env client₂ c.slot
      (ingestSlotTransactions env client₁ c.slot db).1).1).Perm
    (slotRows c.slot.number
      (ingestSlotTransactions env client₂ c.slot { db with transactions := [] }).1)

section Repair

variable {env : Env} {client₁ client₂ : NodeClient} {c : ChainSlot} {db : Db}

/-- The work of some of the slot's transactions. -/
def ChainSlot.works (c : ChainSlot) (env : Env) (txs : List LedgerTx) : List TxWork :=
  txs.mapIdx (mkWork env c.slot c.events)

theorem getElem?_works {txs : List LedgerTx} {i : Nat} :
    (c.works env txs)[i]? = txs[i]?.map (mkWork env c.slot c.events i) :=
  List.getElem?_mapIdx

theorem take_works {txs : List LedgerTx} {k : Nat} :
    (c.works env txs).take k = c.works env (txs.take k) := by
  refine List.ext_getElem? fun i => ?_
  rw [List.getElem?_take, getElem?_works, getElem?_works, List.getElem?_take]
  split <;> rfl

theorem works_append {txs ys : List LedgerTx} :
    ∃ ws, c.works env (txs ++ ys) = c.works env txs ++ ws :=
  ⟨_, List.mapIdx_append⟩

/-- What a pass over committed transactions writes. -/
theorem ingest_eq_works {client : NodeClient} {txs : List LedgerTx}
    (hev : client.eventsForSlot c.slot.number = .ok c.events)
    (hserved : (servedTxs client c.slot).1 = txs) (hc : ∀ tx ∈ txs, tx.result = "successful") :
    (ingestSlotTransactions env client c.slot db).1 =
      writeAll env client (c.works env txs) db := by
  have hall : txs.filter LedgerTx.applied = txs :=
    List.filter_eq_self.2 fun tx htx => applied_iff.2 (.inl (hc tx htx))
  unfold ingestSlotTransactions writeAll ChainSlot.works
  rw [slotWork_eq hev, hserved, hall]

/-- A hash names one transaction of the slot. -/
theorem hash_inj (hn : (c.txs.map LedgerTx.hash).Nodup) {a b : LedgerTx} (ha : a ∈ c.txs)
    (hb : b ∈ c.txs) (h : a.hash = b.hash) : a = b :=
  List.inj_on_of_nodup_map hn ha hb h

section Passes

variable {txs : List LedgerTx} (hf : Fresh c db) (hsub : txs.Sublist c.txs)
  (hn : (c.txs.map LedgerTx.hash).Nodup) (hc : ∀ tx ∈ c.txs, tx.result = "successful")
  (hu : ∀ tx ∈ c.txs, Unreverted db.transactions tx.hash)

include hsub hn hc in
theorem plain_works : Plain c.slot.number (c.works env txs) :=
  plain_mapIdx (fun tx htx => hc tx (hsub.subset htx)) ((hsub.map LedgerTx.hash).nodup hn)

include hsub hu in
theorem unreverted_works : ∀ w ∈ kept (c.works env txs), Unreverted db.transactions w.hash := by
  intro w hw
  obtain ⟨i, -, hi⟩ := mem_kept.1 hw
  obtain ⟨j, hj, rfl⟩ := List.mem_mapIdx.1 (List.mem_of_getElem? hi)
  exact hu _ (hsub.subset (List.getElem_mem hj))

include hf hsub hn hc hu in
/-- The first pass, over what was served. -/
theorem placed_firstPass {client : NodeClient} :
    Placed db.transactions (writeAll env client (c.works env txs) db).transactions
      (kept (c.works env txs)) := by
  have hplain : Plain c.slot.number ([] ++ c.works env txs) := plain_works hsub hn hc
  exact pass_from hplain hf.stored hf.slot (unreverted_works hsub hu) (placed_nil hf.unique)

include hn hc in
/-- The rows of the slot once its transactions are placed. -/
theorem slotRows_placed {base : List TxRow} {db' : Db}
    (hbase : ∀ r ∈ base, r.slot ≠ c.slot.number.toInt64)
    (h : Placed base db'.transactions (kept (c.works env c.txs))) :
    (slotRows c.slot.number db').Perm
      ((kept (c.works env c.txs)).map fun w => w.row.onChain) := by
  have hplain : Plain c.slot.number (c.works env c.txs) := plain_works (List.Sublist.refl _) hn hc
  have hsub : (kept (c.works env c.txs)).Sublist (c.works env c.txs) := List.take_sublist _ _
  exact h.slotRows_perm hbase (fun w hw => hplain.slot w (hsub.subset hw))
    ((hsub.map TxWork.hash).nodup hplain.hashes)

include hf hn hc in
/-- The pass it is compared with. -/
theorem slotRows_cleanPass (h₂ : Serves client₂ c) :
    (slotRows c.slot.number
        (ingestSlotTransactions env client₂ c.slot { db with transactions := [] }).1).Perm
      ((kept (c.works env c.txs)).map fun w => w.row.onChain) := by
  have hempty : Fresh c { db with transactions := [] } := ⟨hf.stored, List.forall_mem_nil _, List.nodup_nil⟩
  rw [ingest_eq_works h₂.events (congrArg Prod.fst h₂.servedTxs) hc]
  exact slotRows_placed hn hc hempty.slot
    (placed_firstPass hempty (List.Sublist.refl _) hn hc fun _ _ => unreverted_nil _)

end Passes

variable (h₁ : ServesPartly client₁ c) (h₂ : Serves client₂ c) (hf : Fresh c db)
  (hn : (c.txs.map LedgerTx.hash).Nodup) (hc : ∀ tx ∈ c.txs, tx.result = "successful")
  (hu : ∀ tx ∈ c.txs, Unreverted db.transactions tx.hash)
include h₁ h₂ hf hn hc hu

omit hf hn hu in
theorem twoPasses_eq :
    (ingestSlotTransactions env client₂ c.slot
        (ingestSlotTransactions env client₁ c.slot db).1).1 =
      writeAll env client₂ (c.works env c.txs)
        (writeAll env client₁ (c.works env (servedTxs client₁ c.slot).1) db) := by
  rw [ingest_eq_works h₂.events (congrArg Prod.fst h₂.servedTxs) hc,
    ingest_eq_works h₁.events rfl fun tx htx => hc tx (h₁.servedTxs.subset htx)]

theorem repaired_of_prefix (hp : (servedTxs client₁ c.slot).1.take (2 ^ 32) <+: c.txs) :
    Repaired env client₁ client₂ c db := by
  have hsub := h₁.servedTxs
  have hfirst : Placed db.transactions
      (writeAll env client₁ (c.works env (servedTxs client₁ c.slot).1) db).transactions
      (kept (c.works env (servedTxs client₁ c.slot).1)) := placed_firstPass hf hsub hn hc hu
  -- the second pass meets the kept rows of the first one again, then goes on where it stopped
  obtain ⟨rest, hrest⟩ := hp
  obtain ⟨ws, hws⟩ : ∃ ws, c.works env c.txs =
      c.works env ((servedTxs client₁ c.slot).1.take (2 ^ 32)) ++ ws := by
    rw [← hrest]
    exact works_append
  have hkept : kept (c.works env ((servedTxs client₁ c.slot).1.take (2 ^ 32))) =
      kept (c.works env (servedTxs client₁ c.slot).1) := by
    rw [kept, kept, take_works, take_works, List.take_take, Nat.min_self]
  have hagain : Placed db.transactions
      (writeAll env client₂ (c.works env ((servedTxs client₁ c.slot).1.take (2 ^ 32)))
        (writeAll env client₁ (c.works env (servedTxs client₁ c.slot).1) db)).transactions
      (kept (c.works env ((servedTxs client₁ c.slot).1.take (2 ^ 32)))) := by
    rw [hkept]
    refine pass_again (plain_works hsub hn hc) (hasSlot_writeAll.2 hf.stored) hf.slot
      (unreverted_works hsub hu) hfirst fun w hw => ?_
    rwa [kept, take_works]
  have hplain : Plain c.slot.number (c.works env c.txs) := plain_works (List.Sublist.refl _) hn hc
  have hrev : ∀ w ∈ kept (c.works env c.txs), Unreverted db.transactions w.hash :=
    unreverted_works (List.Sublist.refl _) hu
  have hall : Placed db.transactions (writeAll env client₂ (c.works env c.txs)
      (writeAll env client₁ (c.works env (servedTxs client₁ c.slot).1) db)).transactions
      (kept (c.works env c.txs)) := by
    rw [hws] at hplain hrev ⊢
    rw [writeAll_append]
    exact pass_from hplain (hasSlot_writeAll.2 (hasSlot_writeAll.2 hf.stored)) hf.slot hrev hagain
  unfold Repaired
  rw [twoPasses_eq h₁ h₂ hc]
  exact (slotRows_placed hn hc hf.slot hall).trans (slotRows_cleanPass hf hn hc h₂).symm

/-- The transaction at the first gap never gets a row in the slot. -/
theorem missing_of_gap {d : Nat} {a b : LedgerTx} (hd : d < 2 ^ 32)
    (ha : (servedTxs client₁ c.slot).1[d]? = some a) (hb : c.txs[d]? = some b)
    (hmem : b ∉ (servedTxs client₁ c.slot).1)
    (htake : (servedTxs client₁ c.slot).1.take d = c.txs.take d) :
    ∀ r ∈ (ingestSlotTransactions env client₂ c.slot
      (ingestSlotTransactions env client₁ c.slot db).1).1.transactions,
      r.hash = b.hash → r.slot ≠ c.slot.number.toInt64 := by
  have hsub := h₁.servedTxs
  have hplain : Plain c.slot.number (c.works env c.txs) := plain_works (List.Sublist.refl _) hn hc
  have hab : a.hash ≠ b.hash := fun he =>
    hmem (hash_inj hn (hsub.subset (List.mem_of_getElem? ha)) (List.mem_of_getElem? hb) he ▸
      List.mem_of_getElem? ha)
  -- up to the gap the second pass repeats the first one
  have hagain : Placed db.transactions (writeAll env client₂ ((c.works env c.txs).take d)
      (writeAll env client₁ (c.works env (servedTxs client₁ c.slot).1) db)).transactions
      (kept (c.works env (servedTxs client₁ c.slot).1)) := by
    refine pass_again (plain_works hsub hn hc) (hasSlot_writeAll.2 hf.stored) hf.slot
      (unreverted_works hsub hu) (placed_firstPass hf hsub hn hc hu) fun w hw => ?_
    rw [take_works, ← htake, ← take_works] at hw
    exact (List.take_sublist_take_left hd.le).subset hw
  have hw : (c.works env c.txs)[d]? = some (mkWork env c.slot c.events d b) := by
    rw [getElem?_works, hb]
    rfl
  obtain ⟨hlt, hget⟩ := List.getElem?_eq_some_iff.1 hw
  have hsplit : c.works env c.txs = (c.works env c.txs).take d ++
      mkWork env c.slot c.events d b :: (c.works env c.txs).drop (d + 1) := by
    rw [← hget, ← List.drop_eq_getElem_cons hlt, List.take_append_drop]
  -- there the place is taken
  have htaken : (writeAll env client₂ ((c.works env c.txs).take d)
      (writeAll env client₁ (c.works env (servedTxs client₁ c.slot).1) db)).positionTaken
      (mkWork env c.slot c.events d b).row := by
    refine hagain.taken (v := mkWork env c.slot c.events d a) (mem_kept.2 ⟨d, hd, ?_⟩) hab rfl rfl
    rw [getElem?_works, ha]
    rfl
  -- and after it come other transactions
  have hrest : ∀ v ∈ (c.works env c.txs).drop (d + 1), b.hash ≠ v.hash := by
    intro v hv he
    obtain ⟨i, hi⟩ := List.getElem?_of_mem hv
    rw [List.getElem?_drop] at hi
    have := hplain.eq_of_hash hi hw he.symm
    omega
  intro r hr hhash hslot
  rw [twoPasses_eq h₁ h₂ hc, hsplit, writeAll_append, writeAll_cons,
    mem_writeAll_of_ne (hhash ▸ hrest),
    transactions_taken (hplain.committed _ (List.mem_of_getElem? hw)) htaken] at hr
  rcases hagain.mem hr with ⟨v, hv, hrow, -⟩ | ⟨-, hr⟩
  · obtain ⟨i, -, hi⟩ := mem_kept.1 hv
    obtain ⟨j, hj, rfl⟩ := List.mem_mapIdx.1 (List.mem_of_getElem? hi)
    have hmem' := List.getElem_mem hj
    have hbj := hash_inj hn (List.mem_of_getElem? hb) (hsub.subset hmem')
      (hhash.symm.trans (hash_of_onChain hrow))
    exact hmem (hbj ▸ hmem')
  · exact hf.slot r hr hslot

theorem prefix_of_repaired (h : Repaired env client₁ client₂ c db) :
    (servedTxs client₁ c.slot).1.take (2 ^ 32) <+: c.txs := by
  by_contra hp
  obtain ⟨d, hd, a, b, ha, hb, hmem, htake⟩ := exists_gap h₁.servedTxs (List.Nodup.of_map _ hn) hp
  have hkept : mkWork env c.slot c.events d b ∈ kept (c.works env c.txs) := by
    refine mem_kept.2 ⟨d, hd, ?_⟩
    rw [getElem?_works, hb]
    rfl
  have hclean := List.mem_map_of_mem (f := fun w : TxWork => w.row.onChain) hkept
  rw [← (slotRows_cleanPass hf hn hc h₂).mem_iff, ← h.mem_iff] at hclean
  obtain ⟨r, hr, heq⟩ := List.mem_map.1 hclean
  obtain ⟨hr, -⟩ := List.mem_filter.1 hr
  exact missing_of_gap h₁ h₂ hf hn hc hu hd ha hb hmem htake r hr (hash_of_onChain heq)
    (slot_of_onChain heq)

/-- **Repair by a second pass.** -/
theorem rewalk_repairs_iff :
    Repaired env client₁ client₂ c db ↔
      (servedTxs client₁ c.slot).1.take (2 ^ 32) <+: c.txs :=
  ⟨prefix_of_repaired h₁ h₂ hf hn hc hu, repaired_of_prefix h₁ h₂ hf hn hc hu⟩

end Repair

/-! ## What the indexer leaves in the table -/

/-- One row per hash, and none with a revert reason. -/
structure TxTable (db : Db) : Prop where
  unique : (db.transactions.map TxRow.hash).Nodup
  unreverted : ∀ r ∈ db.transactions, r.revertReason = none

theorem TxTable.processTx {env : Env} {faults : TxStmt → Fault} {client : NodeClient} {w : TxWork}
    {db : Db} (h : TxTable db) : TxTable (processTx env faults client w db).db where
  unique := nodup_processTx h.unique
  unreverted r hr := by
    rcases transactions_cases env faults client w db with ht | ⟨-, ht⟩
    · rw [ht] at hr
      exact h.unreverted r hr
    · rw [ht] at hr
      rcases Table.mem_upsert hr with hr | rfl | ⟨old, hold, -, rfl⟩
      · exact h.unreverted r hr.1
      · rfl
      · exact h.unreverted old hold

theorem DbStep.txTable {env : Env} {s : IndexerState} {e : Event} {db : Db}
    (h : DbStep env s e db) (hs : TxTable s.db) : TxTable db := by
  cases h with
  | processTx => exact hs.processTx
  | same => exact hs
  | upsertSlot => exact ⟨hs.unique, hs.unreverted⟩
  | cursor => exact ⟨hs.unique, hs.unreverted⟩
  | flip => exact ⟨hs.unique, hs.unreverted⟩

/-- In every state of the indexer. -/
theorem txTable_run {env : Env} {es : List Event} {s : IndexerState}
    (h : exec (step env) .init es = some s) : TxTable s.db :=
  have hinit : TxTable IndexerState.init.db := ⟨List.nodup_nil, List.forall_mem_nil _⟩
  exec_invariant (I := fun m => TxTable m.db) (fun _ _ _ hs hm => (step_db hm).txTable hs) hinit h

/-! ## Which lookup was missing -/

theorem nodeOf_servesPartly (c : ChainSlot) (missing : List UInt64) :
    ServesPartly (nodeOf c missing) c where
  events := rfl
  batch _ _ := .inl rfl
  tx b _ n _ := by
    by_cases h : n ∈ missing
    · exact .inr (by simp [nodeOf, h])
    · exact .inl (by simp [nodeOf, h])

def committedSlot : ChainSlot := threeTxSlot fun _ => "successful"

/-- The last transaction was missing. -/
theorem committedSlot_repaired :
    (servedTxs (nodeOf committedSlot [12]) committedSlot.slot).1.length = 2 ∧
      Repaired plainEnv (nodeOf committedSlot [12]) (nodeOf committedSlot []) committedSlot
        (storedSlot committedSlot) :=
  ⟨by decide, (rewalk_repairs_iff (nodeOf_servesPartly _ _) (nodeOf_serves _) (fresh_storedSlot _)
    (by decide) (by decide) fun _ _ => unreverted_nil _).2 ⟨[committedSlot.tx 12], by decide⟩⟩

/-- The first transaction was missing. -/
theorem committedSlot_not_repaired :
    ServesPartly (nodeOf committedSlot [10]) committedSlot ∧
      Serves (nodeOf committedSlot []) committedSlot ∧
      Fresh committedSlot (storedSlot committedSlot) ∧
      (committedSlot.txs.map LedgerTx.hash).Nodup ∧
      (∀ tx ∈ committedSlot.txs, tx.result = "successful") ∧ TxTable (storedSlot committedSlot) ∧
      ¬ Repaired plainEnv (nodeOf committedSlot [10]) (nodeOf committedSlot []) committedSlot
        (storedSlot committedSlot) := by
  refine ⟨nodeOf_servesPartly _ _, nodeOf_serves _, fresh_storedSlot _, by decide, by decide,
    ⟨List.nodup_nil, List.forall_mem_nil _⟩, fun h => ?_⟩
  have hp := prefix_of_repaired (nodeOf_servesPartly _ _) (nodeOf_serves _) (fresh_storedSlot _)
    (by decide) (by decide) (fun _ _ => unreverted_nil _) h
  have hlen : (servedTxs (nodeOf committedSlot [10]) committedSlot.slot).1.length = 2 := by decide
  rw [List.take_of_length_le (by omega)] at hp
  exact absurd hp (by decide)

end LigateApi.Indexer
