import LigateApi.Indexer.Verify.SlotRows

/-!
# What a walk over a slot is served

`ChainSlot` is a slot as the chain holds it; a node serves it in full (`Serves`) or answers 404 to
some of the lookups (`ServesPartly`). A full walk sees the slot's transactions in batch and
transaction order, a partial one a sublist of them, and the work is the applied ones among those,
numbered from zero (`slotWork_eq`).
-/

namespace LigateApi.Indexer

/-- A slot with its batches, transactions and events on the chain. -/
structure ChainSlot where
  slot : SlotResponse
  batch : UInt64 → LedgerBatch
  tx : UInt64 → LedgerTx
  events : List LedgerEvent

namespace ChainSlot

def batches (c : ChainSlot) : List UInt64 := c.slot.batchRange.elim [] Uint64Range.toList

/-- The slot's transactions in (batch number, transaction number) order. -/
def txs (c : ChainSlot) : List LedgerTx :=
  c.batches.flatMap fun b => (c.batch b).txRange.toList.map c.tx

end ChainSlot

/-- The node answers every lookup of the walk. -/
structure Serves (client : NodeClient) (c : ChainSlot) : Prop where
  events : client.eventsForSlot c.slot.number = .ok c.events
  batch : ∀ b ∈ c.batches, client.batchAt b = .ok (some (c.batch b))
  tx : ∀ b ∈ c.batches, ∀ n ∈ (c.batch b).txRange.toList,
    client.txAtNumber n = .ok (some (c.tx n))

/-- The node answers every lookup of the walk, some of them with 404. -/
structure ServesPartly (client : NodeClient) (c : ChainSlot) : Prop where
  events : client.eventsForSlot c.slot.number = .ok c.events
  batch : ∀ b ∈ c.batches, client.batchAt b = .ok (some (c.batch b)) ∨ client.batchAt b = .ok none
  tx : ∀ b ∈ c.batches, ∀ n ∈ (c.batch b).txRange.toList,
    client.txAtNumber n = .ok (some (c.tx n)) ∨ client.txAtNumber n = .ok none

section Walk

variable {client : NodeClient} {c : ChainSlot}

theorem walkTxs_serves {ns : List UInt64}
    (h : ∀ n ∈ ns, client.txAtNumber n = .ok (some (c.tx n))) :
    walkTxs client ns = (ns.map c.tx, none) := by
  induction ns with
  | nil => rfl
  | cons n ns ih =>
    rw [walkTxs, h n List.mem_cons_self, ih fun m hm => h m (List.mem_cons_of_mem n hm)]
    rfl

theorem walkTxs_partly {ns : List UInt64}
    (h : ∀ n ∈ ns, client.txAtNumber n = .ok (some (c.tx n)) ∨ client.txAtNumber n = .ok none) :
    (walkTxs client ns).1.Sublist (ns.map c.tx) ∧ (walkTxs client ns).2 = none := by
  induction ns with
  | nil => exact ⟨List.Sublist.refl _, rfl⟩
  | cons n ns ih =>
    obtain ⟨hsub, hnone⟩ := ih fun m hm => h m (List.mem_cons_of_mem n hm)
    rw [walkTxs]
    rcases h n List.mem_cons_self with hn | hn
    · rw [hn]
      exact ⟨hsub.cons_cons _, hnone⟩
    · rw [hn]
      exact ⟨hsub.cons _, hnone⟩

theorem walkBatches_serves {bs : List UInt64}
    (hb : ∀ b ∈ bs, client.batchAt b = .ok (some (c.batch b)))
    (ht : ∀ b ∈ bs, ∀ n ∈ (c.batch b).txRange.toList,
      client.txAtNumber n = .ok (some (c.tx n))) :
    walkBatches client bs =
      (bs.flatMap fun b => (c.batch b).txRange.toList.map c.tx, none) := by
  induction bs with
  | nil => rfl
  | cons b bs ih =>
    rw [walkBatches, hb b List.mem_cons_self]
    simp only [walkTxs_serves (ht b List.mem_cons_self),
      ih (fun m hm => hb m (List.mem_cons_of_mem b hm))
        fun m hm => ht m (List.mem_cons_of_mem b hm), List.flatMap_cons]

theorem walkBatches_partly {bs : List UInt64}
    (hb : ∀ b ∈ bs, client.batchAt b = .ok (some (c.batch b)) ∨ client.batchAt b = .ok none)
    (ht : ∀ b ∈ bs, ∀ n ∈ (c.batch b).txRange.toList,
      client.txAtNumber n = .ok (some (c.tx n)) ∨ client.txAtNumber n = .ok none) :
    (walkBatches client bs).1.Sublist (bs.flatMap fun b => (c.batch b).txRange.toList.map c.tx) ∧
      (walkBatches client bs).2 = none := by
  induction bs with
  | nil => exact ⟨List.Sublist.refl _, rfl⟩
  | cons b bs ih =>
    obtain ⟨hsub, hnone⟩ := ih (fun m hm => hb m (List.mem_cons_of_mem b hm))
      fun m hm => ht m (List.mem_cons_of_mem b hm)
    rw [walkBatches, List.flatMap_cons]
    rcases hb b List.mem_cons_self with hbatch | hbatch
    · obtain ⟨htx, herr⟩ := walkTxs_partly (ht b List.mem_cons_self)
      have hw : walkTxs client (c.batch b).txRange.toList =
          ((walkTxs client (c.batch b).txRange.toList).1, none) := Prod.ext rfl herr
      simp only [hbatch]
      rw [hw]
      exact ⟨htx.append hsub, hnone⟩
    · rw [hbatch]
      exact ⟨hsub.trans (List.sublist_append_right _ _), hnone⟩

theorem Serves.servedTxs (h : Serves client c) : servedTxs client c.slot = (c.txs, none) := by
  have hb := h.batch
  have ht := h.tx
  unfold Indexer.servedTxs ChainSlot.txs
  unfold ChainSlot.batches at hb ht ⊢
  cases hr : c.slot.batchRange with
  | none => rfl
  | some range =>
    rw [hr] at hb ht
    exact walkBatches_serves hb ht

theorem ServesPartly.servedTxs (h : ServesPartly client c) :
    (servedTxs client c.slot).1.Sublist c.txs := by
  have hb := h.batch
  have ht := h.tx
  unfold Indexer.servedTxs ChainSlot.txs
  unfold ChainSlot.batches at hb ht ⊢
  cases hr : c.slot.batchRange with
  | none => exact List.Sublist.refl _
  | some range =>
    rw [hr] at hb ht
    exact (walkBatches_partly hb ht).1

end Walk

/-! ## From transactions to work -/

/-- The transaction was applied on the chain: its receipt is successful or reverted. -/
def LedgerTx.applied (tx : LedgerTx) : Bool := outcomeOf tx.result ≠ .skipped

/-- The work of an applied transaction. -/
def mkWork (env : Env) (slot : SlotResponse) (events : List LedgerEvent) (i : Nat)
    (tx : LedgerTx) : TxWork where
  classified :=
    { hash := tx.hash, batchNumber := tx.batchNumber, globalTxNumber := tx.number,
      outcome := outcomeOf tx.result
      kind := classifyEvents env.codec env.serde (events.filter fun e => e.txHash = tx.hash) }
  position := Int32.ofNat i
  decoded := decodeTxBody env.codec tx.body env.numericChainId
  slotNumber := slot.number
  timestamp := slotTimestamp slot.timestamp

section Work

variable {env : Env} {slot : SlotResponse} {events : List LedgerEvent}

theorem txWork_eq (i : Nat) (tx : LedgerTx) :
    txWork env slot events (Int32.ofNat i) tx =
      if tx.applied then some (mkWork env slot events i tx) else none := by
  by_cases h : outcomeOf tx.result = .skipped <;>
    simp [txWork, classifyTx, LedgerTx.applied, mkWork, h]

/-- The applied transactions take the positions one after the other. -/
theorem numberTxs_eq (p : Nat) (txs : List LedgerTx) :
    numberTxs env slot events (Int32.ofNat p) txs =
      (txs.filter LedgerTx.applied).mapIdx fun i tx => mkWork env slot events (p + i) tx := by
  induction txs generalizing p with
  | nil => rfl
  | cons tx txs ih =>
    have hsucc : Int32.ofNat p + 1 = Int32.ofNat (p + 1) := by
      rw [Int32.ofNat_add]
      rfl
    rw [numberTxs, txWork_eq]
    by_cases h : tx.applied = true
    · simp only [h, if_true, hsucc, ih, List.filter_cons_of_pos, List.mapIdx_cons, Nat.add_zero,
        Nat.add_assoc, Nat.add_comm 1]
    · simp only [h, if_false, ih, List.filter_cons_of_neg, Bool.false_eq_true, not_false_eq_true]

theorem slotWork_eq {client : NodeClient} (hev : client.eventsForSlot slot.number = .ok events) :
    (slotWork env client slot).1 =
      ((servedTxs client slot).1.filter LedgerTx.applied).mapIdx (mkWork env slot events) := by
  have hnum : numberTxs env slot events (Int32.ofNat 0) (servedTxs client slot).1 =
      ((servedTxs client slot).1.filter LedgerTx.applied).mapIdx (mkWork env slot events) := by
    simpa only [Nat.zero_add] using numberTxs_eq 0 (servedTxs client slot).1
  unfold slotWork
  cases hr : slot.batchRange with
  | none => simp [servedTxs, hr]
  | some range =>
    simp only [hev]
    exact hnum

/-- Committed transactions with distinct hashes make plain work. -/
theorem plain_mapIdx {txs : List LedgerTx} (hc : ∀ tx ∈ txs, tx.result = "successful")
    (hn : (txs.map LedgerTx.hash).Nodup) :
    Plain slot.number (txs.mapIdx (mkWork env slot events)) where
  slot w hw := by
    obtain ⟨i, -, rfl⟩ := List.mem_mapIdx.1 hw
    rfl
  committed w hw := by
    obtain ⟨i, hi, rfl⟩ := List.mem_mapIdx.1 hw
    exact outcomeOf_eq_committed.2 (hc _ (List.getElem_mem hi))
  position i w hw := by
    rw [List.getElem?_mapIdx, Option.map_eq_some_iff] at hw
    obtain ⟨tx, -, rfl⟩ := hw
    rfl
  hashes := by
    have : (txs.mapIdx (mkWork env slot events)).map TxWork.hash = txs.map LedgerTx.hash := by
      refine List.ext_getElem? fun i => ?_
      rw [List.getElem?_map, List.getElem?_mapIdx, List.getElem?_map, Option.map_map]
      rfl
    rwa [this]

end Work

end LigateApi.Indexer
