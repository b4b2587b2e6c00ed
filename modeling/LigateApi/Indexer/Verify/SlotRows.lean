import Mathlib.Data.List.Nodup
import LigateApi.Indexer.Verify.Statements

/-!
# The rows a pass over a slot leaves

A pass writes the transactions it is served one after the other, each at the next position. A
committed transaction gets its row if its position is free and no stored row of it carries a revert
reason; a row it had in another slot moves here (`transactions_accepted`). From a table without
rows of the slot the pass leaves one row for each of its transactions and no other change
(`Placed`, `pass_from`), until the 32-bit position wraps around.
-/

namespace LigateApi.Indexer

open Lib

/-! ## One transaction -/

/-- The row a committed transaction leads to. -/
def TxWork.row (w : TxWork) : TxRow :=
  txRow w.classified w.slotNumber w.position w.decoded "committed"

def TxWork.hash (w : TxWork) : String := w.classified.hash

theorem slot_row {w : TxWork} {n : UInt64} (h : w.slotNumber = n) : w.row.slot = n.toInt64 := by
  rw [TxWork.row, txRow, h]

/-- The columns that the chain determines. -/
def TxRow.onChain (r : TxRow) : String × Int64 × Int32 × String × Json × String :=
  (r.hash, r.slot, r.position, r.kind, r.details, r.outcome)

/-- No row under the hash carries a revert reason. -/
def Unreverted (t : List TxRow) (hash : String) : Prop :=
  ∀ r ∈ t, r.hash = hash → r.revertReason = none

theorem unreverted_nil (hash : String) : Unreverted [] hash := List.forall_mem_nil _

theorem hash_of_onChain {r r' : TxRow} (h : r.onChain = r'.onChain) : r.hash = r'.hash :=
  congrArg Prod.fst h

theorem slot_of_onChain {r r' : TxRow} (h : r.onChain = r'.onChain) : r.slot = r'.slot :=
  congrArg (fun a => a.2.1) h

theorem onChain_merge {row old : TxRow} (h : old.hash = row.hash) :
    (mergeTxRow row old).onChain = row.onChain := by
  simp [TxRow.onChain, mergeTxRow, h]

theorem mem_upsertRow_of_ne {row r : TxRow} {t : List TxRow} (h : r.hash ≠ row.hash) :
    r ∈ Table.upsert TxRow.hash row (mergeTxRow row) t ↔ r ∈ t :=
  Table.mem_upsert_of_ne (fun _ => rfl) h

section Step

variable {env : Env} {client : NodeClient} {w : TxWork} {db : Db}

/-- What a transaction does to the table, with whatever faults: nothing, or the upsert of its
committed row over a row without revert reason. -/
theorem transactions_cases (env : Env) (faults : TxStmt → Fault) (client : NodeClient) (w : TxWork)
    (db : Db) :
    (processTx env faults client w db).db.transactions = db.transactions ∨
      (∀ old, Table.lookup TxRow.hash w.hash db.transactions = some old →
        old.revertReason = none) ∧
      (processTx env faults client w db).db.transactions =
        Table.upsert TxRow.hash w.row (mergeTxRow w.row) db.transactions := by
  simp only [processTx, TxRun.attempt, Bool.false_eq_true, if_false]
  split
  · exact .inl rfl
  · exact .inl rfl
  · split
    · rename_i db' h
      rcases insertTransaction_ok h with rfl | ⟨hold, rfl⟩
      · exact .inl transactions_afterInsert
      · exact .inr ⟨hold, transactions_afterInsert⟩
    · exact .inl rfl

/-- The rows of other transactions stay as they are. -/
theorem mem_processTx_of_ne {faults : TxStmt → Fault} {r : TxRow} (h : r.hash ≠ w.hash) :
    r ∈ (processTx env faults client w db).db.transactions ↔ r ∈ db.transactions := by
  rcases transactions_cases env faults client w db with ht | ⟨-, ht⟩
  · rw [ht]
  · rw [ht]
    exact mem_upsertRow_of_ne h

theorem nodup_processTx {faults : TxStmt → Fault}
    (hn : (db.transactions.map TxRow.hash).Nodup) :
    ((processTx env faults client w db).db.transactions.map TxRow.hash).Nodup := by
  rcases transactions_cases env faults client w db with ht | ⟨-, ht⟩
  · rwa [ht]
  · rw [ht]
    exact Table.nodup_upsert (fun _ => rfl) hn

/-- A row with a revert reason is never rewritten. -/
theorem mem_processTx_of_reverted {faults : TxStmt → Fault} {r : TxRow}
    (hn : (db.transactions.map TxRow.hash).Nodup) (hr : r ∈ db.transactions)
    (hrev : r.revertReason ≠ none) :
    r ∈ (processTx env faults client w db).db.transactions := by
  by_cases hw : r.hash = w.hash
  · rcases transactions_cases env faults client w db with ht | ⟨hold, -⟩
    · rwa [ht]
    · obtain ⟨old, hl⟩ := Option.isSome_iff_exists.1 (Table.lookup_isSome_of_mem TxRow.hash hr)
      have : old = r := List.inj_on_of_nodup_map hn (Table.lookup_mem hl) hr (Table.lookup_key hl)
      rw [hw, this] at hl
      exact absurd (hold r hl) hrev
  · exact (mem_processTx_of_ne hw).2 hr

section Committed

variable (hc : w.classified.outcome = .committed)
include hc

/-- The transactions after one turn of the loop. -/
theorem transactions_committed :
    (processTx env noFaults client w db).db.transactions =
      match upsertTxRow w.row db with
      | .ok db' => db'.transactions
      | .error _ => db.transactions := by
  rw [transactions_processTx, insertTransaction_committed hc]
  rfl

theorem transactions_accepted (hslot : db.hasSlot w.row.slot)
    (hrev : Unreverted db.transactions w.hash) (hfree : ¬ db.positionTaken w.row) :
    (processTx env noFaults client w db).db.transactions =
      Table.upsert TxRow.hash w.row (mergeTxRow w.row) db.transactions := by
  have hcheck : w.row.check = .ok () := txRow_check.2 rfl
  have hmerge : ∀ old, Table.lookup TxRow.hash w.row.hash db.transactions = some old →
      (mergeTxRow w.row old).check = .ok () := fun old hl =>
    mergeTxRow_check.2 (hrev old (Table.lookup_mem hl) (Table.lookup_key hl))
  have hok := upsertTxRow_eq_ok.2 ⟨hcheck, hmerge, hfree, hslot, rfl⟩
  rw [transactions_committed hc, hok]

theorem transactions_taken (htaken : db.positionTaken w.row) :
    (processTx env noFaults client w db).db.transactions = db.transactions := by
  rw [transactions_committed hc]
  cases h : upsertTxRow w.row db with
  | ok db' => exact absurd htaken (upsertTxRow_eq_ok.1 h).2.2.1
  | error e => rfl

end Committed

end Step

/-! ## A pass -/

/-- The work of a slot with only committed transactions: numbered from zero, no hash twice. -/
structure Plain (n : UInt64) (ws : List TxWork) : Prop where
  slot : ∀ w ∈ ws, w.slotNumber = n
  committed : ∀ w ∈ ws, w.classified.outcome = .committed
  position : ∀ i w, ws[i]? = some w → w.position = Int32.ofNat i
  hashes : (ws.map TxWork.hash).Nodup

/-- The works of a pass that get a row: past `2 ^ 32` of them the positions repeat. -/
def kept (ws : List TxWork) : List TxWork := ws.take (2 ^ 32)

/-- The pass itself, on the database. -/
def writeAll (env : Env) (client : NodeClient) (ws : List TxWork) (db : Db) : Db :=
  ws.foldl (fun db w => (processTx env noFaults client w db).db) db

section WriteAll

variable {env : Env} {client : NodeClient} {w : TxWork} {ws vs : List TxWork} {db : Db}

theorem writeAll_cons :
    writeAll env client (w :: ws) db =
      writeAll env client ws (processTx env noFaults client w db).db :=
  rfl

theorem writeAll_append :
    writeAll env client (ws ++ vs) db = writeAll env client vs (writeAll env client ws db) :=
  List.foldl_append

theorem hasSlot_writeAll {n : Int64} : (writeAll env client ws db).hasSlot n ↔ db.hasSlot n := by
  induction ws generalizing db with
  | nil => exact Iff.rfl
  | cons w ws ih => exact ih.trans hasSlot_processTx

theorem mem_writeAll_of_ne {r : TxRow} (h : ∀ w ∈ ws, r.hash ≠ w.hash) :
    r ∈ (writeAll env client ws db).transactions ↔ r ∈ db.transactions := by
  induction ws generalizing db with
  | nil => exact Iff.rfl
  | cons w ws ih =>
    rw [writeAll_cons, ih fun v hv => h v (List.mem_cons_of_mem w hv)]
    exact mem_processTx_of_ne (h w List.mem_cons_self)

theorem mem_writeAll_of_reverted {r : TxRow} (hn : (db.transactions.map TxRow.hash).Nodup)
    (hr : r ∈ db.transactions) (hrev : r.revertReason ≠ none) :
    r ∈ (writeAll env client ws db).transactions := by
  induction ws generalizing db with
  | nil => exact hr
  | cons w ws ih => exact ih (nodup_processTx hn) (mem_processTx_of_reverted hn hr hrev)

end WriteAll

theorem int32_ofNat_eq_iff {i j : Nat} :
    Int32.ofNat i = Int32.ofNat j ↔ i % 2 ^ 32 = j % 2 ^ 32 := by
  constructor
  · intro h
    have hu : UInt32.ofNat i = UInt32.ofNat j := congrArg Int32.toUInt32 h
    simpa using congrArg UInt32.toNat hu
  · intro h
    have hu : UInt32.ofNat i = UInt32.ofNat j := by
      apply UInt32.toNat.inj
      simpa using h
    exact congrArg UInt32.toInt32 hu

theorem mem_kept {ws : List TxWork} {w : TxWork} :
    w ∈ kept ws ↔ ∃ i < 2 ^ 32, ws[i]? = some w := by
  constructor
  · intro h
    obtain ⟨i, hi⟩ := List.getElem?_of_mem h
    rw [kept, List.getElem?_take] at hi
    split at hi
    · rename_i hlt
      exact ⟨i, hlt, hi⟩
    · cases hi
  · rintro ⟨i, hi, h⟩
    refine List.mem_of_getElem? (i := i) ?_
    rw [kept, List.getElem?_take_of_lt hi, h]

/-- Two works of a slot with the same hash are the same one. -/
theorem Plain.eq_of_hash {n : UInt64} {ws : List TxWork} (h : Plain n ws) {i j : Nat}
    {w v : TxWork} (hi : ws[i]? = some w) (hj : ws[j]? = some v) (he : w.hash = v.hash) :
    i = j := by
  have hi' : (ws.map TxWork.hash)[i]? = some w.hash := by simp [hi]
  have hj' : (ws.map TxWork.hash)[j]? = some w.hash := by simp [hj, he]
  have hlt : i < (ws.map TxWork.hash).length := (List.getElem?_eq_some_iff.1 hi').1
  exact (List.getElem?_inj hlt h.hashes).1 (hi'.trans hj'.symm)

/-- In the first `2 ^ 32` works a position names one transaction. -/
theorem Plain.eq_of_position {n : UInt64} {ws : List TxWork} (h : Plain n ws) {i j : Nat}
    {w v : TxWork} (hi : ws[i]? = some w) (hj : ws[j]? = some v) (hi32 : i < 2 ^ 32)
    (hj32 : j < 2 ^ 32) (he : w.position = v.position) : i = j := by
  rw [h.position _ _ hi, h.position _ _ hj, int32_ofNat_eq_iff, Nat.mod_eq_of_lt hi32,
    Nat.mod_eq_of_lt hj32] at he
  exact he

theorem kept_append_short {done : List TxWork} {w : TxWork} (h : done.length < 2 ^ 32) :
    kept (done ++ [w]) = kept done ++ [w] := by
  have hlen : (done ++ [w]).length ≤ 2 ^ 32 := by
    rw [List.length_append, List.length_singleton]
    omega
  rw [kept, kept, List.take_of_length_le hlen, List.take_of_length_le (by omega)]

theorem kept_append_long {done : List TxWork} {w : TxWork} (h : 2 ^ 32 ≤ done.length) :
    kept (done ++ [w]) = kept done := by
  rw [kept, kept, List.take_append_of_le_length h]

/-! ## Where the rows are -/

/-- The table `t` is `base` with a row for each of the works `ws`, in their places. -/
structure Placed (base t : List TxRow) (ws : List TxWork) : Prop where
  nodup : (t.map TxRow.hash).Nodup
  own : ∀ w ∈ ws, ∃ r ∈ t, r.onChain = w.row.onChain ∧ r.revertReason = none
  other : ∀ r, (∀ w ∈ ws, r.hash ≠ w.hash) → (r ∈ t ↔ r ∈ base)

section Placed

variable {env : Env} {client : NodeClient} {n : UInt64} {base t : List TxRow} {ws : List TxWork}
  {w : TxWork} {db : Db}

theorem placed_nil (h : (base.map TxRow.hash).Nodup) : Placed base base [] :=
  ⟨h, List.forall_mem_nil _, fun _ _ => Iff.rfl⟩

/-- A row of the table belongs to one of the works or was there before. -/
theorem Placed.mem (h : Placed base t ws) {r : TxRow} (hr : r ∈ t) :
    (∃ w ∈ ws, r.onChain = w.row.onChain ∧ r.revertReason = none) ∨
      (∀ w ∈ ws, r.hash ≠ w.hash) ∧ r ∈ base := by
  by_cases hw : ∃ w ∈ ws, r.hash = w.hash
  · obtain ⟨w, hw, hhash⟩ := hw
    obtain ⟨r', hr', hrow, hrev⟩ := h.own w hw
    have : r = r' :=
      List.inj_on_of_nodup_map h.nodup hr hr' (hhash.trans (hash_of_onChain hrow).symm)
    exact .inl ⟨w, hw, this ▸ hrow, this ▸ hrev⟩
  · have hne : ∀ w ∈ ws, r.hash ≠ w.hash := fun w hmem he => hw ⟨w, hmem, he⟩
    exact .inr ⟨hne, (h.other r hne).1 hr⟩

theorem Placed.unreverted (h : Placed base t ws) {hash : String} (hb : Unreverted base hash) :
    Unreverted t hash := by
  intro r hr hhash
  rcases h.mem hr with ⟨w, -, -, hrev⟩ | ⟨-, hr⟩
  · exact hrev
  · exact hb r hr hhash

theorem Placed.free (h : Placed base db.transactions ws) (hbase : ∀ r ∈ base, r.slot ≠ w.row.slot)
    (hpos : ∀ v ∈ ws, v.hash ≠ w.hash → v.position ≠ w.position) :
    ¬ db.positionTaken w.row := by
  rintro ⟨r, hr, hne, hslot, hposition⟩
  rcases h.mem hr with ⟨v, hv, hrow, -⟩ | ⟨-, hr⟩
  · have hp : r.position = v.position := congrArg (fun a => a.2.2.1) hrow
    exact hpos v hv (fun he => hne ((hash_of_onChain hrow).trans he)) (hp.symm.trans hposition)
  · exact hbase r hr hslot

theorem Placed.taken (h : Placed base db.transactions ws) {v : TxWork} (hv : v ∈ ws)
    (hne : v.hash ≠ w.hash) (hslot : v.slotNumber = w.slotNumber)
    (hpos : v.position = w.position) : db.positionTaken w.row := by
  obtain ⟨r, hr, hrow, -⟩ := h.own v hv
  have hs : r.slot = v.slotNumber.toInt64 := slot_of_onChain hrow
  have hp : r.position = v.position := congrArg (fun a => a.2.2.1) hrow
  exact ⟨r, hr, fun he => hne ((hash_of_onChain hrow).symm.trans he), hs.trans (by rw [hslot]; rfl),
    hp.trans hpos⟩

/-- The upsert of one more work, or of one that has its row already. -/
theorem Placed.upsert (h : Placed base t ws) (hrev : Unreverted t w.hash)
    (hsame : ∀ v ∈ ws, v.hash = w.hash → v = w) :
    Placed base (Table.upsert TxRow.hash w.row (mergeTxRow w.row) t) (ws ++ [w]) where
  nodup := Table.nodup_upsert (fun _ => rfl) h.nodup
  own v hv := by
    by_cases hvw : v.hash = w.hash
    · have hv : v = w := by
        rcases List.mem_append.1 hv with hv | hv
        · exact hsame v hv hvw
        · exact List.mem_singleton.1 hv
      subst hv
      obtain ⟨r, hr, rfl | ⟨old, hold, hhash, rfl⟩⟩ :=
        Table.exists_mem_upsert TxRow.hash v.row (mergeTxRow v.row) t
      · exact ⟨_, hr, rfl, rfl⟩
      · exact ⟨_, hr, onChain_merge hhash, hrev old hold hhash⟩
    · have hv : v ∈ ws := by
        rcases List.mem_append.1 hv with hv | hv
        · exact hv
        · exact absurd (congrArg TxWork.hash (List.mem_singleton.1 hv)) hvw
      obtain ⟨r, hr, hrow, hnone⟩ := h.own v hv
      have hne : r.hash ≠ w.hash := fun he => hvw ((hash_of_onChain hrow).symm.trans he)
      exact ⟨r, (mem_upsertRow_of_ne hne).2 hr, hrow, hnone⟩
  other r hr := by
    have hne : r.hash ≠ w.hash := hr w (List.mem_append_right _ (List.mem_singleton.2 rfl))
    rw [mem_upsertRow_of_ne hne]
    exact h.other r fun v hv => hr v (List.mem_append_left _ hv)

theorem Placed.congr {vs : List TxWork} (h : Placed base t ws) (hmem : ∀ w, w ∈ vs ↔ w ∈ ws) :
    Placed base t vs where
  nodup := h.nodup
  own w hw := h.own w ((hmem w).1 hw)
  other r hr := h.other r fun w hw => hr w ((hmem w).2 hw)

/-- One turn of the loop for a work whose position is not held by another one. -/
theorem Placed.processTx (h : Placed base db.transactions ws)
    (hc : w.classified.outcome = .committed) (hslot : db.hasSlot w.row.slot)
    (hbase : ∀ r ∈ base, r.slot ≠ w.row.slot) (hrev : Unreverted base w.hash)
    (hsame : ∀ v ∈ ws, v.hash = w.hash → v = w)
    (hpos : ∀ v ∈ ws, v.hash ≠ w.hash → v.position ≠ w.position) :
    Placed base (Indexer.processTx env noFaults client w db).db.transactions (ws ++ [w]) := by
  rw [transactions_accepted hc hslot (h.unreverted hrev) (h.free hbase hpos)]
  exact h.upsert (h.unreverted hrev) hsame

end Placed

section Pass

variable {env : Env} {client : NodeClient} {n : UInt64} {base : List TxRow}

/-- **A clean pass.** With the first `done` works written and nothing else of the slot in the
table, the rest of the pass places the remaining ones. -/
theorem pass_from {done ws : List TxWork} {db : Db} (hplain : Plain n (done ++ ws))
    (hslot : db.hasSlot n.toInt64) (hbase : ∀ r ∈ base, r.slot ≠ n.toInt64)
    (hrev : ∀ w ∈ kept (done ++ ws), Unreverted base w.hash)
    (hdb : Placed base db.transactions (kept done)) :
    Placed base (writeAll env client ws db).transactions (kept (done ++ ws)) := by
  induction ws generalizing done db with
  | nil => simpa [writeAll] using hdb
  | cons w ws ih =>
    have hw : (done ++ w :: ws)[done.length]? = some w := by simp
    have hmem : w ∈ done ++ w :: ws := List.mem_of_getElem? hw
    have hrow : w.row.slot = n.toInt64 := slot_row (hplain.slot w hmem)
    have hdone : ∀ i v, done[i]? = some v → (done ++ w :: ws)[i]? = some v := fun i v hi => by
      rw [List.getElem?_append_left (List.getElem?_eq_some_iff.1 hi).1, hi]
    -- a work written before is another transaction
    have hother : ∀ (i : Nat) (v : TxWork), done[i]? = some v → v.hash ≠ w.hash := by
      intro i v hi he
      have := hplain.eq_of_hash (hdone i v hi) hw he
      have := (List.getElem?_eq_some_iff.1 hi).1
      omega
    have hstep : Placed base (processTx env noFaults client w db).db.transactions
        (kept (done ++ [w])) := by
      by_cases hshort : done.length < 2 ^ 32
      · -- a free position: the rows so far sit at the positions below
        rw [kept_append_short hshort]
        refine hdb.processTx (hplain.committed w hmem) (hrow ▸ hslot) (hrow ▸ hbase) ?_ ?_ ?_
        · exact hrev w (mem_kept.2 ⟨_, hshort, hw⟩)
        · intro v hv he
          obtain ⟨i, -, hi⟩ := mem_kept.1 hv
          exact absurd he (hother i v hi)
        · intro v hv _ hpos
          obtain ⟨i, hi32, hi⟩ := mem_kept.1 hv
          have := hplain.eq_of_position (hdone i v hi) hw hi32 hshort hpos
          have := (List.getElem?_eq_some_iff.1 hi).1
          omega
      · -- the position has wrapped around onto an earlier row
        have hlt : done.length % 2 ^ 32 < done.length :=
          (Nat.mod_lt _ (by decide)).trans_le (by omega)
        obtain ⟨v, hv⟩ : ∃ v, done[done.length % 2 ^ 32]? = some v :=
          ⟨_, List.getElem?_eq_getElem hlt⟩
        have htaken : db.positionTaken w.row := by
          refine hdb.taken (mem_kept.2 ⟨_, Nat.mod_lt _ (by decide), hv⟩) (hother _ v hv) ?_ ?_
          · rw [hplain.slot v (List.mem_of_getElem? (hdone _ v hv)), hplain.slot w hmem]
          · rw [hplain.position _ _ (hdone _ v hv), hplain.position _ _ hw, int32_ofNat_eq_iff,
              Nat.mod_mod]
        rw [transactions_taken (hplain.committed w hmem) htaken, kept_append_long (by omega)]
        exact hdb
    have hnext : done ++ w :: ws = (done ++ [w]) ++ ws := by simp
    rw [hnext] at hplain hrev ⊢
    exact ih hplain (hasSlot_processTx.2 hslot) hrev hstep

/-- A pass over works that have their rows already. -/
theorem pass_again {done ws : List TxWork} {db : Db} (hplain : Plain n done)
    (hslot : db.hasSlot n.toInt64) (hbase : ∀ r ∈ base, r.slot ≠ n.toInt64)
    (hrev : ∀ w ∈ kept done, Unreverted base w.hash)
    (hdb : Placed base db.transactions (kept done)) (hws : ∀ w ∈ ws, w ∈ kept done) :
    Placed base (writeAll env client ws db).transactions (kept done) := by
  induction ws generalizing db with
  | nil => exact hdb
  | cons w ws ih =>
    have hw : w ∈ kept done := hws w List.mem_cons_self
    obtain ⟨j, hj32, hj⟩ := mem_kept.1 hw
    have hmem : w ∈ done := List.mem_of_getElem? hj
    have hrow : w.row.slot = n.toInt64 := slot_row (hplain.slot w hmem)
    refine ih (hasSlot_processTx.2 hslot) ?_ fun v hv => hws v (List.mem_cons_of_mem w hv)
    refine (hdb.processTx (hplain.committed w hmem) (hrow ▸ hslot) (hrow ▸ hbase) (hrev w hw)
      ?_ ?_).congr fun v => ?_
    · intro v hv he
      obtain ⟨i, -, hi⟩ := mem_kept.1 hv
      obtain rfl := hplain.eq_of_hash hi hj he
      exact Option.some.inj (hi.symm.trans hj)
    · intro v hv hne hpos
      obtain ⟨i, hi32, hi⟩ := mem_kept.1 hv
      obtain rfl := hplain.eq_of_position hi hj hi32 hj32 hpos
      exact hne (congrArg TxWork.hash (Option.some.inj (hi.symm.trans hj)))
    · constructor
      · exact List.mem_append_left _
      · intro hv
        rcases List.mem_append.1 hv with hv | hv
        · exact hv
        · exact List.mem_singleton.1 hv ▸ hw

end Pass

/-! ## The rows of the slot -/

/-- The rows of a slot in the columns that the chain determines. -/
def slotRows (n : UInt64) (db : Db) : List (String × Int64 × Int32 × String × Json × String) :=
  (db.transactions.filter fun r => r.slot = n.toInt64).map TxRow.onChain

section SlotRows

variable {n : UInt64} {base : List TxRow} {ws : List TxWork} {db : Db}

/-- The slot has a row for each placed work, and no other. -/
theorem Placed.slotRows_perm (h : Placed base db.transactions ws)
    (hbase : ∀ r ∈ base, r.slot ≠ n.toInt64) (hslot : ∀ w ∈ ws, w.slotNumber = n)
    (hhash : (ws.map TxWork.hash).Nodup) :
    (slotRows n db).Perm (ws.map fun w => w.row.onChain) := by
  have hrows : (slotRows n db).Nodup := by
    apply List.Nodup.of_map Prod.fst
    rw [slotRows, List.map_map]
    exact (List.filter_sublist.map TxRow.hash).nodup h.nodup
  have hworks : (ws.map fun w => w.row.onChain).Nodup := by
    apply List.Nodup.of_map Prod.fst
    rw [List.map_map]
    exact hhash
  rw [List.perm_ext_iff_of_nodup hrows hworks]
  intro a
  simp only [slotRows, List.mem_map, List.mem_filter, decide_eq_true_eq]
  constructor
  · rintro ⟨r, ⟨hr, hrslot⟩, rfl⟩
    rcases h.mem hr with ⟨w, hw, hrow, -⟩ | ⟨-, hr⟩
    · exact ⟨w, hw, hrow.symm⟩
    · exact absurd hrslot (hbase r hr)
  · rintro ⟨w, hw, rfl⟩
    obtain ⟨r, hr, hrow, -⟩ := h.own w hw
    exact ⟨r, ⟨hr, (slot_of_onChain hrow).trans (slot_row (hslot w hw))⟩, hrow⟩

end SlotRows

end LigateApi.Indexer
