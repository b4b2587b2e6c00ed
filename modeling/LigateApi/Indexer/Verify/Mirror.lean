import LigateApi.Indexer.Verify.Complete
import LigateApi.Indexer.Verify.Counters
import LigateApi.Indexer.Verify.PrevHash

/-!
# The tables mirror the chain

Against a node that serves the slots of a fixed chain, and a database that does not turn down the
insert of a transaction, every height the walk has passed is accounted for: it was answered 404, or
each of its committed transactions is done with (`Progress`), whatever else fails and wherever the
process dies in between. Read with the rows of the transactions as what is to be done, this says
that `transactions` is the ledger of the chain, with nothing lost up to the cursor and nothing
invented (`ledger_mirrored`).
-/

namespace LigateApi.Indexer

open Lib Lib.Run

/-! ## Heights behind the walk -/

/-- Every height below the one the walk is at has the property, and every one up to the cursor. -/
structure Passed (P : UInt64 → Prop) (s : IndexerState) : Prop where
  next : ∀ n ∈ s.walker.nextHeight, ∀ k : UInt64, 1 ≤ k → k < n → P k
  cursor : ∀ h ∈ s.db.lastIndexedHeight, ∀ k : UInt64, 1 ≤ k → k ≤ h → P k

section Passed

variable {env : Env} {s s' : IndexerState} {e : Event} {P Q : UInt64 → Prop}

theorem passed_init : Passed P .init where
  next := nofun
  cursor := nofun

/-- Where a process starts, every height below lies behind the cursor. -/
theorem Passed.startHeight (h : Passed P s) (readOk : Bool) {k : UInt64} (hk : 1 ≤ k)
    (hlt : k < startHeightOf none readOk s.db) : P k := by
  have hone : ¬ k < 1 := UInt64.not_lt.2 hk
  cases readOk with
  | false => exact absurd hlt hone
  | true =>
    cases hc : s.db.lastIndexedHeight with
    | none =>
      simp only [startHeightOf, readLastIndexedHeight, hc, if_true] at hlt
      exact absurd hlt hone
    | some c =>
      simp only [startHeightOf, readLastIndexedHeight, hc, if_true, saturatingSucc] at hlt
      refine h.cursor c hc k hk ?_
      split at hlt
      · rcases lt_succ_cases hlt with hlt | rfl
        · exact UInt64.le_of_lt hlt
        · exact UInt64.le_rfl
      · exact UInt64.le_of_lt hlt

/-- A step that does not take the walk or the cursor further. -/
theorem Passed.stay (h : Passed P s) (hPQ : ∀ k, P k → Q k)
    (hnext : ∀ n ∈ s'.walker.nextHeight, s.walker.nextHeight = some n)
    (hlast : s'.db.lastIndexedHeight = s.db.lastIndexedHeight) : Passed Q s' where
  next n hn k hk hlt := hPQ k (h.next n (hnext n hn) k hk hlt)
  cursor c hc k hk hle := hPQ k (h.cursor c (hlast ▸ hc) k hk hle)

/-- The turn for `next` is over. -/
theorem Passed.finish {next head : UInt64} (h : Passed P s) (hPQ : ∀ k, P k → Q k)
    (hnext : s.walker.nextHeight = some next) (hw : s'.walker = advance next head) (hQ : Q next)
    (hlast : ∀ c ∈ s'.db.lastIndexedHeight, c = next ∨ s.db.lastIndexedHeight = some c) :
    Passed Q s' := by
  have hbelow : ∀ k : UInt64, 1 ≤ k → k < next → Q k := fun k hk hlt =>
    hPQ k (h.next next hnext k hk hlt)
  constructor
  · intro n hn k hk hlt
    rw [hw, nextHeight_advance] at hn
    cases hn
    rcases lt_succ_cases hlt with hlt | rfl
    · exact hbelow k hk hlt
    · exact hQ
  · intro c hc k hk hle
    rcases hlast c hc with rfl | hc
    · rcases UInt64.lt_or_eq_of_le hle with hlt | rfl
      · exact hbelow k hk hlt
      · exact hQ
    · exact hPQ k (h.cursor c hc k hk hle)

/-- **Step lemma**: what holds of the heights behind the walk, if no step undoes it and the end of
a turn brings it about. -/
theorem Passed.step (h : Passed P s) (hPQ : ∀ k, P k → Q k) (hr : Regular s e)
    (hnot : ∀ next head, s.walker = .walking next head → e = .slotAt (.ok none) → Q next)
    (hcur : ∀ next head, s.walker = .ingesting next head [] → (∃ result, e = .cursor result) →
      Q next)
    (hstep : step env s e = some s') : Passed Q s' := by
  cases step_cases hstep with
  | @start startHeight readOk hw =>
    obtain rfl : startHeight = none := hr
    refine ⟨fun n hn k hk hlt => ?_, fun c hc k hk hle => hPQ k (h.cursor c hc k hk hle)⟩
    cases hn
    exact hPQ k (h.startHeight readOk hk hlt)
  | crash hw => exact h.stay hPQ (forall_mem_none rfl) rfl
  | headError hw => exact h.stay hPQ (fun n hn => hn) rfl
  | tail hw hlt => exact h.stay hPQ (fun n hn => hn) rfl
  | catchUp hw hle => exact h.stay hPQ (fun n hn => by rw [hw]; exact hn) rfl
  | slot hw => exact h.stay hPQ (fun n hn => by rw [hw]; exact hn) rfl
  | @notFound next head hw =>
    exact h.finish hPQ (by rw [hw]; rfl) rfl (hnot next head hw rfl) fun c hc => .inr hc
  | slotError hw => exact h.stay hPQ (fun n hn => by rw [hw]; exact hn) rfl
  | @upsertSlot next head slot client now lookupOk result hw =>
    refine h.stay hPQ (fun n hn => ?_) ?_
    · rw [hw]
      cases result <;> exact hn
    · cases result <;> rfl
  | walkSlot hw => exact h.stay hPQ (fun n hn => by rw [hw]; exact hn) rfl
  | @processTx next head w works client faults hw =>
    split
    · exact h.stay hPQ (forall_mem_none rfl) lastIndexedHeight_processTx
    · exact h.stay hPQ (fun n hn => by rw [hw]; exact hn) lastIndexedHeight_processTx
  | @cursor next head result hw =>
    refine h.finish hPQ (by rw [hw]; rfl) rfl (hcur next head hw ⟨result, rfl⟩) fun c hc => ?_
    cases ha : result.applied with
    | true =>
      simp only [ha, if_true] at hc
      cases hc
      exact .inl rfl
    | false =>
      simp only [ha, Bool.false_eq_true, if_false] at hc
      exact .inr hc
  | poll hw => exact h.stay hPQ (fun n hn => hn) rfl
  | flip hw => exact h.stay hPQ (fun n hn => hn) rfl

end Passed

/-! ## The chain and its node -/

/-- The slots of a chain: no transaction is applied twice, and no slot applies more transactions
than there are positions. -/
structure Chain where
  slotAt : UInt64 → ChainSlot
  number : ∀ n, (slotAt n).slot.number = n
  distinct : ∀ (m n : UInt64) (i j : Nat) (tx tx' : LedgerTx), (slotAt m).applied[i]? = some tx →
    (slotAt n).applied[j]? = some tx' → tx.hash = tx'.hash → m = n ∧ i = j
  short : ∀ n, (slotAt n).applied.length ≤ 2 ^ 32

namespace Chain

variable (chain : Chain)

/-- The `i`-th applied transaction of slot `n` is `tx`, and it was committed. -/
structure Commits (n : UInt64) (i : Nat) (tx : LedgerTx) : Prop where
  place : (chain.slotAt n).applied[i]? = some tx
  committed : tx.result = "successful"

/-- The row of a transaction of the chain. -/
def row (env : Env) (n : UInt64) (i : Nat) (tx : LedgerTx) : TxRow :=
  (mkWork env (chain.slotAt n).slot (chain.slotAt n).events i tx).row

/-- The node's answer for slot `n`; the finality status may be any. -/
structure Shows (n : UInt64) (slot : SlotResponse) : Prop where
  number : slot.number = n
  batches : slot.batchRange = (chain.slotAt n).slot.batchRange

/-- The works of slot `n`, made from an answer for it. -/
def works (env : Env) (n : UInt64) (slot : SlotResponse) : List TxWork :=
  (chain.slotAt n).applied.mapIdx (mkWork env slot (chain.slotAt n).events)

end Chain

section Chain

variable {env : Env} {chain : Chain} {client : NodeClient} {n : UInt64} {slot : SlotResponse}
  {i : Nat} {tx : LedgerTx}

/-- A walk over a slot that is served in full meets the slot's transactions. -/
theorem Chain.Shows.slotWork (h : chain.Shows n slot)
    (hs : Serves client { chain.slotAt n with slot }) :
    (slotWork env client slot).1 = chain.works env n slot := by
  have htxs : ({ chain.slotAt n with slot } : ChainSlot).txs = (chain.slotAt n).txs := by
    simp only [ChainSlot.txs, ChainSlot.batches, h.batches]
  rw [slotWork_eq hs.events, hs.servedTxs, htxs]
  rfl

theorem getElem?_chainWorks :
    (chain.works env n slot)[i]? =
      (chain.slotAt n).applied[i]?.map (mkWork env slot (chain.slotAt n).events i) :=
  List.getElem?_mapIdx

/-- The row does not depend on the answer the work was made from. -/
theorem Chain.Shows.row_eq (h : chain.Shows n slot) :
    (mkWork env slot (chain.slotAt n).events i tx).row = chain.row env n i tx := by
  simp only [Chain.row, TxWork.row, mkWork, h.number, chain.number]

theorem slot_chainRow : (chain.row env n i tx).slot = n.toInt64 := slot_row (chain.number n)

/-- Writing a row of the chain once more changes nothing. -/
theorem merge_chainRow :
    mergeTxRow (chain.row env n i tx) (chain.row env n i tx) = chain.row env n i tx := by
  simp only [mergeTxRow, Option.or_self]

/-- The two transactions are one. -/
theorem Chain.Commits.unique {m : UInt64} {j : Nat} {tx' : LedgerTx} (h : chain.Commits n i tx)
    (h' : chain.Commits m j tx') (he : tx.hash = tx'.hash) : n = m ∧ i = j ∧ tx = tx' := by
  obtain ⟨rfl, rfl⟩ := chain.distinct n m i j tx tx' h.place h'.place he
  exact ⟨rfl, rfl, Option.some.inj (h.place.symm.trans h'.place)⟩

end Chain

/-! ## Writing a transaction of the chain -/

/-- Every row is one of a committed transaction of the chain. -/
def FromChain (env : Env) (chain : Chain) (t : List TxRow) : Prop :=
  ∀ r ∈ t, ∃ n i tx, chain.Commits n i tx ∧ r = chain.row env n i tx

section Write

variable {env : Env} {chain : Chain} {client : NodeClient} {faults : TxStmt → Fault} {w : TxWork}
  {n : UInt64} {slot : SlotResponse} {i : Nat} {tx : LedgerTx} {db : Db} {r : TxRow}

/-- A stored row under the hash of a transaction of the chain is its row. -/
theorem FromChain.eq_row (h : FromChain env chain db.transactions) (hc : chain.Commits n i tx)
    (hr : r ∈ db.transactions) (hash : r.hash = (chain.row env n i tx).hash) :
    r = chain.row env n i tx := by
  obtain ⟨m, j, tx', hc', rfl⟩ := h r hr
  obtain ⟨rfl, rfl, rfl⟩ := hc'.unique hc hash
  rfl

theorem FromChain.unreverted (h : FromChain env chain db.transactions) {hash : String} :
    Unreverted db.transactions hash := by
  intro r hr _
  obtain ⟨m, j, tx', -, rfl⟩ := h r hr
  rfl

/-- The place of a transaction of the chain is never held by another one. -/
theorem FromChain.free (h : FromChain env chain db.transactions) (hc : chain.Commits n i tx) :
    ¬ db.positionTaken (chain.row env n i tx) := by
  rintro ⟨r, hr, hne, hslot, hpos⟩
  obtain ⟨m, j, tx', hc', rfl⟩ := h r hr
  rw [slot_chainRow, slot_chainRow] at hslot
  obtain rfl := toInt64_injective hslot
  have hi : i < 2 ^ 32 := (List.getElem?_eq_some_iff.1 hc.place).1.trans_le (chain.short m)
  have hj : j < 2 ^ 32 := (List.getElem?_eq_some_iff.1 hc'.place).1.trans_le (chain.short m)
  have hij : Int32.ofNat j = Int32.ofNat i := hpos
  rw [int32_ofNat_eq_iff, Nat.mod_eq_of_lt hi, Nat.mod_eq_of_lt hj] at hij
  subst hij
  rw [Option.some.inj (hc'.place.symm.trans hc.place)] at hne
  exact hne rfl

/-- The row is added, unless it is there already. -/
theorem FromChain.mem_upsert (h : FromChain env chain db.transactions)
    (hc : chain.Commits n i tx) :
    r ∈ Table.upsert TxRow.hash (chain.row env n i tx) (mergeTxRow (chain.row env n i tx))
        db.transactions ↔ r ∈ db.transactions ∨ r = chain.row env n i tx := by
  by_cases hhash : r.hash = (chain.row env n i tx).hash
  · have hself : ∀ x ∈ db.transactions, x.hash = (chain.row env n i tx).hash →
        mergeTxRow (chain.row env n i tx) x = chain.row env n i tx := by
      intro x hx hxh
      rw [h.eq_row hc hx hxh, merge_chainRow]
    constructor
    · intro hr
      rcases Table.mem_upsert hr with ⟨hr, -⟩ | rfl | ⟨x, hx, hxh, rfl⟩
      · exact .inl hr
      · exact .inr rfl
      · exact .inr (hself x hx hxh)
    · intro hr
      obtain rfl : r = chain.row env n i tx := hr.elim (fun hr => h.eq_row hc hr hhash) id
      obtain ⟨r, hr, rfl | ⟨x, hx, hxh, rfl⟩⟩ := Table.exists_mem_upsert TxRow.hash
        (chain.row env n i tx) (mergeTxRow (chain.row env n i tx)) db.transactions
      · exact hr
      · rwa [hself x hx hxh] at hr
  · rw [mem_upsertRow_of_ne hhash]
    refine ⟨.inl, fun hr => hr.resolve_right ?_⟩
    rintro rfl
    exact hhash rfl

/-- The insert of a committed transaction of the chain goes through. -/
theorem FromChain.inserts (h : FromChain env chain db.transactions) (hshow : chain.Shows n slot)
    (hc : chain.Commits n i tx) (hslot : db.hasSlot n.toInt64)
    (hw : w = mkWork env slot (chain.slotAt n).events i tx) :
    insertTransaction w.classified w.slotNumber w.position w.decoded db = .ok { db with
      transactions := Table.upsert TxRow.hash (chain.row env n i tx)
        (mergeTxRow (chain.row env n i tx)) db.transactions } := by
  have hout : w.classified.outcome = .committed := by
    rw [hw]
    exact outcomeOf_eq_committed.2 hc.committed
  have hrow : txRow w.classified w.slotNumber w.position w.decoded "committed" =
      chain.row env n i tx := by
    rw [hw]
    exact hshow.row_eq
  rw [insertTransaction_committed hout, hrow, upsertTxRow_eq_ok]
  refine ⟨txRow_check.2 rfl, fun old hl => mergeTxRow_check.2 ?_, h.free hc, ?_, rfl⟩
  · exact h.unreverted old (Table.lookup_mem hl) (Table.lookup_key hl)
  · rwa [slot_chainRow]

/-- What a turn of the loop does to the rows when its insert is not turned down by the database. -/
theorem FromChain.turn (h : FromChain env chain db.transactions)
    (hshow : chain.Shows n slot) (hplace : (chain.slotAt n).applied[i]? = some tx)
    (hslot : db.hasSlot n.toInt64) (hw : w = mkWork env slot (chain.slotAt n).events i tx)
    (hf : faults .transaction ≠ .refuse) :
    (∀ r ∈ db.transactions, r ∈ (processTx env faults client w db).db.transactions) ∧
      (∀ r ∈ (processTx env faults client w db).db.transactions,
        r ∈ db.transactions ∨ chain.Commits n i tx ∧ r = chain.row env n i tx) ∧
      ((processTx env faults client w db).crashed = false → chain.Commits n i tx →
        chain.row env n i tx ∈ (processTx env faults client w db).db.transactions) := by
  by_cases hres : tx.result = "successful"
  · have hc : chain.Commits n i tx := ⟨hplace, hres⟩
    cases hfault : faults .transaction with
    | refuse => exact absurd hfault hf
    | crash =>
      have hcrash : processTx env faults client w db = { db, crashed := true } := by
        simp only [processTx, TxRun.attempt, hfault, Bool.false_eq_true, if_false]
      rw [hcrash]
      exact ⟨fun r hr => hr, fun r hr => .inl hr, fun hlive => by cases hlive⟩
    | none =>
      have hrows : ∀ r, r ∈ (processTx env faults client w db).db.transactions ↔
          r ∈ db.transactions ∨ r = chain.row env n i tx := by
        intro r
        rw [← h.mem_upsert hc]
        simp only [processTx, TxRun.attempt, hfault, h.inserts hshow hc hslot hw,
          Bool.false_eq_true, if_false, transactions_afterInsert]
      refine ⟨fun r hr => (hrows r).2 (.inl hr), fun r hr => ?_, fun _ _ => (hrows _).2 (.inr rfl)⟩
      exact ((hrows r).1 hr).imp_right fun hr => ⟨hc, hr⟩
  · have hsame : (processTx env faults client w db).db.transactions = db.transactions := by
      have happlied : tx.applied = true := (List.mem_filter.1 (List.mem_of_getElem? hplace)).2
      have hout : w.classified.outcome = .reverted := by
        rw [hw]
        exact outcomeOf_eq_reverted.2 ((applied_iff.1 happlied).resolve_left hres)
      simp only [processTx, TxRun.attempt, Bool.false_eq_true, if_false]
      split
      · rfl
      · rfl
      · split
        · rename_i db' hok
          exact absurd hok (insertTransaction_reverted hout)
        · rfl
    rw [hsame]
    exact ⟨fun r hr => hr, fun r hr => .inl hr, fun _ hc => absurd hc.committed hres⟩

end Write

/-! ## What is done with -/

/-- The slot the current turn has fetched, with its height. -/
def Walker.fetched : Walker → Option (UInt64 × SlotResponse)
  | .storing next _ slot | .stored next _ slot => some (next, slot)
  | .down | .idle _ | .walking _ _ | .ingesting _ _ _ => none

/-- What is left to write of the current slot, with its height. -/
def Walker.left : Walker → Option (UInt64 × List TxWork)
  | .ingesting next _ works => some (next, works)
  | .down | .idle _ | .walking _ _ | .storing _ _ _ | .stored _ _ _ => none

@[simp] theorem fetched_advance (next head : UInt64) : (advance next head).fetched = none := by
  unfold advance
  split <;> rfl

@[simp] theorem left_advance (next head : UInt64) : (advance next head).left = none := by
  unfold advance
  split <;> rfl

/-- The node serves the chain, and the database does not turn down the insert of a transaction:
that would be logged and passed over. -/
def Honest (chain : Chain) (s : IndexerState) : Event → Prop
  | .start startHeight _ => startHeight = none
  | .head (some head) => head.toNat + 1 < 2 ^ 64
  | .slotAt (.ok (some slot)) => ∃ n, s.walker.nextHeight = some n ∧ chain.Shows n slot
  | .walkSlot client => ∀ p ∈ s.walker.fetched, Serves client { chain.slotAt p.1 with slot := p.2 }
  | .processTx _ faults => faults .transaction ≠ .refuse
  | _ => True

/-- What is to be done with the transactions of the chain, told from the database. -/
abbrev Chain.Task := Db → UInt64 → Nat → LedgerTx → Prop

/-- The height was answered 404, or each of its transactions is done with. -/
def Accounted (chain : Chain) (done : Chain.Task) (s : IndexerState) (k : UInt64) : Prop :=
  (∃ head, (k, head) ∈ s.notFound) ∨ ∀ i tx, chain.Commits k i tx → done s.db k i tx

/-- Some works of slot `n` have been done with, and these are left. -/
def Writing (env : Env) (chain : Chain) (done : Chain.Task) (db : Db) (n : UInt64)
    (works : List TxWork) : Prop :=
  ∃ slot m, chain.Shows n slot ∧ works = (chain.works env n slot).drop m ∧
    ∀ i tx, i < m → chain.Commits n i tx → done db n i tx

structure Progress (env : Env) (chain : Chain) (done : Chain.Task) (s : IndexerState) : Prop where
  passed : Passed (Accounted chain done s) s
  fetched : ∀ p ∈ s.walker.fetched, chain.Shows p.1 p.2
  left : ∀ p ∈ s.walker.left, Writing env chain done s.db p.1 p.2

/-- The work is that of the `i`-th applied transaction of slot `n`. -/
structure Turn (env : Env) (chain : Chain) (n : UInt64) (i : Nat) (tx : LedgerTx) (w : TxWork) :
    Prop where
  place : (chain.slotAt n).applied[i]? = some tx
  work : ∃ slot, chain.Shows n slot ∧ w = mkWork env slot (chain.slotAt n).events i tx

section Progress

variable {env : Env} {chain : Chain} {done : Chain.Task} {s s' : IndexerState} {e : Event}
  {n : UInt64} {w : TxWork} {works : List TxWork}

theorem Honest.regular (h : Honest chain s e) : Regular s e := by
  cases e with
  | start startHeight readOk => exact h
  | slotAt answer =>
    rcases answer with err | _ | slot
    · trivial
    · trivial
    · obtain ⟨n, hn, hshow⟩ := h
      rw [Regular, hshow.number]
      exact hn
  | _ => trivial

theorem Honest.headBelowMax (h : Honest chain s e) : HeadBelowMax e := by
  cases e with
  | head answer =>
    cases answer with
    | none => trivial
    | some head => exact h
  | _ => trivial

/-- The next work is that of the first transaction that is not done with. -/
theorem Writing.turn (h : Writing env chain done s.db n (w :: works)) :
    ∃ i tx, Turn env chain n i tx w ∧
      (∀ j tx', j < i → chain.Commits n j tx' → done s.db n j tx') ∧
      ∀ db', (∀ j tx', j < i + 1 → chain.Commits n j tx' → done db' n j tx') →
        Writing env chain done db' n works := by
  obtain ⟨slot, m, hshow, hdrop, hdone⟩ := h
  have hw : (chain.works env n slot)[m]? = some w := by
    rw [← List.head?_drop, ← hdrop]
    rfl
  have hrest : works = (chain.works env n slot).drop (m + 1) := by
    rw [← List.tail_drop, ← hdrop]
    rfl
  rw [getElem?_chainWorks, Option.map_eq_some_iff] at hw
  obtain ⟨tx, htx, rfl⟩ := hw
  exact ⟨m, tx, ⟨htx, slot, hshow, rfl⟩, hdone, fun _ h => ⟨slot, m + 1, hshow, hrest, h⟩⟩

/-- With nothing left every transaction of the slot is done with. -/
theorem Writing.finished (h : Writing env chain done s.db n []) :
    ∀ i tx, chain.Commits n i tx → done s.db n i tx := by
  obtain ⟨slot, m, hshow, hdrop, hdone⟩ := h
  intro i tx hc
  refine hdone i tx ?_ hc
  have hlen : (chain.works env n slot).length ≤ m := List.drop_eq_nil_iff.1 hdrop.symm
  have hi := (List.getElem?_eq_some_iff.1 hc.place).1
  rw [Chain.works, List.length_mapIdx] at hlen
  omega

theorem Writing.mono {db : Db} (h : Writing env chain done db n works)
    (hmono : ∀ n i tx, done db n i tx → done s'.db n i tx) :
    Writing env chain done s'.db n works := by
  obtain ⟨slot, m, hshow, hdrop, hdone⟩ := h
  exact ⟨slot, m, hshow, hdrop, fun i tx hi hc => hmono n i tx (hdone i tx hi hc)⟩

theorem Accounted.mono {k : UInt64} (h : Accounted chain done s k) (hext : Extends s s')
    (hmono : ∀ n i tx, done s.db n i tx → done s'.db n i tx) : Accounted chain done s' k := by
  rcases h with ⟨head, hmem⟩ | h
  · exact .inl ⟨head, hext.notFound hmem⟩
  · exact .inr fun i tx hc => hmono k i tx (h i tx hc)

theorem progress_init : Progress env chain done .init where
  passed := passed_init
  fetched := nofun
  left := nofun

/-- The slot fetched is the chain's. -/
theorem Progress.fetched_step (h : Progress env chain done s) (he : Honest chain s e)
    (hstep : step env s e = some s') : ∀ p ∈ s'.walker.fetched, chain.Shows p.1 p.2 := by
  intro p hp
  cases step_cases hstep with
  | start => cases hp
  | crash => cases hp
  | headError => exact h.fetched p hp
  | tail => exact h.fetched p hp
  | catchUp => cases hp
  | @slot next head slot hw =>
    obtain ⟨n, hn, hshow⟩ := he
    rw [hw] at hn
    cases hn
    cases hp
    exact hshow
  | notFound =>
    rw [fetched_advance] at hp
    cases hp
  | slotError => cases hp
  | @upsertSlot _ _ _ _ _ _ result hw =>
    cases result
    · exact h.fetched p (by rw [hw]; exact hp)
    · cases hp
    · cases hp
  | walkSlot => cases hp
  | processTx =>
    split at hp
    · cases hp
    · cases hp
  | cursor =>
    rw [fetched_advance] at hp
    cases hp
  | poll => exact h.fetched p hp
  | flip => exact h.fetched p hp

/-- A turn of the loop that the process survives does its transaction, if those before it in the
slot are done. -/
def DoneInTurn (env : Env) (chain : Chain) (done : Chain.Task) (s : IndexerState) (e : Event) :
    Prop :=
  ∀ n head i tx w works client faults,
    s.walker = .ingesting n head (w :: works) → e = .processTx client faults →
    Turn env chain n i tx w → (processTx env faults client w s.db).crashed = false →
    (∀ j tx', j < i → chain.Commits n j tx' → done s.db n j tx') → chain.Commits n i tx →
    done (processTx env faults client w s.db).db n i tx

/-- What the loop has left is the rest of the chain's transactions, and those before are done. -/
theorem Progress.left_step (h : Progress env chain done s) (he : Honest chain s e)
    (hmono : ∀ n i tx, done s.db n i tx → done s'.db n i tx)
    (hturn : DoneInTurn env chain done s e)
    (hstep : step env s e = some s') :
    ∀ p ∈ s'.walker.left, Writing env chain done s'.db p.1 p.2 := by
  intro p hp
  cases step_cases hstep with
  | start => cases hp
  | crash => cases hp
  | headError => exact h.left p hp
  | tail => exact (h.left p hp).mono hmono
  | catchUp => cases hp
  | slot => cases hp
  | notFound =>
    rw [left_advance] at hp
    cases hp
  | slotError => cases hp
  | @upsertSlot _ _ _ _ _ _ result hw => cases result <;> cases hp
  | @walkSlot next head slot client hw =>
    cases hp
    have hshow := h.fetched (next, slot) (by rw [hw]; rfl)
    refine ⟨slot, 0, hshow, ?_, fun i tx hi => absurd hi (Nat.not_lt_zero i)⟩
    rw [List.drop_zero]
    exact hshow.slotWork (he (next, slot) (by rw [hw]; rfl))
  | @processTx next head w works client faults hw =>
    obtain ⟨i, tx, ht, hbefore, hrest⟩ := (h.left (next, w :: works) (by rw [hw]; rfl)).turn
    cases hcrash : (processTx env faults client w s.db).crashed with
    | true =>
      simp only [hcrash, if_true] at hp
      cases hp
    | false =>
      simp only [hcrash, Bool.false_eq_true, if_false] at hp hmono ⊢
      cases hp
      refine hrest _ fun j tx' hj hc => ?_
      rcases Nat.lt_succ_iff_lt_or_eq.1 hj with hlt | rfl
      · exact hmono next j tx' (hbefore j tx' hlt hc)
      · obtain rfl : tx' = tx := Option.some.inj (hc.place.symm.trans ht.place)
        exact hturn next head j tx' w works client faults hw rfl ht hcrash hbefore hc
  | cursor =>
    rw [left_advance] at hp
    cases hp
  | poll => exact (h.left p hp).mono hmono
  | flip => exact (h.left p hp).mono hmono

/-- **Step lemma**: the heights behind the walk stay accounted for if no step undoes what is done,
and each turn of the loop that the process survives does its transaction. -/
theorem Progress.step (h : Progress env chain done s) (he : Honest chain s e)
    (hmono : ∀ n i tx, done s.db n i tx → done s'.db n i tx)
    (hturn : DoneInTurn env chain done s e)
    (hstep : step env s e = some s') : Progress env chain done s' := by
  have hext := step_extends hstep
  constructor
  · refine h.passed.step (fun k hk => hk.mono hext hmono) he.regular ?_ ?_ hstep
    · rintro next head hw rfl
      simp only [Indexer.step, stepWalker, hw, Option.some.injEq] at hstep
      subst hstep
      exact .inl ⟨head, List.mem_append_right _ (List.mem_singleton.2 rfl)⟩
    · rintro next head hw -
      have hleft := h.left (next, []) (by rw [hw]; rfl)
      exact .inr fun i tx hc => hmono next i tx (hleft.finished i tx hc)
  · exact h.fetched_step he hstep
  · exact h.left_step he hmono hturn hstep

end Progress

/-! ## The ledger -/

/-- The row of the transaction is stored. -/
def Chain.listed (chain : Chain) (env : Env) : Chain.Task := fun db n i tx =>
  chain.row env n i tx ∈ db.transactions

/-- `transactions` lists transactions of the chain only, and all of those behind the walk. -/
structure MirrorInv (env : Env) (chain : Chain) (s : IndexerState) : Prop where
  cursor : CursorInv s
  rows : FromChain env chain s.db.transactions
  progress : Progress env chain (chain.listed env) s

section Ledger

variable {env : Env} {chain : Chain} {s s' : IndexerState} {e : Event} {es : List Event}

theorem mirrorInv_init : MirrorInv env chain .init :=
  ⟨cursorInv_init, List.forall_mem_nil _, progress_init⟩

/-- A turn of the loop, with what the invariant knows of it. -/
theorem MirrorInv.turn {n head : UInt64} {i : Nat} {tx : LedgerTx} {w : TxWork}
    {works : List TxWork} {faults : TxStmt → Fault} (client : NodeClient)
    (h : MirrorInv env chain s) (hw : s.walker = .ingesting n head (w :: works))
    (ht : Turn env chain n i tx w) (hf : faults .transaction ≠ .refuse) :
    (∀ r ∈ s.db.transactions, r ∈ (processTx env faults client w s.db).db.transactions) ∧
      (∀ r ∈ (processTx env faults client w s.db).db.transactions,
        r ∈ s.db.transactions ∨ chain.Commits n i tx ∧ r = chain.row env n i tx) ∧
      ((processTx env faults client w s.db).crashed = false → chain.Commits n i tx →
        chain.row env n i tx ∈ (processTx env faults client w s.db).db.transactions) := by
  obtain ⟨slot, hshow, hwork⟩ := ht.work
  have hslot : s.db.hasSlot n.toInt64 := h.cursor.walker.row n (by rw [hw]; rfl)
  exact h.rows.turn hshow ht.place hslot hwork hf

/-- No step loses a row, and every new one is of the chain. -/
theorem MirrorInv.transactions {db : Db} (h : MirrorInv env chain s) (he : Honest chain s e)
    (hdb : DbStep env s e db) :
    (∀ r ∈ s.db.transactions, r ∈ db.transactions) ∧ FromChain env chain db.transactions := by
  cases hdb with
  | same => exact ⟨fun r hr => hr, h.rows⟩
  | upsertSlot => exact ⟨fun r hr => hr, h.rows⟩
  | @processTx next head w works client faults hw =>
    obtain ⟨i, tx, ht, -, -⟩ := (h.progress.left (next, w :: works) (by rw [hw]; rfl)).turn
    obtain ⟨hkept, hnew, -⟩ := h.turn client hw ht he
    refine ⟨hkept, fun r hr => ?_⟩
    rcases hnew r hr with hr | ⟨hc, rfl⟩
    · exact h.rows r hr
    · exact ⟨next, i, tx, hc, rfl⟩
  | cursor => exact ⟨fun r hr => hr, h.rows⟩
  | flip => exact ⟨fun r hr => hr, h.rows⟩

theorem mirrorInv_step (h : MirrorInv env chain s) (he : Honest chain s e)
    (hstep : step env s e = some s') : MirrorInv env chain s' := by
  obtain ⟨hkept, hrows⟩ := h.transactions he (step_db hstep)
  refine ⟨cursorInv_step h.cursor he.regular he.headBelowMax hstep, hrows, ?_⟩
  refine h.progress.step he (fun n i tx hr => hkept _ hr) ?_ hstep
  rintro n head i tx w works client faults hw rfl ht hcrash - hc
  exact (h.turn client hw ht he).2.2 hcrash hc

theorem mirrorInv_run (hr : Along (step env) (Honest chain) .init es)
    (hrun : exec (step env) .init es = some s) : MirrorInv env chain s :=
  exec_invariant_along (fun _ _ _ hI he hs => mirrorInv_step hI he hs) mirrorInv_init hr hrun

/-- **The ledger is mirrored.** Every stored row is that of a committed transaction of the chain,
at its place; and every height below `next_height` or up to the cursor was answered 404, or has
the rows of all its committed transactions. -/
theorem ledger_mirrored (hr : Along (step env) (Honest chain) .init es)
    (hrun : exec (step env) .init es = some s) :
    (∀ r ∈ s.db.transactions, ∃ n i tx, chain.Commits n i tx ∧ r = chain.row env n i tx) ∧
      ∀ k : UInt64, 1 ≤ k →
        ((∃ n ∈ s.walker.nextHeight, k < n) ∨ ∃ h ∈ s.db.lastIndexedHeight, k ≤ h) →
        (∃ head, (k, head) ∈ s.notFound) ∨
          ∀ i tx, chain.Commits k i tx → chain.row env k i tx ∈ s.db.transactions := by
  have hinv : MirrorInv env chain s := mirrorInv_run hr hrun
  refine ⟨hinv.rows, fun k hk hpassed => ?_⟩
  rcases hpassed with ⟨n, hn, hlt⟩ | ⟨h, hh, hle⟩
  · exact hinv.progress.passed.next n hn k hk hlt
  · exact hinv.progress.passed.cursor h hh k hk hle

end Ledger

/-! ## A chain of one slot with transactions -/

section OneSlot

/-- Slot 1 registers a set and a schema, every other slot is empty. -/
def registryChainSlot (n : UInt64) : ChainSlot where
  slot := { registrySlot with
    number := n
    batchRange := if n = 1 then registrySlot.batchRange else none }
  batch _ := { txRange := ⟨0, 2⟩, receipt := none }
  tx n :=
    { hash := if n = 0 then "0xaa" else "0xbb", number := n, batchNumber := 0, body := "",
      result := "successful" }
  events := match registryNode.eventsForSlot n with
    | .ok events => events
    | .error _ => []

theorem applied_of_no_batches {c : ChainSlot} (h : c.slot.batchRange = none) : c.applied = [] := by
  simp [ChainSlot.applied, ChainSlot.txs, ChainSlot.batches, h]

section Single

variable {slotAt : UInt64 → ChainSlot}

/-- All transactions lie in slot 1. -/
def SingleSlot (slotAt : UInt64 → ChainSlot) : Prop :=
  ∀ (n : UInt64) (i : Nat) (tx : LedgerTx), (slotAt n).applied[i]? = some tx →
    n = 1 ∧ (slotAt 1).applied[i]? = some tx

theorem singleSlot (h : ∀ n, n ≠ 1 → (slotAt n).slot.batchRange = none) : SingleSlot slotAt := by
  intro n i tx hplace
  by_cases hn : n = 1
  · subst hn
    exact ⟨rfl, hplace⟩
  · rw [applied_of_no_batches (h n hn)] at hplace
    cases hplace

theorem SingleSlot.distinct (h : SingleSlot slotAt)
    (hnodup : ((slotAt 1).applied.map LedgerTx.hash).Nodup) (m n : UInt64) (i j : Nat)
    (tx tx' : LedgerTx) (htx : (slotAt m).applied[i]? = some tx)
    (htx' : (slotAt n).applied[j]? = some tx') (he : tx.hash = tx'.hash) : m = n ∧ i = j := by
  obtain ⟨rfl, htx⟩ := h _ _ _ htx
  obtain ⟨rfl, htx'⟩ := h _ _ _ htx'
  refine ⟨rfl, (List.getElem?_inj ?_ hnodup).1 ?_⟩
  · rw [List.length_map]
    exact (List.getElem?_eq_some_iff.1 htx).1
  · rw [List.getElem?_map, List.getElem?_map, htx, htx', Option.map_some, Option.map_some, he]

theorem SingleSlot.short (h : SingleSlot slotAt) {b : Nat} (hlen : (slotAt 1).applied.length ≤ b)
    (n : UInt64) : (slotAt n).applied.length ≤ b := by
  by_contra hlong
  obtain ⟨hi, -⟩ := List.getElem?_eq_some_iff.1
    (h _ _ _ (List.getElem?_eq_getElem (not_le.1 hlong))).2
  omega

end Single

theorem singleSlot_registryChain : SingleSlot registryChainSlot :=
  singleSlot fun _ hn => by simp [registryChainSlot, hn]

def registryChain : Chain where
  slotAt := registryChainSlot
  number _ := rfl
  distinct := singleSlot_registryChain.distinct (by decide)
  short := singleSlot_registryChain.short (by decide)

theorem registryNode_serves (slot : SlotResponse) :
    Serves registryNode { registryChain.slotAt 1 with slot } where
  events := rfl
  batch _ _ := rfl
  tx _ _ _ _ := rfl

theorem shows_registrySlot : registryChain.Shows 1 registrySlot := ⟨rfl, rfl⟩

theorem honest_rewalkRun : Along (step registryEnv) (Honest registryChain) .init rewalkRun := by
  have hserves : ∀ p ∈ some (1, registrySlot),
      Serves registryNode { registryChain.slotAt p.1 with slot := p.2 } := by
    rintro p ⟨⟩
    exact registryNode_serves registrySlot
  have hhead : (1 : UInt64).toNat + 1 < 2 ^ 64 := by decide
  refine ⟨rfl, ?_⟩
  rintro _ ⟨⟩
  refine ⟨hhead, ?_⟩
  rintro _ ⟨⟩
  refine ⟨⟨1, rfl, shows_registrySlot⟩, ?_⟩
  rintro _ ⟨⟩
  refine ⟨trivial, ?_⟩
  rintro _ ⟨⟩
  refine ⟨hserves, ?_⟩
  rintro _ ⟨⟩
  refine ⟨nofun, ?_⟩
  rintro _ ⟨⟩
  refine ⟨nofun, ?_⟩
  rintro _ ⟨⟩
  refine ⟨trivial, ?_⟩
  rintro _ ⟨⟩
  refine ⟨trivial, ?_⟩
  rintro _ ⟨⟩
  refine ⟨rfl, ?_⟩
  rintro _ ⟨⟩
  refine ⟨hhead, ?_⟩
  rintro _ ⟨⟩
  refine ⟨⟨1, rfl, shows_registrySlot⟩, ?_⟩
  rintro _ ⟨⟩
  refine ⟨trivial, ?_⟩
  rintro _ ⟨⟩
  refine ⟨hserves, ?_⟩
  rintro _ ⟨⟩
  refine ⟨nofun, ?_⟩
  rintro _ ⟨⟩
  refine ⟨nofun, ?_⟩
  rintro _ ⟨⟩
  exact ⟨trivial, fun _ _ => trivial⟩

/-- The slot is walked twice, as its first cursor is lost: both transactions have their rows. -/
theorem ledger_mirrored_rewalked :
    ∃ s, exec (step registryEnv) .init rewalkRun = some s ∧ s.db.lastIndexedHeight = some 1 ∧
      s.db.transactions.length = 2 ∧
      ∀ i tx, registryChain.Commits 1 i tx →
        registryChain.row registryEnv 1 i tx ∈ s.db.transactions := by
  have hcols : (exec (step registryEnv) .init rewalkRun).map
      (fun s => (s.db.lastIndexedHeight, s.db.transactions.length, s.notFound)) =
        some (some 1, 2, []) := by decide
  obtain ⟨s, hs, hcols⟩ := Option.map_eq_some_iff.1 hcols
  simp only [Prod.mk.injEq] at hcols
  obtain ⟨hlast, hlen, hnot⟩ := hcols
  refine ⟨s, hs, hlast, hlen, ?_⟩
  rcases (ledger_mirrored honest_rewalkRun hs).2 1 (by decide) (.inr ⟨1, hlast, by decide⟩) with
    ⟨head, hmem⟩ | h
  · rw [hnot] at hmem
    cases hmem
  · exact h

end OneSlot

end LigateApi.Indexer
