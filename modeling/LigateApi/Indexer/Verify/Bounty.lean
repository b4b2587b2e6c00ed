import LigateApi.Indexer.Verify.SlotRows

/-!
# Bounties under a re-walk

A bounty event hydrates the row from the chain and then adds its own part: nothing, an escrow of
zero, or a claim. The first two are absolute and a re-walk finds them done (`Settled`); a claim is
relative and is added again. Over a whole list of transactions the re-walk leaves the bounties as
they were exactly if no hydrated claim is among them.
-/

namespace LigateApi.Indexer

open Lib

/-! ## Sequences without an error -/

section NoError

variable {stmt : TxStmt} {f : Db → Except DbError Db} {g onOk : TxRun → TxRun} {r : TxRun}

/-- The sequence does not crash. -/
def Steady (g : TxRun → TxRun) : Prop := ∀ r : TxRun, r.crashed = false → (g r).crashed = false

theorem Steady.attempt (hok : Steady onOk) : Steady (TxRun.attempt noFaults stmt f onOk id) := by
  intro r hr
  unfold TxRun.attempt
  simp only [hr, noFaults, Bool.false_eq_true, if_false]
  cases f r.db with
  | ok db => exact hok _ rfl
  | error e => rfl

/-- A statement goes through or is refused. -/
theorem attempt_outcome (hr : r.crashed = false) :
    (∃ db, f r.db = .ok db ∧ TxRun.attempt noFaults stmt f onOk id r = onOk { r with db }) ∨
      (∃ e, f r.db = .error e) ∧ (TxRun.attempt noFaults stmt f onOk id r).db = r.db := by
  unfold TxRun.attempt
  simp only [hr, noFaults, Bool.false_eq_true, if_false]
  cases f r.db with
  | ok db => exact .inl ⟨db, rfl, rfl⟩
  | error e => exact .inr ⟨⟨e, rfl⟩, rfl⟩

/-- A statement that did not fail went through. -/
theorem attempt_eq_ok (hr : r.crashed = false)
    (h : (TxRun.attempt noFaults stmt f onOk id r).failed = []) :
    ∃ db, f r.db = .ok db ∧ TxRun.attempt noFaults stmt f onOk id r = onOk { r with db } := by
  unfold TxRun.attempt at h ⊢
  simp only [hr, noFaults, Bool.false_eq_true, if_false] at h ⊢
  cases hf : f r.db with
  | ok db => exact ⟨db, rfl, rfl⟩
  | error e =>
    rw [hf] at h
    simp at h

theorem steady_countActivity {role : AddressRole} {w : TxWork} {address : Option String}
    (hg : Steady g) : Steady (countActivity noFaults stmt role w address g) := by
  cases address with
  | none => exact hg
  | some a => exact Steady.attempt hg

theorem steady_updateAddressSummaries (w : TxWork) : Steady (updateAddressSummaries noFaults w) :=
  steady_countActivity (steady_countActivity fun _ h => h)

end NoError

/-! ## What a transaction does to the bounties -/

/-- `upsert_bounty` on the table. -/
def hydrateTable (row : BountyRow) (t : List BountyRow) : List BountyRow :=
  Table.upsert BountyRow.id row (mergeBountyRow row) t

def zeroEscrow (r : BountyRow) : BountyRow := { r with escrowRemainingNano := "0" }

def claimRow (escrow : String) (claims : Int32) (slot : UInt64) (r : BountyRow) : BountyRow :=
  { r with escrowRemainingNano := escrow, claimCount := claims,
           lastClaimAtSlot := some slot.toInt64 }

def BountyEventKind.terminal : BountyEventKind → Prop
  | .expired | .finalised => True
  | .posted | .claimed _ _ | .disputed | .disputeResolved => False

/-- The transaction is an event of bounty `id` and the chain returns its record. -/
structure Hydrated (client : NodeClient) (w : TxWork) (id : String) (kind : BountyEventKind)
    (record : BountyRecord) : Prop where
  kind : w.classified.kind = .bountyEvent id kind
  record : client.bountyAt id = .ok (some record)

def TxWork.bountyRow (w : TxWork) (id : String) (record : BountyRecord) : BountyRow :=
  Indexer.bountyRow id record w.slotNumber w.classified.hash w.timestamp

/-- The bounties before and after a hydrated event. -/
inductive BountyStep (w : TxWork) (id : String) (record : BountyRecord) (t t' : List BountyRow) :
    BountyEventKind → Prop
  | refresh {kind : BountyEventKind} (hk : ¬ kind.terminal) (hc : ∀ n p, kind ≠ .claimed n p)
      (h : t' = hydrateTable (w.bountyRow id record) t) : BountyStep w id record t t' kind
  | settle {kind : BountyEventKind} (hk : kind.terminal)
      (h : t' = Table.update BountyRow.id id zeroEscrow
        (hydrateTable (w.bountyRow id record) t)) : BountyStep w id record t t' kind
  | claim (n : UInt32) (p escrow : String) (r : BountyRow) (claims : Int32)
      (hr : Table.lookup BountyRow.id id (hydrateTable (w.bountyRow id record) t) = some r)
      (hn : claims.toInt = r.claimCount.toInt + (clampInt32 n).toInt)
      (h : t' = Table.update BountyRow.id id (claimRow escrow claims w.slotNumber)
        (hydrateTable (w.bountyRow id record) t)) : BountyStep w id record t t' (.claimed n p)

theorem lookup_hydrateTable {row : BountyRow} {t : List BountyRow} {id : String} :
    Table.lookup BountyRow.id id (hydrateTable row t) =
      if id = row.id then some ((Table.lookup BountyRow.id id t).elim row (mergeBountyRow row))
      else Table.lookup BountyRow.id id t :=
  Table.lookup_upsert fun _ => rfl

section Step

variable {env : Env} {client : NodeClient} {w : TxWork} {db : Db} {id : String}
  {kind : BountyEventKind} {record : BountyRecord}

theorem bountyStep_delta {r : TxRun} {t : List BountyRow} (hr : r.crashed = false)
    (ht : r.db.bounties = hydrateTable (w.bountyRow id record) t)
    (h : (bountyDelta env noFaults w id kind r).failed = []) :
    BountyStep w id record t (bountyDelta env noFaults w id kind r).db.bounties kind := by
  have hzero : ∀ k : BountyEventKind, k.terminal →
      (bountyDelta env noFaults w id .expired r).failed = [] →
      BountyStep w id record t (bountyDelta env noFaults w id .expired r).db.bounties k := by
    intro k hk h
    obtain ⟨db, hdb, heq⟩ := attempt_eq_ok hr h
    cases hdb
    refine .settle hk ?_
    rw [bountyDelta, heq, ← ht]
    rfl
  cases kind with
  | posted => exact .refresh (fun h => h) nofun ht
  | disputed => exact .refresh (fun h => h) nofun ht
  | disputeResolved => exact .refresh (fun h => h) nofun ht
  | expired => exact hzero _ trivial h
  | finalised => exact hzero _ trivial h
  | claimed n p =>
    obtain ⟨db, hdb, heq⟩ := attempt_eq_ok hr h
    rw [bountyDelta, heq]
    rcases applyBountyClaim_ok hdb with ⟨hnone, -⟩ | ⟨row, escrow, claims, hl, hn, rfl⟩
    · have hid : id = (w.bountyRow id record).id := rfl
      rw [ht, lookup_hydrateTable, if_pos hid] at hnone
      cases hnone
    · rw [ht] at hl
      refine .claim n p escrow row claims hl hn ?_
      rw [← ht]
      rfl

/-- The resource rows of a hydrated event. -/
theorem bountyStep_insertResourceRows {r : TxRun} (hr : r.crashed = false)
    (hy : Hydrated client w id kind record)
    (h : (insertResourceRows env noFaults client w r).failed = []) :
    BountyStep w id record r.db.bounties
      (insertResourceRows env noFaults client w r).db.bounties kind := by
  unfold insertResourceRows at h ⊢
  simp only [hy.kind, hy.record] at h ⊢
  obtain ⟨db, hdb, heq⟩ := attempt_eq_ok hr h
  rw [heq] at h ⊢
  exact bountyStep_delta hr (by rw [(upsertBounty_ok hdb).2]; rfl) h

theorem insertResourceRows_not_hydrated {r : TxRun}
    (hy : ∀ id kind record, ¬ Hydrated client w id kind record) :
    (insertResourceRows env noFaults client w r).db.bounties = r.db.bounties := by
  by_cases hb : ∃ id kind, w.classified.kind = .bountyEvent id kind
  · obtain ⟨id, kind, hk⟩ := hb
    unfold insertResourceRows
    simp only [hk]
    cases hrec : client.bountyAt id with
    | error e => rfl
    | ok found =>
      cases found with
      | none => rfl
      | some record => exact absurd ⟨hk, hrec⟩ (hy id kind record)
  · exact keeps_insertResourceRows ⟨fun _ _ => rfl, fun _ _ => rfl, fun _ _ => rfl,
      schemasOwned_ignored fun _ _ => rfl, fun id kind hk => absurd ⟨id, kind, hk⟩ hb,
      fun _ _ _ _ _ => rfl⟩ r

/-- **One transaction**, without an error. -/
theorem bounties_cases (h : (processTx env noFaults client w db).failed = []) :
    ((∀ id kind record, ¬ Hydrated client w id kind record) ∧
      (processTx env noFaults client w db).db.bounties = db.bounties) ∨
    ∃ id kind record, Hydrated client w id kind record ∧
      BountyStep w id record db.bounties (processTx env noFaults client w db).db.bounties kind := by
  obtain ⟨db', htx, heq⟩ := attempt_eq_ok rfl h
  rw [processTx] at h ⊢
  rw [heq] at h ⊢
  -- the transaction's own row and the summaries leave the bounties alone
  have hsum : Keeps Db.bounties (updateAddressSummaries noFaults w) :=
    keeps_updateAddressSummaries fun _ _ => rfl
  have hbefore : (updateAddressSummaries noFaults w { db := db' }).db.bounties = db.bounties := by
    rw [hsum, insertTransaction_frame htx]
  have hlive := steady_updateAddressSummaries w { db := db' } rfl
  by_cases hy : ∃ id kind record, Hydrated client w id kind record
  · obtain ⟨id, kind, record, hy⟩ := hy
    refine .inr ⟨id, kind, record, hy, ?_⟩
    rw [← hbefore]
    exact bountyStep_insertResourceRows hlive hy h
  · have hy : ∀ id kind record, ¬ Hydrated client w id kind record :=
      fun id kind record h => hy ⟨id, kind, record, h⟩
    exact .inl ⟨hy, (insertResourceRows_not_hydrated hy).trans hbefore⟩

end Step

/-! ## Settled events -/

/-- What a hydrated event leaves in a row, a claim apart. -/
def SettledRow (w : TxWork) (id : String) (kind : BountyEventKind) (record : BountyRecord)
    (r : BountyRow) : Prop :=
  mergeBountyRow (w.bountyRow id record) r = r ∧ (kind.terminal → zeroEscrow r = r)

/-- What `w` does to the bounties, a claim apart, is done. -/
def Settled (client : NodeClient) (w : TxWork) (t : List BountyRow) : Prop :=
  ∀ id kind record, Hydrated client w id kind record →
    Table.HoldsAt BountyRow.id id (SettledRow w id kind record) t

/-- The transaction is a claim on a bounty the chain returns. -/
def HydratedClaim (client : NodeClient) (w : TxWork) : Prop :=
  ∃ id n p record, Hydrated client w id (.claimed n p) record

section Settled

variable {client : NodeClient} {w v : TxWork} {t t' : List BountyRow} {id : String}
  {kind : BountyEventKind} {record : BountyRecord}

theorem Hydrated.unique {id' : String} {kind' : BountyEventKind} {record' : BountyRecord}
    (h : Hydrated client w id kind record) (h' : Hydrated client w id' kind' record') :
    id = id' ∧ kind = kind' ∧ record = record' := by
  have hk := h.kind.symm.trans h'.kind
  cases hk
  have hr := h.record.symm.trans h'.record
  cases hr
  exact ⟨rfl, rfl, rfl⟩

/-- The event itself settles. -/
theorem settled_self (hc : ¬ HydratedClaim client w) (hy : Hydrated client w id kind record)
    (h : BountyStep w id record t t' kind) : Settled client w t' := by
  intro id' kind' record' hy'
  obtain ⟨rfl, rfl, rfl⟩ := hy.unique hy'
  have hrow : Table.HoldsAt BountyRow.id id
      (fun r => mergeBountyRow (w.bountyRow id record) r = r)
      (hydrateTable (w.bountyRow id record) t) :=
    Table.holdsAt_upsert_self (fun _ => rfl) rfl fun _ => rfl
  cases h with
  | refresh hk _ h =>
    rw [h]
    exact ⟨hrow.1, fun r hr hid => ⟨hrow.2 r hr hid, fun hterm => absurd hterm hk⟩⟩
  | settle hk h =>
    rw [h]
    exact hrow.update_self (fun _ => rfl) fun r hr => ⟨congrArg zeroEscrow hr, fun _ => rfl⟩
  | claim n p => exact absurd ⟨_, n, p, _, hy⟩ hc

/-- No other event undoes it: the chain returns the same record. -/
theorem settled_other (hc : ¬ HydratedClaim client v) (hy : Hydrated client v id kind record)
    (h : BountyStep v id record t t' kind) (hs : Settled client w t) : Settled client w t' := by
  intro id' kind' record' hy'
  have hmerge : Table.HoldsAt BountyRow.id id' (SettledRow w id' kind' record')
      (hydrateTable (v.bountyRow id record) t) := by
    refine (hs id' kind' record' hy').upsert (fun _ => rfl) fun hid r hr => ?_
    obtain rfl : id = id' := hid
    have hrec := hy.record.symm.trans hy'.record
    cases hrec
    exact ⟨rfl, fun hterm => congrArg (mergeBountyRow (v.bountyRow id record)) (hr.2 hterm)⟩
  cases h with
  | refresh _ _ h =>
    rw [h]
    exact hmerge
  | settle _ h =>
    rw [h]
    exact hmerge.update (fun _ => rfl) fun _ r hr => ⟨congrArg zeroEscrow hr.1, fun _ => rfl⟩
  | claim n p => exact absurd ⟨_, n, p, _, hy⟩ hc

/-- A settled event changes nothing. -/
theorem eq_of_settled (hc : ¬ HydratedClaim client w) (hy : Hydrated client w id kind record)
    (h : BountyStep w id record t t' kind) (hs : Settled client w t) : t' = t := by
  have hat := hs id kind record hy
  have hsame : hydrateTable (w.bountyRow id record) t = t :=
    Table.HoldsAt.upsert_eq_self ⟨hat.1, fun r hr hid => (hat.2 r hr hid).1⟩
  cases h with
  | refresh _ _ h => rw [h, hsame]
  | settle hk h =>
    rw [h, hsame]
    exact Table.update_eq_self fun r hr hid => (hat.2 r hr hid).2 hk
  | claim n p => exact absurd ⟨_, n, p, _, hy⟩ hc

end Settled

/-! ## Claims -/

/-- The claim count of a bounty that has a row. -/
def claimsOf (id : String) (t : List BountyRow) : Option Int :=
  (Table.lookup BountyRow.id id t).map fun r => r.claimCount.toInt

theorem clampInt32_pos {n : UInt32} (h : n ≠ 0) : 0 < (clampInt32 n).toInt := by
  unfold clampInt32
  have hn : 0 < n.toNat := by
    rcases Nat.eq_zero_or_pos n.toNat with h0 | h0
    · exact absurd (UInt32.toNat.inj h0) h
    · exact h0
  split
  · rename_i hlt
    have hofNat : n.toInt32 = Int32.ofNat n.toNat := by
      rw [← UInt32.toInt32_ofNat', UInt32.ofNat_toNat]
    rw [hofNat, Int32.toInt_ofNat_of_lt hlt]
    omega
  · decide

section Claims

variable {client : NodeClient} {w : TxWork} {t t' : List BountyRow} {id k : String}
  {kind : BountyEventKind} {record : BountyRecord} {c : Int}

theorem claimsOf_hydrateTable {row : BountyRow} (h : claimsOf k t = some c) :
    claimsOf k (hydrateTable row t) = some c := by
  unfold claimsOf at h ⊢
  obtain ⟨r, hr, hc⟩ := Option.map_eq_some_iff.1 h
  rw [lookup_hydrateTable, hr]
  split
  · exact congrArg some hc
  · exact congrArg some hc

theorem claimsOf_update {f : BountyRow → BountyRow} (hf : ∀ r, (f r).id = r.id) :
    claimsOf k (Table.update BountyRow.id id f t) =
      if k = id then (Table.lookup BountyRow.id k t).map fun r => (f r).claimCount.toInt
      else claimsOf k t := by
  unfold claimsOf
  rw [Table.lookup_update hf]
  split
  · rw [Option.map_map]
    rfl
  · rfl

/-- No event lowers a claim count, and a claim raises it. -/
theorem claimsOf_step (h : BountyStep w id record t t' kind) (hk : claimsOf k t = some c) :
    ∃ c', claimsOf k t' = some c' ∧ c ≤ c' ∧ ∀ n p, kind = .claimed n p → n ≠ 0 → k = id → c < c' := by
  have hh : claimsOf k (hydrateTable (w.bountyRow id record) t) = some c := claimsOf_hydrateTable hk
  cases h with
  | refresh _ hc h =>
    rw [h]
    exact ⟨c, hh, Int.le_refl c, fun n p hkind => absurd hkind (hc n p)⟩
  | settle hterm h =>
    refine ⟨c, ?_, Int.le_refl c, ?_⟩
    · rw [h, claimsOf_update (f := zeroEscrow) fun _ => rfl]
      split
      · exact hh
      · exact hh
    · rintro n p rfl
      exact absurd hterm fun h => h
  | claim n p escrow r claims hr hn h =>
    rw [h, claimsOf_update (f := claimRow escrow claims w.slotNumber) fun _ => rfl]
    by_cases hid : k = id
    · subst hid
      rw [if_pos rfl, hr]
      have hc : r.claimCount.toInt = c := by
        rw [claimsOf, hr] at hh
        exact Option.some.inj hh
      refine ⟨claims.toInt, rfl, ?_, ?_⟩
      · have hzero : (clampInt32 0).toInt = 0 := by decide
        rcases eq_or_ne n 0 with rfl | hn0
        · omega
        · have := clampInt32_pos hn0
          omega
      · rintro n' p' hkind hn0 -
        cases hkind
        have := clampInt32_pos hn0
        omega
    · rw [if_neg hid]
      exact ⟨c, hh, Int.le_refl c, fun _ _ _ _ he => absurd he hid⟩

/-- After a hydrated event the bounty has a row. -/
theorem claimsOf_hydrated (h : BountyStep w id record t t' kind) : ∃ c, claimsOf id t' = some c := by
  have hid : id = (w.bountyRow id record).id := rfl
  obtain ⟨r, hr⟩ : ∃ r, Table.lookup BountyRow.id id
      (hydrateTable (w.bountyRow id record) t) = some r :=
    ⟨_, by rw [lookup_hydrateTable, if_pos hid]⟩
  cases h with
  | refresh _ _ h =>
    rw [h, claimsOf, hr]
    exact ⟨_, rfl⟩
  | settle _ h =>
    rw [h, claimsOf_update (f := zeroEscrow) fun _ => rfl, if_pos rfl, hr]
    exact ⟨_, rfl⟩
  | claim n p escrow r' claims _ _ h =>
    rw [h, claimsOf_update (f := claimRow escrow claims w.slotNumber) fun _ => rfl, if_pos rfl, hr]
    exact ⟨_, rfl⟩

end Claims

/-! ## Walks -/

/-- No statement of the walk fails. -/
def NoError (env : Env) (client : NodeClient) : List TxWork → Db → Prop
  | [], _ => True
  | w :: ws, db => (processTx env noFaults client w db).failed = [] ∧
      NoError env client ws (processTx env noFaults client w db).db

/-- The kind of `w` was read off fewer than `2 ^ 32` events. -/
def FromEvents (env : Env) (w : TxWork) : Prop :=
  ∃ events : List LedgerEvent, events.length < 2 ^ 32 ∧
    w.classified.kind = classifyEvents env.codec env.serde events

section Walks

variable {env : Env} {client : NodeClient} {ws : List TxWork} {db : Db}

theorem settled_writeAll {w : TxWork} (hc : ∀ v ∈ ws, ¬ HydratedClaim client v)
    (h : NoError env client ws db) (hs : Settled client w db.bounties) :
    Settled client w (writeAll env client ws db).bounties := by
  induction ws generalizing db with
  | nil => exact hs
  | cons v ws ih =>
    refine ih (fun u hu => hc u (List.mem_cons_of_mem v hu)) h.2 ?_
    rcases bounties_cases h.1 with ⟨-, hsame⟩ | ⟨id, kind, record, hy, hstep⟩
    · rw [hsame]
      exact hs
    · exact settled_other (hc v List.mem_cons_self) hy hstep hs

/-- A walk without claims settles all of its transactions. -/
theorem settled_of_mem (hc : ∀ v ∈ ws, ¬ HydratedClaim client v) (h : NoError env client ws db) :
    ∀ w ∈ ws, Settled client w (writeAll env client ws db).bounties := by
  induction ws generalizing db with
  | nil => exact fun w hw => absurd hw List.not_mem_nil
  | cons v ws ih =>
    have hc' : ∀ u ∈ ws, ¬ HydratedClaim client u := fun u hu => hc u (List.mem_cons_of_mem v hu)
    intro w hw
    rcases List.mem_cons.1 hw with rfl | hw
    · rw [writeAll_cons]
      apply settled_writeAll hc' h.2
      rcases bounties_cases h.1 with ⟨hno, -⟩ | ⟨id, kind, record, hy, hstep⟩
      · exact fun id kind record hy => absurd hy (hno id kind record)
      · exact settled_self (hc w List.mem_cons_self) hy hstep
    · exact ih hc' h.2 w hw

theorem bounties_of_settled (hc : ∀ v ∈ ws, ¬ HydratedClaim client v)
    (h : NoError env client ws db) (hs : ∀ w ∈ ws, Settled client w db.bounties) :
    (writeAll env client ws db).bounties = db.bounties := by
  induction ws generalizing db with
  | nil => rfl
  | cons v ws ih =>
    have hsame : (processTx env noFaults client v db).db.bounties = db.bounties := by
      rcases bounties_cases h.1 with ⟨-, hsame⟩ | ⟨id, kind, record, hy, hstep⟩
      · exact hsame
      · exact eq_of_settled (hc v List.mem_cons_self) hy hstep (hs v List.mem_cons_self)
    refine (ih (fun u hu => hc u (List.mem_cons_of_mem v hu)) h.2 fun w hw => ?_).trans hsame
    rw [hsame]
    exact hs w (List.mem_cons_of_mem v hw)

/-- The claim counts over a walk. -/
theorem claimsOf_writeAll {k : String} {c : Int} (h : NoError env client ws db)
    (hk : claimsOf k db.bounties = some c) :
    ∃ c', claimsOf k (writeAll env client ws db).bounties = some c' ∧ c ≤ c' ∧
      ∀ w ∈ ws, ∀ n p record, Hydrated client w k (.claimed n p) record → n ≠ 0 → c < c' := by
  induction ws generalizing db c with
  | nil => exact ⟨c, hk, Int.le_refl c, fun w hw => absurd hw List.not_mem_nil⟩
  | cons v ws ih =>
    rcases bounties_cases h.1 with ⟨hno, hsame⟩ | ⟨id, kind, record, hy, hstep⟩
    · obtain ⟨c', hc', hle, hlt⟩ := ih h.2 (hsame ▸ hk)
      refine ⟨c', hc', hle, fun w hw n p record hw' => ?_⟩
      rcases List.mem_cons.1 hw with rfl | hw
      · exact absurd hw' (hno _ _ _)
      · exact hlt w hw n p record hw'
    · obtain ⟨c₁, hc₁, hle₁, hlt₁⟩ := claimsOf_step hstep hk
      obtain ⟨c', hc', hle, hlt⟩ := ih h.2 hc₁
      refine ⟨c', hc', Int.le_trans hle₁ hle, fun w hw n p record hw' hn => ?_⟩
      rcases List.mem_cons.1 hw with rfl | hw
      · obtain ⟨rfl, rfl, -⟩ := hy.unique hw'
        exact Int.lt_of_lt_of_le (hlt₁ n p rfl hn rfl) hle
      · exact Int.lt_of_le_of_lt hle₁ (hlt w hw n p record hw' hn)

theorem claimsOf_of_mem {w : TxWork} {id : String} {kind : BountyEventKind} {record : BountyRecord}
    (h : NoError env client ws db) (hw : w ∈ ws) (hy : Hydrated client w id kind record) :
    ∃ c, claimsOf id (writeAll env client ws db).bounties = some c := by
  induction ws generalizing db with
  | nil => cases hw
  | cons v ws ih =>
    rcases List.mem_cons.1 hw with rfl | hw
    · rcases bounties_cases h.1 with ⟨hno, -⟩ | ⟨id', kind', record', hy', hstep⟩
      · exact absurd hy (hno _ _ _)
      · obtain ⟨rfl, rfl, rfl⟩ := hy.unique hy'
        obtain ⟨c, hc⟩ := claimsOf_hydrated hstep
        obtain ⟨c', hc', -⟩ := claimsOf_writeAll h.2 hc
        exact ⟨c', hc'⟩
    · exact ih h.2 hw

/-- The first walk and the re-walk hydrate the same records. -/
theorem hydrated_congr {client₁ client₂ : NodeClient} (h : client₂.bountyAt = client₁.bountyAt)
    {w : TxWork} {id : String} {kind : BountyEventKind} {record : BountyRecord} :
    Hydrated client₂ w id kind record ↔ Hydrated client₁ w id kind record :=
  ⟨fun hy => ⟨hy.kind, h ▸ hy.record⟩, fun hy => ⟨hy.kind, h ▸ hy.record⟩⟩

/-- **Re-walking bounty events.** -/
theorem rewalk_bounties_iff {client₁ client₂ : NodeClient}
    (hsame : client₂.bountyAt = client₁.bountyAt) (hev : ∀ w ∈ ws, FromEvents env w)
    (h₁ : NoError env client₁ ws db)
    (h₂ : NoError env client₂ ws (writeAll env client₁ ws db)) :
    (writeAll env client₂ ws (writeAll env client₁ ws db)).bounties =
        (writeAll env client₁ ws db).bounties ↔
      ∀ w ∈ ws, ¬ HydratedClaim client₁ w := by
  constructor
  · rintro heq w hw ⟨id, n, p, record, hy⟩
    obtain ⟨events, hlen, hkind⟩ := hev w hw
    have hn : n ≠ 0 := classifyEvents_claimed _ _ hlen (hkind.symm.trans hy.kind)
    obtain ⟨c, hc⟩ := claimsOf_of_mem h₁ hw hy
    obtain ⟨c', hc', -, hlt⟩ := claimsOf_writeAll h₂ hc
    rw [heq, hc] at hc'
    have := hlt w hw n p record ((hydrated_congr hsame).2 hy) hn
    rw [Option.some.inj hc'] at this
    exact absurd this (Int.lt_irrefl _)
  · intro hc
    have hc₂ : ∀ w ∈ ws, ¬ HydratedClaim client₂ w := by
      rintro w hw ⟨id, n, p, record, hy⟩
      exact hc w hw ⟨id, n, p, record, (hydrated_congr hsame).1 hy⟩
    apply bounties_of_settled hc₂ h₂
    intro w hw id kind record hy
    exact settled_of_mem hc h₁ w hw id kind record ((hydrated_congr hsame).1 hy)

end Walks

/-! ## A bounty on one board -/

/-- A database with slot 7 and the board schema of the bounty. -/
def boardDb : Db :=
  { Db.empty with
    slots := [{ height := 7, hash := "0x07", prevHash := none, stateRoot := none, timestamp := 0,
                batchCount := 1, txCount := 2, proposer := none,
                finalityStatus := some "pending", finalizedAt := none, daBlockHeight := none }]
    transactions := [{ hash := "0x01", slot := 7, position := 0, sender := none,
                       senderPubkey := none, nonce := none, feePaidNano := some 0,
                       protocolFeeNano := none, kind := "unknown", details := .null,
                       outcome := "committed", revertReason := none }]
    attestorSets := [{ id := "las1", members := ["lpk1"], threshold := 1, registeredAtSlot := 7,
                       registeredAtTx := "0x01", registeredAtTimestamp := 0, schemaCount := 1 }]
    schemas := [{ id := "lsc1", name := "board", version := 1, owner := "lig1o",
                  attestorSetId := "las1", feeRoutingBps := 0, feeRoutingAddr := none,
                  payloadShapeHash := "0x00", registeredAtSlot := 7, registeredAtTx := "0x01",
                  registeredAtTimestamp := 0, attestationCount := 0 }] }

/-- The chain knows bounty `lbt1`, with a pool of 100. -/
def bountyNode : NodeClient where
  eventsForSlot _ := .ok []
  batchAt _ := .ok none
  txAtNumber _ := .ok none
  bountyAt id := .ok <| if id = "lbt1" then
    some { poster := "lig1p", boardSchemaId := "lsc1", pool := "100", perAttestation := "30",
           acceptance := .null, expiryDaHeight := 90, disputeWindowBlocks := 5, status := "Open" }
    else none
  contractAt _ := .ok none

/-- The payload of a posted or an expired bounty. -/
def bountyEventId : BountyPayload → Json → Option String
  | .posted, .obj [("BountyPosted",
      .obj [("bounty_id", .str id), ("poster", .str _), ("pool", .str _)])] => some id
  | .expired, .obj [("BountyExpired",
      .obj [("bounty_id", .str id), ("refunded_to_poster", .str _)])] => some id
  | _, _ => none

def bountyEnv : Env where
  codec := ⟨fun _ => none, fun _ _ => none, fun _ => none, fun bytes => bytes⟩
  serde := ⟨fun _ => none, fun _ => none, fun _ => none, fun _ => none, bountyEventId,
    fun _ _ => none, fun _ => none, fun _ => "null"⟩
  numericSub
    | "100", "30" => some "70"
    | "70", "30" => some "40"
    | _, _ => none
  numericChainId := 1

def bountyWork (hash : String) (position : Int32) (kind : BountyEventKind) : TxWork where
  classified :=
    { hash, batchNumber := 4, globalTxNumber := 10, outcome := .committed,
      kind := .bountyEvent "lbt1" kind }
  position := position
  decoded := none
  slotNumber := 7
  timestamp := 0

def postedAndExpired : List TxWork := [bountyWork "0xaa" 1 .posted, bountyWork "0xbb" 2 .expired]

theorem postedAndExpired_unchanged :
    (writeAll bountyEnv bountyNode postedAndExpired
        (writeAll bountyEnv bountyNode postedAndExpired boardDb)).bounties =
      (writeAll bountyEnv bountyNode postedAndExpired boardDb).bounties := by
  have h₁ : NoError bountyEnv bountyNode postedAndExpired boardDb := ⟨rfl, rfl, trivial⟩
  have h₂ : NoError bountyEnv bountyNode postedAndExpired
      (writeAll bountyEnv bountyNode postedAndExpired boardDb) := ⟨rfl, rfl, trivial⟩
  refine (rewalk_bounties_iff rfl ?_ h₁ h₂).2 ?_
  · intro w hw
    rcases List.mem_cons.1 hw with rfl | hw
    · exact ⟨[⟨"Bounty/BountyPosted", .obj [("BountyPosted", .obj [("bounty_id", .str "lbt1"),
        ("poster", .str "lig1p"), ("pool", .str "100")])], "0xaa"⟩], by decide, rfl⟩
    · rw [List.mem_singleton.1 hw]
      exact ⟨[⟨"Bounty/BountyExpired", .obj [("BountyExpired", .obj [("bounty_id", .str "lbt1"),
        ("refunded_to_poster", .str "100")])], "0xbb"⟩], by decide, rfl⟩
  · rintro w hw ⟨id, n, p, record, hy⟩
    have hk := hy.kind
    rcases List.mem_cons.1 hw with rfl | hw
    · cases hk
    · rw [List.mem_singleton.1 hw] at hk
      cases hk

/-- One claim of 30 on the pool of 100. -/
def claimOfThirty : List TxWork := [bountyWork "0xaa" 1 (.claimed 1 "30")]

theorem claimOfThirty_counted_twice :
    NoError bountyEnv bountyNode claimOfThirty boardDb ∧
      NoError bountyEnv bountyNode claimOfThirty
        (writeAll bountyEnv bountyNode claimOfThirty boardDb) ∧
      ((writeAll bountyEnv bountyNode claimOfThirty boardDb).bounties.map
        fun r => (r.escrowRemainingNano, r.claimCount)) = [("70", 1)] ∧
      ((writeAll bountyEnv bountyNode claimOfThirty
          (writeAll bountyEnv bountyNode claimOfThirty boardDb)).bounties.map
        fun r => (r.escrowRemainingNano, r.claimCount)) = [("40", 2)] ∧
      (writeAll bountyEnv bountyNode claimOfThirty
          (writeAll bountyEnv bountyNode claimOfThirty boardDb)).bounties ≠
        (writeAll bountyEnv bountyNode claimOfThirty boardDb).bounties := by
  refine ⟨⟨rfl, trivial⟩, ⟨rfl, trivial⟩, rfl, rfl, fun h => ?_⟩
  have hcounts := congrArg (List.map BountyRow.claimCount) h
  exact absurd hcounts (by decide)

end LigateApi.Indexer
