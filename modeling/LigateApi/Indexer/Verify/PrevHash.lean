import LigateApi.Indexer.Verify.Cursor
import LigateApi.Indexer.Verify.Finality

/-!
# Parent hashes

`prev_hash` is read from the table that is being built, and a failing read counts as no hash. On a
chain whose hashes do not change this never stores a wrong parent (`Linked`): what is read is the
hash of the slot below, whatever has failed before, and `COALESCE` keeps only such values. Over
heights walked one after the other every slot but the first finds its parent stored (`WalkedFrom`).
-/

namespace LigateApi.Indexer

open Lib Lib.Run

/-! ## The chain -/

/-- The answer agrees with the chain `H`: the slot has its hash, and no parent hash or that of the
slot below. -/
def SlotResponse.OnChain (H : UInt64 → String) (slot : SlotResponse) : Prop :=
  slot.hash = H slot.number ∧
    ∀ p ∈ slot.prevHash, slot.number ≠ 0 ∧ p = H (slot.number - 1)

/-- Every slot the node returns to the forward walk is on the chain. -/
def Event.OnChain (H : UInt64 → String) : Event → Prop
  | .slotAt (.ok (some slot)) => slot.OnChain H
  | _ => True

/-- Every stored slot has its hash, and no parent hash or that of the slot below. -/
def Linked (H : UInt64 → String) (db : Db) : Prop :=
  ∀ height row, db.slotAt (UInt64.toInt64 height) = some row →
    row.hash = H height ∧ ∀ p ∈ row.prevHash, height ≠ 0 ∧ p = H (height - 1)

/-! ## The writes -/

theorem toInt64_injective {m n : UInt64} (h : m.toInt64 = n.toInt64) : m = n := by
  rw [← UInt64.toUInt64_toInt64 m, h, UInt64.toUInt64_toInt64]

section Writes

variable {H : UInt64 → String} {db : Db} {slot : SlotResponse} {lookupOk : Bool}

/-- The parent hash `upsert_slot` binds is the chain's. -/
theorem Linked.slotPrevHash (hdb : Linked H db) (hslot : slot.OnChain H) :
    ∀ p ∈ slotPrevHash db slot lookupOk, slot.number ≠ 0 ∧ p = H (slot.number - 1) := by
  intro p hp
  unfold Indexer.slotPrevHash at hp
  split at hp
  · rename_i h hprev
    cases hp
    exact hslot.2 p hprev
  · split at hp
    · rename_i hlookup
      obtain ⟨row, hrow, rfl⟩ := Option.map_eq_some_iff.1 hp
      refine ⟨?_, (hdb _ row hrow).1⟩
      intro hzero
      rw [hzero] at hlookup
      exact absurd hlookup.1 (by decide)
    · cases hp

theorem Linked.upsertSlot {proposer : Option String} {daBlockHeight : Option Int64} {now : Int}
    (hdb : Linked H db) (hslot : slot.OnChain H) :
    Linked H (upsertSlot slot proposer daBlockHeight now lookupOk db) := by
  intro height row hrow
  rw [slotAt_upsertSlot] at hrow
  split at hrow
  · rename_i hheight
    have hn : height = slot.number := toInt64_injective hheight
    subst hn
    have hprev : ∀ p ∈ Indexer.slotPrevHash db slot lookupOk,
        slot.number ≠ 0 ∧ p = H (slot.number - 1) := hdb.slotPrevHash hslot
    cases hold : db.slotAt slot.number.toInt64 with
    | none =>
      rw [hold, Option.elim_none, Option.some.injEq] at hrow
      subst hrow
      exact ⟨hslot.1, hprev⟩
    | some old =>
      rw [hold, Option.elim_some, Option.some.injEq] at hrow
      subst hrow
      refine ⟨hslot.1, ?_⟩
      intro p hp
      rcases Option.or_eq_some_iff.1 hp with hnew | ⟨-, hkept⟩
      · exact hprev p hnew
      · exact (hdb _ old hold).2 p hkept
  · exact hdb height row hrow

/-- A flip keeps both hashes. -/
theorem slotAt_flip_hashes {h : UInt64} {now : Int} {height : Int64} {row : SlotRow}
    (hrow : (flipPendingSlot h now db).slotAt height = some row) :
    ∃ old, db.slotAt height = some old ∧ row.hash = old.hash ∧ row.prevHash = old.prevHash := by
  rw [slotAt_flipPendingSlot] at hrow
  split at hrow
  · obtain ⟨old, hold, rfl⟩ := Option.map_eq_some_iff.1 hrow
    refine ⟨old, hold, ?_⟩
    split <;> exact ⟨rfl, rfl⟩
  · exact ⟨row, hrow, rfl, rfl⟩

theorem Linked.flip {h : UInt64} {now : Int} (hdb : Linked H db) :
    Linked H (flipPendingSlot h now db) := by
  intro height row hrow
  obtain ⟨old, hold, hhash, hprev⟩ := slotAt_flip_hashes hrow
  rw [hhash, hprev]
  exact hdb height old hold

theorem Linked.of_slots {db' : Db} (hdb : Linked H db) (h : db'.slots = db.slots) :
    Linked H db' := by
  intro height row hrow
  rw [Db.slotAt, h] at hrow
  exact hdb height row hrow

end Writes

/-! ## No wrong parent -/

/-- The stored slots are linked, and so will be the one about to be written. -/
structure ChainInv (H : UInt64 → String) (s : IndexerState) : Prop where
  linked : Linked H s.db
  snapshot : ∀ slot ∈ s.walker.snapshot, slot.OnChain H

section Chain

variable {env : Env} {H : UInt64 → String} {s s' : IndexerState} {e : Event}

theorem chainInv_init : ChainInv H IndexerState.init where
  linked _ _ hrow := by cases hrow
  snapshot := forall_mem_none rfl

theorem DbStep.linked {db : Db} (h : DbStep env s e db) (hs : ChainInv H s) : Linked H db := by
  cases h with
  | same => exact hs.linked
  | upsertSlot hw ha => exact hs.linked.upsertSlot (hs.snapshot _ (by rw [hw]; rfl))
  | processTx hw => exact hs.linked.of_slots slots_processTx
  | cursor hw => exact hs.linked
  | flip => exact hs.linked.flip

theorem ChainInv.step (h : ChainInv H s) (he : e.OnChain H) (hstep : step env s e = some s') :
    ChainInv H s' where
  linked := (step_db hstep).linked h
  snapshot := by
    cases step_cases hstep with
    | slot hw =>
      rintro slot ⟨⟩
      exact he
    | notFound hw => exact forall_mem_none (snapshot_advance _ _)
    | cursor hw => exact forall_mem_none (snapshot_advance _ _)
    | upsertSlot hw =>
      intro slot hslot
      simp only at hslot
      split at hslot <;> cases hslot
    | processTx hw => split <;> exact forall_mem_none rfl
    | headError hw => exact h.snapshot
    | tail hw hlt => exact h.snapshot
    | poll hw => exact h.snapshot
    | flip hw => exact h.snapshot
    | _ => exact forall_mem_none rfl

theorem chainInv_exec {es : List Event} (hes : ∀ e ∈ es, e.OnChain H)
    (hs : ChainInv H s) (hrun : exec (step env) s es = some s') : ChainInv H s' := by
  refine exec_invariant_along (P := fun _ e => e.OnChain H) ?_ hs ?_ hrun
  · intro s e s' hs he hstep
    exact hs.step he hstep
  · exact along_of_mem fun e he _ => hes e he

end Chain

/-! ## Heights walked one after the other -/

/-- Without a 404, an error or a restart: slots come under their own numbers and are written with
the lookup of the parent answered. What happens to their transactions, to the cursor and in the
re-poll task does not matter. -/
def CleanTurn (s : IndexerState) : Event → Prop
  | .slotAt answer => ∃ slot, answer = .ok (some slot) ∧ s.walker.nextHeight = some slot.number
  | .upsertSlot _ _ lookupOk result => lookupOk = true ∧ result = .ok
  | .start _ _ => False
  | _ => True

/-- The slot is stored, with a parent hash if it lies above `a`. -/
def Walked (a : UInt64) (db : Db) (height : UInt64) : Prop :=
  ∃ row, db.slotAt height.toInt64 = some row ∧ (a < height → row.prevHash.isSome)

/-- The walk that began at `a` has stored every height below the next one. -/
structure WalkedFrom (a : UInt64) (s : IndexerState) : Prop where
  below : ∀ n ∈ s.walker.nextHeight, ∀ h, a ≤ h → h < n → Walked a s.db h
  current : ∀ n ∈ s.walker.storedHeight, Walked a s.db n
  snapshot : ∀ slot ∈ s.walker.snapshot, s.walker.nextHeight = some slot.number

section Walk

variable {env : Env} {a : UInt64} {s s' : IndexerState} {e : Event} {db : Db} {height : UInt64}

theorem Walked.upsertSlot {slot : SlotResponse} {proposer : Option String}
    {daBlockHeight : Option Int64} {now : Int} {lookupOk : Bool} (h : Walked a db height) :
    Walked a (upsertSlot slot proposer daBlockHeight now lookupOk db) height := by
  obtain ⟨row, hrow, hprev⟩ := h
  unfold Walked
  rw [slotAt_upsertSlot, hrow]
  split
  · refine ⟨_, rfl, fun ha => ?_⟩
    rw [Option.elim_some, mergeSlotRow, Option.isSome_or, hprev ha, Bool.or_true]
  · exact ⟨row, rfl, hprev⟩

theorem Walked.flip {h : UInt64} {now : Int} (hw : Walked a db height) :
    Walked a (flipPendingSlot h now db) height := by
  obtain ⟨row, hrow, hprev⟩ := hw
  unfold Walked
  rw [slotAt_flipPendingSlot, hrow]
  split
  · refine ⟨_, rfl, fun ha => ?_⟩
    dsimp only
    split <;> exact hprev ha
  · exact ⟨row, rfl, hprev⟩

/-- No event loses a slot or its parent hash. -/
theorem DbStep.walked (h : DbStep env s e db) (hw : Walked a s.db height) : Walked a db height := by
  cases h with
  | same => exact hw
  | upsertSlot _ _ => exact hw.upsertSlot
  | processTx _ =>
    unfold Walked Db.slotAt
    rw [slots_processTx]
    exact hw
  | cursor _ => exact hw
  | flip => exact hw.flip

/-- The slot above a stored one finds its parent. -/
theorem walked_upsertSlot_self {slot : SlotResponse} {proposer : Option String}
    {daBlockHeight : Option Int64} {now : Int}
    (hbelow : a < slot.number → Walked a db (slot.number - 1)) :
    Walked a (Indexer.upsertSlot slot proposer daBlockHeight now true db) slot.number := by
  have hprev : a < slot.number → (slotPrevHash db slot true).isSome := by
    intro ha
    unfold slotPrevHash
    split
    · rfl
    · obtain ⟨row, hrow, -⟩ := hbelow ha
      have hpos : 0 < slot.number := UInt64.lt_of_le_of_lt UInt64.zero_le ha
      rw [if_pos ⟨hpos, rfl⟩]
      rw [Db.slotAt] at hrow
      rw [hrow]
      rfl
  unfold Walked
  rw [slotAt_upsertSlot, if_pos rfl]
  refine ⟨_, rfl, fun ha => ?_⟩
  cases db.slotAt slot.number.toInt64 with
  | none => exact hprev ha
  | some old =>
    rw [Option.elim_some, mergeSlotRow, Option.isSome_or, slotRow, hprev ha, Bool.true_or]

/-- A step within the turn for one height. -/
theorem WalkedFrom.turn (h : WalkedFrom a s) (hdb : DbStep env s e s'.db)
    (hnext : s'.walker.nextHeight = s.walker.nextHeight)
    (hcurrent : ∀ n ∈ s'.walker.storedHeight, Walked a s'.db n)
    (hsnap : ∀ slot ∈ s'.walker.snapshot, s'.walker.nextHeight = some slot.number) :
    WalkedFrom a s' where
  below n hn k hak hkn := hdb.walked (h.below n (hnext ▸ hn) k hak hkn)
  current := hcurrent
  snapshot := hsnap

/-- A step that leaves the walker where it is. -/
theorem WalkedFrom.stay (h : WalkedFrom a s) (hdb : DbStep env s e s'.db)
    (hw : s'.walker = s.walker) : WalkedFrom a s' := by
  refine h.turn hdb (by rw [hw]) ?_ ?_
  · rw [hw]
    exact fun n hn => hdb.walked (h.current n hn)
  · rw [hw]
    exact h.snapshot

theorem walkedFrom_down (hw : s.walker = .down) : WalkedFrom a s := by
  constructor <;> rw [hw] <;> exact forall_mem_none rfl

theorem lt_succ_cases {h n : UInt64} (hlt : h < n + 1) : h < n ∨ h = n := by
  rw [UInt64.lt_iff_toNat_lt, UInt64.toNat_add] at hlt
  rw [UInt64.lt_iff_toNat_lt, ← UInt64.toNat_inj]
  have hn := n.toNat_lt
  simp only [UInt64.toNat_one] at hlt
  omega

theorem pred_between {h n : UInt64} (hlt : h < n) : h ≤ n - 1 ∧ n - 1 < n := by
  rw [UInt64.lt_iff_toNat_lt] at hlt
  have hone : (n - 1).toNat = n.toNat - 1 := by
    rw [UInt64.toNat_sub_of_le _ _ (by rw [UInt64.le_iff_toNat_le, UInt64.toNat_one]; omega),
      UInt64.toNat_one]
  rw [UInt64.le_iff_toNat_le, UInt64.lt_iff_toNat_lt, hone]
  omega

/-- **Step lemma.** -/
theorem WalkedFrom.step (h : WalkedFrom a s) (he : CleanTurn s e)
    (hstep : step env s e = some s') : WalkedFrom a s' := by
  have hdb := step_db hstep
  cases step_cases hstep with
  | start hw => exact he.elim
  | crash hw => exact walkedFrom_down rfl
  | headError hw => exact h
  | tail hw hlt => exact h.stay hdb rfl
  | catchUp hw hle =>
    exact h.turn hdb (by rw [hw]; rfl) (forall_mem_none rfl) (forall_mem_none rfl)
  | slot hw =>
    obtain ⟨slot, hslot, hnumber⟩ := he
    cases hslot
    refine h.turn hdb (by rw [hw]; rfl) (forall_mem_none rfl) ?_
    rintro slot ⟨⟩
    rw [← hnumber, hw]
    rfl
  | notFound hw =>
    obtain ⟨slot, hslot, -⟩ := he
    cases hslot
  | slotError hw =>
    obtain ⟨slot, hslot, -⟩ := he
    cases hslot
  | @upsertSlot next head slot client now lookupOk result hw =>
    obtain ⟨rfl, rfl⟩ := he
    have hnumber : slot.number = next := by
      have := h.snapshot slot (by rw [hw]; rfl)
      rw [hw] at this
      exact (Option.some.inj this).symm
    refine h.turn hdb (by rw [hw]; rfl) ?_ (forall_mem_none rfl)
    rintro n ⟨⟩
    rw [← hnumber]
    apply walked_upsertSlot_self
    intro ha
    obtain ⟨hle, hlt⟩ := pred_between ha
    exact h.below next (by rw [hw]; rfl) _ hle (hnumber ▸ hlt)
  | walkSlot hw =>
    refine h.turn hdb (by rw [hw]; rfl) ?_ (forall_mem_none rfl)
    rintro n ⟨⟩
    exact h.current _ (by rw [hw]; rfl)
  | processTx hw =>
    revert hdb
    split
    · exact fun _ => walkedFrom_down rfl
    · intro hdb
      refine h.turn hdb (by rw [hw]; rfl) ?_ (forall_mem_none rfl)
      rintro n ⟨⟩
      exact hdb.walked (h.current _ (by rw [hw]; rfl))
  | @cursor next head result hw =>
    refine ⟨?_, forall_mem_none (storedHeight_advance _ _), forall_mem_none (snapshot_advance _ _)⟩
    intro n hn k hak hkn
    rw [nextHeight_advance] at hn
    cases hn
    apply hdb.walked
    rcases lt_succ_cases hkn with hlt | rfl
    · exact h.below next (by rw [hw]; rfl) k hak hlt
    · exact h.current _ (by rw [hw]; rfl)
  | poll hw => exact h.stay hdb rfl
  | flip hw => exact h.stay hdb rfl

end Walk

/-- **Parent hashes.** In every state a run against the chain reaches, a stored parent hash is the
hash of the slot below; and after a clean walk from `a` on, every height above `a` that it passed
has one. -/
theorem prevHash_linked {env : Env} {H : UInt64 → String} {es : List Event} {s : IndexerState}
    (hchain : ∀ e ∈ es, e.OnChain H) (hrun : exec (step env) IndexerState.init es = some s) :
    (∀ height row p, s.db.slotAt (UInt64.toInt64 height) = some row → row.prevHash = some p →
        height ≠ 0 ∧ p = H (height - 1)) ∧
      ∀ a b n fs t, s.walker.nextHeight = some a → s.walker.snapshot = none →
        s.walker.storedHeight = none → Along (step env) CleanTurn s fs →
        exec (step env) s fs = some t → t.walker.nextHeight = some n → b < n →
        ∀ height, a < height → height ≤ b →
          ∃ row, t.db.slotAt height.toInt64 = some row ∧ row.prevHash.isSome := by
  constructor
  · intro height row p hrow hp
    exact ((chainInv_exec hchain chainInv_init hrun).linked height row hrow).2 p hp
  · intro a b n fs t hnext hsnap hstored hclean hwalk hend hb height ha hle
    have hstart : WalkedFrom a s := by
      refine ⟨?_, forall_mem_none hstored, forall_mem_none hsnap⟩
      intro m hm k hak hkm
      rw [hnext] at hm
      cases hm
      exact absurd hkm (UInt64.not_lt.2 hak)
    have hdone : WalkedFrom a t :=
      exec_invariant_along (fun s e s' hs he hstep => hs.step he hstep) hstart hclean hwalk
    obtain ⟨row, hrow, hprev⟩ := hdone.below n hend height (UInt64.le_of_lt ha)
      (UInt64.lt_of_le_of_lt hle hb)
    exact ⟨row, hrow, hprev ha⟩

/-! ## Two slots -/

def chainHash (height : UInt64) : String :=
  if height = 1 then "0x01" else if height = 2 then "0x02" else "0x00"

/-- An empty slot of the chain; its answer carries no parent hash. -/
def chainSlot (height : UInt64) : SlotResponse :=
  { emptySlot "pending" with number := height, hash := chainHash height }

def slotTurn (height : UInt64) : List Event :=
  [.slotAt (.ok (some (chainSlot height))), .upsertSlot silentNode 10 true .ok,
    .walkSlot silentNode, .cursor .ok]

def twoSlots : List Event := .head (some 2) :: (slotTurn 1 ++ slotTurn 2)

theorem onChain_twoSlots : ∀ e ∈ .start none true :: twoSlots, e.OnChain chainHash := by
  intro e he
  simp only [twoSlots, slotTurn, List.cons_append, List.nil_append, List.mem_cons,
    List.not_mem_nil, or_false] at he
  rcases he with rfl | rfl | rfl | rfl | rfl | rfl | rfl | rfl | rfl | rfl
  · trivial
  · trivial
  · exact ⟨rfl, forall_mem_none rfl⟩
  · trivial
  · trivial
  · trivial
  · exact ⟨rfl, forall_mem_none rfl⟩
  · trivial
  · trivial
  · trivial

/-- A process that has just started on an empty database. -/
def freshlyStarted : IndexerState := ⟨Db.empty, .idle 1, .sleeping, [], [], false⟩

theorem cleanTurn_twoSlots : Along (step plainEnv) CleanTurn freshlyStarted twoSlots := by
  refine ⟨trivial, ?_⟩
  rintro _ ⟨⟩
  refine ⟨⟨_, rfl, rfl⟩, ?_⟩
  rintro _ ⟨⟩
  refine ⟨⟨rfl, rfl⟩, ?_⟩
  rintro _ ⟨⟩
  refine ⟨trivial, ?_⟩
  rintro _ ⟨⟩
  refine ⟨trivial, ?_⟩
  rintro _ ⟨⟩
  refine ⟨⟨_, rfl, rfl⟩, ?_⟩
  rintro _ ⟨⟩
  refine ⟨⟨rfl, rfl⟩, ?_⟩
  rintro _ ⟨⟩
  refine ⟨trivial, ?_⟩
  rintro _ ⟨⟩
  exact ⟨trivial, fun _ _ => trivial⟩

theorem second_slot_linked :
    ∃ t, exec (step plainEnv) IndexerState.init (.start none true :: twoSlots) = some t ∧
      (∃ row, t.db.slotAt 2 = some row ∧ row.prevHash.isSome) ∧
      ∀ row p, t.db.slotAt 2 = some row → row.prevHash = some p → p = "0x01" := by
  have hstart : exec (step plainEnv) IndexerState.init [.start none true] = some freshlyStarted :=
    rfl
  have honChain : ∀ e ∈ [Event.start none true], e.OnChain chainHash := by
    intro e he
    exact onChain_twoSlots e (List.mem_cons.2 (.inl (List.mem_singleton.1 he)))
  obtain ⟨t, hrun⟩ : ∃ t, exec (step plainEnv) IndexerState.init
      (.start none true :: twoSlots) = some t := ⟨_, rfl⟩
  refine ⟨t, hrun, ?_, ?_⟩
  · cases hrun
    exact (prevHash_linked honChain hstart).2 1 2 3 twoSlots _ rfl rfl rfl cleanTurn_twoSlots rfl
      rfl (by decide) 2 (by decide) (by decide)
  · intro row p hrow hp
    exact ((prevHash_linked onChain_twoSlots hrun).1 2 row p hrow hp).2

end LigateApi.Indexer
