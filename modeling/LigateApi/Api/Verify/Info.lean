import LigateApi.Api.Details
import LigateApi.Indexer.Verify.Cursor
import LigateApi.Indexer.Verify.PrevHash

/-!
# The lag that is reported

`/v1/info` compares the highest stored slot with the head of the node. The walk stores slots in the
order of their heights, so what is below a stored slot is covered too (`rowsReached_of_run`): the
lag counts just the heights that are still to come.
-/

namespace LigateApi.Indexer

open Lib Lib.Run

/-- Below a row every height is covered, and the node knew of a head not below it. -/
def RowsReached (s : IndexerState) : Prop :=
  ∀ n : UInt64, s.db.hasSlot n.toInt64 → Reached s (n.toNat + 1)

section Rows

variable {env : Env} {s s' : IndexerState} {e : Event} {db : Db}

theorem hasSlot_upsertSlot_cases {slot : SlotResponse} {proposer : Option String}
    {daBlockHeight : Option Int64} {now : Int} {lookupOk : Bool} {height : Int64}
    (h : (upsertSlot slot proposer daBlockHeight now lookupOk db).hasSlot height) :
    db.hasSlot height ∨ height = slot.number.toInt64 := by
  obtain ⟨r, hr, rfl⟩ := h
  rcases Table.mem_upsert hr with ⟨hr, -⟩ | rfl | ⟨x, -, hx, rfl⟩
  · exact .inl ⟨r, hr, rfl⟩
  · exact .inr rfl
  · exact .inr hx

theorem hasSlot_flipPendingSlot_iff {k : UInt64} {now : Int} {height : Int64} :
    (flipPendingSlot k now db).hasSlot height ↔ db.hasSlot height := by
  refine Table.exists_key_update SlotRow.height fun r hr => ?_
  split
  · exact hr
  · exact hr

/-- A new row is that of the slot the walk is at. -/
theorem DbStep.hasSlot_cases (h : DbStep env s e db) {height : Int64} (hs : db.hasSlot height) :
    s.db.hasSlot height ∨ ∃ slot ∈ s.walker.snapshot, height = slot.number.toInt64 := by
  cases h with
  | same => exact .inl hs
  | @upsertSlot next head slot _ _ _ _ hw =>
    refine (hasSlot_upsertSlot_cases hs).imp_right fun hheight => ⟨slot, ?_, hheight⟩
    rw [hw]
    rfl
  | processTx hw =>
    refine .inl ?_
    unfold Db.hasSlot at hs ⊢
    rwa [slots_processTx] at hs
  | cursor hw => exact .inl hs
  | flip => exact .inl (hasSlot_flipPendingSlot_iff.1 hs)

/-- The walk stands at the slot it is about to store, within its loop. -/
theorem CursorInv.atSnapshot (h : CursorInv s) {slot : SlotResponse}
    (hslot : slot ∈ s.walker.snapshot) :
    Reached s slot.number.toNat ∧ ∃ head ∈ s.heads, slot.number ≤ head := by
  have hnext := h.walker.snapshot slot hslot
  obtain ⟨next, head, rest, hw⟩ : ∃ next head rest, s.walker = .storing next head rest := by
    cases hw : s.walker with
    | storing next head rest => exact ⟨next, head, rest, rfl⟩
    | _ =>
      rw [hw] at hslot
      cases hslot
  obtain rfl : next = slot.number := by
    rw [hw] at hnext
    exact Option.some.inj hnext
  obtain ⟨hle, hmem⟩ := h.walker.loop (slot.number, head) (by rw [hw]; rfl)
  exact ⟨h.walker.next _ hnext, head, hmem, hle⟩

theorem rowsReached_step (h : CursorInv s) (hs : RowsReached s) (hstep : step env s e = some s') :
    RowsReached s' := by
  have hext := step_extends hstep
  intro n hn
  rcases (step_db hstep).hasSlot_cases hn with hold | ⟨slot, hslot, hheight⟩
  · exact hext.reached (hs n hold)
  · obtain rfl : n = slot.number := toInt64_injective hheight
    obtain ⟨hreached, head, hmem, hle⟩ := h.atSnapshot hslot
    exact (hext.reached hreached).succ (.inl hn) hle (hext.heads hmem)

theorem rowsReached_of_run {es : List Event} (hr : Along (step env) Regular .init es)
    (hb : ∀ e ∈ es, HeadBelowMax e) (hrun : exec (step env) .init es = some s) :
    RowsReached s := by
  have hall := exec_invariant_along (I := fun s => CursorInv s ∧ RowsReached s)
    (fun _ _ _ hI hP hs => ⟨cursorInv_step hI.1 hP.1 hP.2 hs, rowsReached_step hI.1 hI.2 hs⟩)
    ⟨cursorInv_init, nofun⟩ (hr.and (along_of_mem fun e he _ => hb e he)) hrun
  exact hall.2

end Rows

end LigateApi.Indexer

namespace LigateApi.Api

open Lib Lib.Run
open Indexer hiding TxRow SchemaRow Env

/-- `MAX` of a `bigint` column is the greatest value. -/
instance lawfulOrderMaxInt64 : Std.LawfulOrderMax Int64 where
  max_le_iff a b c := by
    change (if a ≤ b then b else a) ≤ c ↔ a ≤ c ∧ b ≤ c
    simp only [Int64.le_iff_toInt_le]
    split <;> omega
  max_eq_or a b := by
    change (if a ≤ b then b else a) = a ∨ (if a ≤ b then b else a) = b
    split
    · exact .inr rfl
    · exact .inl rfl

/-- The heads the node reports fit a signed column. -/
def HeadFits : Event → Prop
  | .head (some head) => head.toNat < 2 ^ 63
  | _ => True

instance (e : Event) : Decidable (HeadFits e) :=
  match e with
  | .head (some head) => inferInstanceAs (Decidable (head.toNat < 2 ^ 63))
  | .head none | .start _ _ | .slotAt _ | .crash | .upsertSlot _ _ _ _ | .walkSlot _
  | .processTx _ _ | .cursor _ | .scan _ | .refetch _ | .flip _ _ => .isTrue trivial

section Lag

variable {ienv : Indexer.Env} {s : IndexerState} {es : List Event}

theorem HeadFits.belowMax {e : Event} (h : HeadFits e) : HeadBelowMax e := by
  unfold HeadFits at h
  unfold HeadBelowMax
  split
  · dsimp only at h
    omega
  · trivial

theorem heads_fit (hb : ∀ e ∈ es, HeadFits e) (hrun : exec (step ienv) .init es = some s) :
    ∀ head ∈ s.heads, head.toNat < 2 ^ 63 := by
  refine exec_invariant_along (I := fun s => ∀ head ∈ s.heads, head.toNat < 2 ^ 63)
    (P := fun _ e => HeadFits e) ?_ nofun (along_of_mem fun e he _ => hb e he) hrun
  intro s e s' hI hP hstep
  have happend : ∀ head : UInt64, head.toNat < 2 ^ 63 →
      ∀ x ∈ s.heads ++ [head], x.toNat < 2 ^ 63 := by
    intro head hlt x hx
    rcases List.mem_append.1 hx with hx | hx
    · exact hI x hx
    · rw [List.mem_singleton.1 hx]
      exact hlt
  cases step_cases hstep with
  | tail => exact happend _ hP
  | catchUp => exact happend _ hP
  | processTx =>
    split
    · exact hI
    · exact hI
  | _ => exact hI

/-- A stored height fits the column it is stored in. -/
theorem rows_fit (hheads : ∀ head ∈ s.heads, head.toNat < 2 ^ 63) (hrows : RowsReached s)
    {n : UInt64} (hn : s.db.hasSlot n.toInt64) : n.toInt64.toInt = n.toNat := by
  have hlt : n.toNat < 2 ^ 63 := by
    rcases (hrows n hn).head with hle | ⟨head, hmem, hle⟩
    · omega
    · have := hheads head hmem
      omega
  exact toInt_toInt64 hlt

/-- The heights up to the greatest row are covered, and no height above it has a row. -/
theorem covered_upto_max (hheads : ∀ head ∈ s.heads, head.toNat < 2 ^ 63) (hrows : RowsReached s)
    {m : Int64} (hmax : (s.db.slots.map SlotRow.height).max? = some m) {k : UInt64} :
    (1 ≤ k.toNat → k.toNat ≤ m.toUInt64.toNat → Covered s k) ∧
      (s.db.hasSlot k.toInt64 → k.toNat ≤ m.toUInt64.toNat) := by
  obtain ⟨hmem, hhighest⟩ := List.max?_eq_some_iff.1 hmax
  have hrow : s.db.hasSlot m.toUInt64.toInt64 := by
    rw [Int64.toInt64_toUInt64]
    exact List.mem_map.1 hmem
  refine ⟨fun hk hkm => (hrows _ hrow).covered k hk (by omega), fun hkrow => ?_⟩
  have hkm : k.toInt64 ≤ m := hhighest _ (List.mem_map.2 hkrow)
  rw [Int64.le_iff_toInt_le, rows_fit hheads hrows hkrow] at hkm
  have hm := rows_fit hheads hrows hrow
  rw [Int64.toInt64_toUInt64] at hm
  omega

/-- **The reported lag is the number of heights to come.** Of the heights up to the head, those that
are further below it than the lag are covered, and none of the others is stored. -/
theorem info_lag_exact (hr : Along (step ienv) Regular .init es) (hb : ∀ e ∈ es, HeadFits e)
    (hrun : exec (step ienv) .init es = some s) {rollup : Option RollupInfo}
    {latest : Option UInt64} {head lag : UInt64}
    (hhead : (info (.ok s.db) rollup latest).headHeight = some head)
    (hlag : (info (.ok s.db) rollup latest).headLagSlots = some lag) {k : UInt64}
    (hk : 1 ≤ k.toNat) (hle : k ≤ head) :
    (k.toNat + lag.toNat ≤ head.toNat → Covered s k) ∧
      (head.toNat < k.toNat + lag.toNat → ¬ s.db.hasSlot k.toInt64) := by
  have hrows := rowsReached_of_run hr (fun e he => (hb e he).belowMax) hrun
  have hheads := heads_fit hb hrun
  obtain rfl : latest = some head := hhead
  cases hmax : (s.db.slots.map SlotRow.height).max? with
  | none =>
    have hnone : (info (.ok s.db) rollup (some head)).headLagSlots = none := by
      simp only [info, Queries.maxSlotHeight, Except.map, hmax, Option.map_none]
    rw [hnone] at hlag
    cases hlag
  | some m =>
    have hsome : (info (.ok s.db) rollup (some head)).headLagSlots =
        some (if m.toUInt64 ≤ head then head - m.toUInt64 else 0) := by
      simp only [info, Queries.maxSlotHeight, Except.map, hmax, Option.map_some]
    rw [hsome, Option.some.injEq] at hlag
    obtain ⟨hcovered, hstored⟩ := covered_upto_max (k := k) hheads hrows hmax
    rw [UInt64.le_iff_toNat_le] at hle
    by_cases hahead : m.toUInt64 ≤ head
    · rw [if_pos hahead] at hlag
      rw [← hlag, UInt64.toNat_sub_of_le _ _ hahead]
      rw [UInt64.le_iff_toNat_le] at hahead
      refine ⟨fun hfar => hcovered hk (by omega), fun hnear hkrow => ?_⟩
      have := hstored hkrow
      omega
    · rw [if_neg hahead] at hlag
      rw [UInt64.not_le, UInt64.lt_iff_toNat_lt] at hahead
      rw [← hlag]
      refine ⟨fun _ => hcovered hk (by omega), fun hnear => ?_⟩
      exact absurd hnear (by simpa using hle)

/-- Slots 1 and 3 are stored, and the node answers 404 to slot 2. -/
def skippingRun : List Event :=
  .start none true :: .head (some 5) :: (slotTurn 1 ++ .slotAt (.ok none) :: slotTurn 3)

theorem info_lag_exact_two_behind :
    ∃ s, exec (step plainEnv) .init skippingRun = some s ∧
      (info (.ok s.db) none (some 5)).headLagSlots = some 2 ∧ Covered s 2 ∧
      ¬ s.db.hasSlot (4 : UInt64).toInt64 := by
  have hlags : (exec (step plainEnv) .init skippingRun).map
      (fun s => (info (.ok s.db) none (some 5)).headLagSlots) = some (some 2) := by decide
  obtain ⟨s, hrun, hlag⟩ := Option.map_eq_some_iff.1 hlags
  have hsplit : ∀ k : UInt64, 1 ≤ k.toNat → k ≤ 5 → (k.toNat + 2 ≤ 5 → Covered s k) ∧
      (5 < k.toNat + 2 → ¬ s.db.hasSlot k.toInt64) := fun k hk hle =>
    info_lag_exact (by decide) (by decide) hrun rfl hlag hk hle
  exact ⟨s, hrun, hlag, (hsplit 2 (by decide) (by decide)).1 (by decide),
    (hsplit 4 (by decide) (by decide)).2 (by decide)⟩

end Lag

end LigateApi.Api
