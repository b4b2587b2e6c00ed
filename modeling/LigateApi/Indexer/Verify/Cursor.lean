import LigateApi.Indexer.Verify.Steps

/-!
# No gap behind the cursor

In every reachable state each height below `next_height` has a row or was answered 404, and so has
each height up to the stored cursor, which has a row itself (`CursorInv`). The stored cursor is
below `next_height` unless the process could not read it at its start and has not written it since:
then the walk begins at slot 1 again and the old cursor is ahead of it.
-/

namespace LigateApi.Indexer

open Lib Lib.Run

/-- The height has a row, or the node answered 404 to it while it knew of a head not below. -/
def Covered (s : IndexerState) (k : UInt64) : Prop :=
  s.db.hasSlot k.toInt64 ∨ ∃ head, (k, head) ∈ s.notFound ∧ k ≤ head

/-- The heights below `n` are covered, and `n` is at most one past some head. -/
structure Reached (s : IndexerState) (n : Nat) : Prop where
  covered : ∀ k : UInt64, 1 ≤ k.toNat → k.toNat < n → Covered s k
  head : n ≤ 1 ∨ ∃ head ∈ s.heads, n ≤ head.toNat + 1

/-- The bounds of the current `while` loop. -/
def Walker.loop : Walker → Option (UInt64 × UInt64)
  | .down | .idle _ => none
  | .walking next head | .storing next head _ | .stored next head _ | .ingesting next head _ =>
    some (next, head)

/-- The height whose row the current turn has written. -/
def Walker.storedHeight : Walker → Option UInt64
  | .stored next _ _ | .ingesting next _ _ => some next
  | .down | .idle _ | .walking _ _ | .storing _ _ _ => none

structure WalkerOk (s : IndexerState) : Prop where
  next : ∀ n ∈ s.walker.nextHeight, Reached s n.toNat
  loop : ∀ p ∈ s.walker.loop, p.1 ≤ p.2 ∧ p.2 ∈ s.heads
  snapshot : ∀ slot ∈ s.walker.snapshot, s.walker.nextHeight = some slot.number
  row : ∀ n ∈ s.walker.storedHeight, s.db.hasSlot n.toInt64

structure CursorInv (s : IndexerState) : Prop where
  heads : ∀ head ∈ s.heads, head.toNat + 1 < 2 ^ 64
  walker : WalkerOk s
  cursor : ∀ h ∈ s.db.lastIndexedHeight, s.db.hasSlot h.toInt64 ∧ Reached s (h.toNat + 1)
  below : s.offCursor = false → ∀ h ∈ s.db.lastIndexedHeight, ∀ n ∈ s.walker.nextHeight, h < n

/-- No start height is configured, and a slot is returned under its own number. -/
def Regular (s : IndexerState) : Event → Prop
  | .start startHeight _ => startHeight = none
  | .slotAt (.ok (some slot)) => s.walker.nextHeight = some slot.number
  | _ => True

instance (s : IndexerState) (e : Event) : Decidable (Regular s e) :=
  match e with
  | .start startHeight _ => inferInstanceAs (Decidable (startHeight = none))
  | .slotAt (.ok (some slot)) =>
    inferInstanceAs (Decidable (s.walker.nextHeight = some slot.number))
  | .slotAt (.ok none) | .slotAt (.error _) | .head _ | .crash | .upsertSlot _ _ _ _
  | .walkSlot _ | .processTx _ _ | .cursor _ | .scan _ | .refetch _ | .flip _ _ => .isTrue trivial

/-- The head is not the last height there is. -/
def HeadBelowMax : Event → Prop
  | .head (some head) => head.toNat + 1 < 2 ^ 64
  | _ => True

instance (e : Event) : Decidable (HeadBelowMax e) :=
  match e with
  | .head (some head) => inferInstanceAs (Decidable (head.toNat + 1 < 2 ^ 64))
  | .head none | .start _ _ | .slotAt _ | .crash | .upsertSlot _ _ _ _ | .walkSlot _
  | .processTx _ _ | .cursor _ | .scan _ | .refetch _ | .flip _ _ => .isTrue trivial

/-! ## Growth -/

/-- Rows and answers only accumulate. -/
structure Extends (s s' : IndexerState) : Prop where
  slots : ∀ height, s.db.hasSlot height → s'.db.hasSlot height
  notFound : s.notFound ⊆ s'.notFound
  heads : s.heads ⊆ s'.heads

section Growth

variable {s s' : IndexerState} {n : Nat}

theorem Extends.covered {k : UInt64} (h : Extends s s') (hk : Covered s k) : Covered s' k := by
  rcases hk with hk | ⟨head, hmem, hle⟩
  · exact .inl (h.slots _ hk)
  · exact .inr ⟨head, h.notFound hmem, hle⟩

theorem Extends.reached (h : Extends s s') (hn : Reached s n) : Reached s' n where
  covered k h1 hk := h.covered (hn.covered k h1 hk)
  head := hn.head.imp_right fun ⟨head, hmem, hle⟩ => ⟨head, h.heads hmem, hle⟩

theorem reached_one : Reached s 1 where
  covered k h1 hk := absurd hk (by omega)
  head := .inl (Nat.le_refl 1)

/-- One height further. -/
theorem Reached.succ {next head : UInt64} (hn : Reached s next.toNat) (hc : Covered s next)
    (hle : next ≤ head) (hmem : head ∈ s.heads) : Reached s (next.toNat + 1) where
  covered k h1 hk := by
    rcases Nat.lt_succ_iff_lt_or_eq.1 hk with hlt | heq
    · exact hn.covered k h1 hlt
    · rwa [UInt64.toNat.inj heq]
  head := by
    rw [UInt64.le_iff_toNat_le] at hle
    exact .inr ⟨head, hmem, by omega⟩

theorem toNat_succ {next head : UInt64} (hle : next ≤ head) (hh : head.toNat + 1 < 2 ^ 64) :
    (next + 1).toNat = next.toNat + 1 := by
  rw [UInt64.le_iff_toNat_le] at hle
  rw [UInt64.toNat_add]
  exact Nat.mod_eq_of_lt (by simp; omega)

section Writes

variable {db : Db} {height : Int64}

theorem hasSlot_upsertSlot {slot : SlotResponse} {proposer : Option String}
    {daBlockHeight : Option Int64} {now : Int} {lookupOk : Bool} (h : db.hasSlot height) :
    (upsertSlot slot proposer daBlockHeight now lookupOk db).hasSlot height := by
  have hat : Table.HoldsAt SlotRow.height height (fun _ => True) db.slots :=
    ⟨h, fun _ _ _ => trivial⟩
  have hafter : Table.HoldsAt SlotRow.height height (fun _ => True)
      (upsertSlot slot proposer daBlockHeight now lookupOk db).slots :=
    hat.upsert (fun _ => rfl) fun _ _ _ => trivial
  exact hafter.1

theorem hasSlot_upsertSlot_self {slot : SlotResponse} {proposer : Option String}
    {daBlockHeight : Option Int64} {now : Int} {lookupOk : Bool} :
    (upsertSlot slot proposer daBlockHeight now lookupOk db).hasSlot slot.number.toInt64 := by
  have hafter : Table.HoldsAt SlotRow.height slot.number.toInt64 (fun _ => True)
      (upsertSlot slot proposer daBlockHeight now lookupOk db).slots :=
    Table.holdsAt_upsert_self (fun _ => rfl) trivial fun _ => trivial
  exact hafter.1

theorem hasSlot_flipPendingSlot {h : UInt64} {now : Int} (hs : db.hasSlot height) :
    (flipPendingSlot h now db).hasSlot height := by
  have hat : Table.HoldsAt SlotRow.height height (fun _ => True) db.slots :=
    ⟨hs, fun _ _ _ => trivial⟩
  refine (hat.update (fun r => ?_) fun _ _ _ => trivial).1
  split <;> rfl

end Writes

theorem DbStep.hasSlot {env : Env} {e : Event} {db : Db} {height : Int64} (h : DbStep env s e db)
    (hs : s.db.hasSlot height) : db.hasSlot height := by
  cases h with
  | same => exact hs
  | upsertSlot hw ha => exact hasSlot_upsertSlot hs
  | processTx hw => exact hasSlot_processTx.2 hs
  | cursor hw => exact hs
  | flip => exact hasSlot_flipPendingSlot hs

theorem step_extends {env : Env} {e : Event} (h : step env s e = some s') : Extends s s' where
  slots height := (step_db h).hasSlot
  notFound := by
    cases step_cases h with
    | notFound hw => exact List.subset_append_left _ _
    | processTx hw => split <;> exact List.Subset.refl _
    | _ => exact List.Subset.refl _
  heads := by
    cases step_cases h with
    | tail hw hlt => exact List.subset_append_left _ _
    | catchUp hw hle => exact List.subset_append_left _ _
    | processTx hw => split <;> exact List.Subset.refl _
    | _ => exact List.Subset.refl _

end Growth

/-! ## Steps -/

@[simp] theorem nextHeight_advance (next head : UInt64) :
    (advance next head).nextHeight = some (next + 1) := by
  unfold advance
  split <;> rfl

@[simp] theorem storedHeight_advance (next head : UInt64) :
    (advance next head).storedHeight = none := by
  unfold advance
  split <;> rfl

theorem loop_advance {next head : UInt64} {p : UInt64 × UInt64}
    (h : p ∈ (advance next head).loop) : p.1 ≤ head ∧ p.2 = head := by
  unfold advance at h
  split at h
  · rename_i hle
    cases h
    exact ⟨hle, rfl⟩
  · cases h

section Steps

variable {env : Env} {s s' : IndexerState} {e : Event}

/-- A step that leaves the cursor alone and does not take `next_height` back. -/
theorem CursorInv.move (h : CursorInv s) (hext : Extends s s')
    (hheads : ∀ head ∈ s'.heads, head.toNat + 1 < 2 ^ 64) (hw : WalkerOk s')
    (hlast : s'.db.lastIndexedHeight = s.db.lastIndexedHeight) (hoff : s'.offCursor = s.offCursor)
    (hnext : ∀ n' ∈ s'.walker.nextHeight, ∃ n ∈ s.walker.nextHeight, n ≤ n') : CursorInv s' where
  heads := hheads
  walker := hw
  cursor h' hh := by
    rw [hlast] at hh
    obtain ⟨hrow, hreached⟩ := h.cursor h' hh
    exact ⟨hext.slots _ hrow, hext.reached hreached⟩
  below ho h' hh n' hn' := by
    rw [hlast] at hh
    obtain ⟨n, hn, hle⟩ := hnext n' hn'
    exact UInt64.lt_of_lt_of_le (h.below (hoff ▸ ho) h' hh n hn) hle

/-- A step within the turn for one height. -/
theorem CursorInv.turn (h : CursorInv s) (hext : Extends s s')
    (hheads : ∀ head ∈ s'.heads, head.toNat + 1 < 2 ^ 64) (hw : WalkerOk s')
    (hlast : s'.db.lastIndexedHeight = s.db.lastIndexedHeight) (hoff : s'.offCursor = s.offCursor)
    (hnext : s.walker.nextHeight = s'.walker.nextHeight) : CursorInv s' := by
  apply h.move hext hheads hw hlast hoff
  intro n hn
  exact ⟨n, hnext.trans hn, UInt64.le_rfl⟩

/-- A step that leaves the walker where it is. -/
theorem CursorInv.stay (h : CursorInv s) (hext : Extends s s')
    (hheads : ∀ head ∈ s'.heads, head.toNat + 1 < 2 ^ 64) (hw : s'.walker = s.walker)
    (hlast : s'.db.lastIndexedHeight = s.db.lastIndexedHeight) (hoff : s'.offCursor = s.offCursor) :
    CursorInv s' := by
  refine h.turn hext hheads ⟨?_, ?_, ?_, ?_⟩ hlast hoff ?_ <;> rw [hw]
  · exact fun n hn => hext.reached (h.walker.next n hn)
  · exact fun p hp => ⟨(h.walker.loop p hp).1, hext.heads (h.walker.loop p hp).2⟩
  · exact h.walker.snapshot
  · exact fun n hn => hext.slots _ (h.walker.row n hn)

/-- What holds of every value an empty answer carries. -/
theorem forall_mem_none {α : Type} {p : α → Prop} {o : Option α} (h : o = none) : ∀ a ∈ o, p a := by
  intro a ha
  rw [h] at ha
  cases ha

theorem walkerOk_down (hw : s.walker = .down) : WalkerOk s := by
  constructor <;> rw [hw] <;> exact forall_mem_none rfl

theorem walkerOk_idle {next : UInt64} (hw : s.walker = .idle next) (hn : Reached s next.toNat) :
    WalkerOk s where
  next n hnext := by
    rw [hw] at hnext
    cases hnext
    exact hn
  loop := by rw [hw]; exact forall_mem_none rfl
  snapshot := by rw [hw]; exact forall_mem_none rfl
  row := by rw [hw]; exact forall_mem_none rfl

/-- Inside the `while` loop; `snapshot` and `row` depend on how far the turn is. -/
theorem walkerOk_loop {next head : UInt64} (hnext : s.walker.nextHeight = some next)
    (hloop : s.walker.loop = some (next, head)) (hn : Reached s next.toNat) (hle : next ≤ head)
    (hmem : head ∈ s.heads) (hsnap : ∀ slot ∈ s.walker.snapshot, slot.number = next)
    (hrow : ∀ n ∈ s.walker.storedHeight, s.db.hasSlot n.toInt64) : WalkerOk s where
  next n h := by
    rw [hnext] at h
    cases h
    exact hn
  loop p h := by
    rw [hloop] at h
    cases h
    exact ⟨hle, hmem⟩
  snapshot slot h := by rw [hnext, hsnap slot h]
  row := hrow

/-- The turn is over: the next height is one further. -/
theorem walkerOk_advance {next head : UInt64} (hw : s.walker = advance next head)
    (hn : Reached s next.toNat) (hc : Covered s next) (hle : next ≤ head) (hmem : head ∈ s.heads)
    (hbound : head.toNat + 1 < 2 ^ 64) : WalkerOk s where
  next n h := by
    rw [hw, nextHeight_advance] at h
    cases h
    rw [toNat_succ hle hbound]
    exact hn.succ hc hle hmem
  loop p h := by
    rw [hw] at h
    obtain ⟨hp, rfl⟩ := loop_advance h
    exact ⟨hp, hmem⟩
  snapshot := by rw [hw]; exact forall_mem_none (snapshot_advance _ _)
  row := by rw [hw]; exact forall_mem_none (storedHeight_advance _ _)

theorem le_succ {next head : UInt64} (hle : next ≤ head) (hbound : head.toNat + 1 < 2 ^ 64) :
    next ≤ next + 1 := by
  rw [UInt64.le_iff_toNat_le, toNat_succ hle hbound]
  omega

/-- The cursor a process starts from leads to a height that is reached, and past the cursor. -/
theorem CursorInv.startHeight (h : CursorInv s) (readOk : Bool) :
    Reached s (startHeightOf none readOk s.db).toNat ∧
      (readOk = true → ∀ c ∈ s.db.lastIndexedHeight, c < startHeightOf none readOk s.db) := by
  cases readOk with
  | false => exact ⟨reached_one, nofun⟩
  | true =>
    cases hc : s.db.lastIndexedHeight with
    | none =>
      simp only [startHeightOf, readLastIndexedHeight, hc, if_true]
      exact ⟨reached_one, nofun⟩
    | some c =>
      obtain ⟨-, hreached⟩ := h.cursor c hc
      have hlt : c.toNat + 1 < 2 ^ 64 := by
        rcases hreached.head with hle | ⟨head, hmem, hle⟩
        · omega
        · have := h.heads head hmem
          omega
      have hsucc : (c + 1).toNat = c.toNat + 1 := toNat_succ UInt64.le_rfl hlt
      simp only [startHeightOf, readLastIndexedHeight, hc, if_true, saturatingSucc, hlt]
      refine ⟨hsucc ▸ hreached, fun _ c' hc' => ?_⟩
      cases hc'
      rw [UInt64.lt_iff_toNat_lt, hsucc]
      omega

/-- What is known inside the `while` loop. -/
theorem CursorInv.inLoop {next head : UInt64} (h : CursorInv s)
    (hnext : s.walker.nextHeight = some next) (hloop : s.walker.loop = some (next, head)) :
    Reached s next.toNat ∧ next ≤ head ∧ head ∈ s.heads ∧ head.toNat + 1 < 2 ^ 64 := by
  obtain ⟨hle, hmem⟩ := h.walker.loop _ hloop
  exact ⟨h.walker.next next hnext, hle, hmem, h.heads head hmem⟩

theorem heads_append {head : UInt64} (h : ∀ x ∈ s.heads, x.toNat + 1 < 2 ^ 64)
    (hbound : head.toNat + 1 < 2 ^ 64) : ∀ x ∈ s.heads ++ [head], x.toNat + 1 < 2 ^ 64 := by
  intro x hx
  rcases List.mem_append.1 hx with hx | hx
  · exact h x hx
  · rw [List.mem_singleton.1 hx]
    exact hbound

section Turn

variable {next head : UInt64}

/-- A step inside the turn for `next`; `hsnap` and `hrow` say how far the turn is. -/
theorem CursorInv.inTurn (h : CursorInv s) (hext : Extends s s')
    (hnext : s.walker.nextHeight = some next) (hloop : s.walker.loop = some (next, head))
    (hnext' : s'.walker.nextHeight = some next) (hloop' : s'.walker.loop = some (next, head))
    (hheads : s'.heads = s.heads) (hsnap : ∀ slot ∈ s'.walker.snapshot, slot.number = next)
    (hrow : ∀ n ∈ s'.walker.storedHeight, s'.db.hasSlot n.toInt64)
    (hlast : s'.db.lastIndexedHeight = s.db.lastIndexedHeight) (hoff : s'.offCursor = s.offCursor) :
    CursorInv s' := by
  obtain ⟨hn, hle, hmem, -⟩ := h.inLoop hnext hloop
  have hok : WalkerOk s' :=
    walkerOk_loop hnext' hloop' (hext.reached hn) hle (hheads ▸ hmem) hsnap hrow
  exact h.turn hext (hheads ▸ h.heads) hok hlast hoff (hnext.trans hnext'.symm)

/-- The turn for `next` is given up, and the walker is to begin it again. -/
theorem CursorInv.giveUp (h : CursorInv s) (hext : Extends s s')
    (hnext : s.walker.nextHeight = some next) (hw : s'.walker = .idle next)
    (hheads : s'.heads = s.heads)
    (hlast : s'.db.lastIndexedHeight = s.db.lastIndexedHeight) (hoff : s'.offCursor = s.offCursor) :
    CursorInv s' := by
  have hok : WalkerOk s' := walkerOk_idle hw (hext.reached (h.walker.next next hnext))
  refine h.turn hext (hheads ▸ h.heads) hok hlast hoff ?_
  rw [hnext, hw]
  rfl

/-- The turn for `next` is over, and the cursor is where it was. -/
theorem CursorInv.finish (h : CursorInv s) (hext : Extends s s')
    (hnext : s.walker.nextHeight = some next) (hloop : s.walker.loop = some (next, head))
    (hw : s'.walker = advance next head) (hheads : s'.heads = s.heads) (hc : Covered s' next)
    (hlast : s'.db.lastIndexedHeight = s.db.lastIndexedHeight) (hoff : s'.offCursor = s.offCursor) :
    CursorInv s' := by
  obtain ⟨hn, hle, hmem, hbound⟩ := h.inLoop hnext hloop
  have hok : WalkerOk s' := walkerOk_advance hw (hext.reached hn) hc hle (hheads ▸ hmem) hbound
  apply h.move hext (hheads ▸ h.heads) hok hlast hoff
  intro n hn'
  rw [hw, nextHeight_advance] at hn'
  cases hn'
  exact ⟨next, hnext, le_succ hle hbound⟩

/-- The turn for `next` is over, and the cursor is written. -/
theorem CursorInv.finishWritten (h : CursorInv s) (hext : Extends s s')
    (hnext : s.walker.nextHeight = some next) (hloop : s.walker.loop = some (next, head))
    (hw : s'.walker = advance next head) (hheads : s'.heads = s.heads)
    (hrow : s'.db.hasSlot next.toInt64) (hlast : s'.db.lastIndexedHeight = some next) :
    CursorInv s' := by
  obtain ⟨hn, hle, hmem, hbound⟩ := h.inLoop hnext hloop
  have hmem' : head ∈ s'.heads := hheads ▸ hmem
  refine ⟨hheads ▸ h.heads, walkerOk_advance hw (hext.reached hn) (.inl hrow) hle hmem' hbound,
    fun c hc => ?_, fun _ c hc n hn' => ?_⟩
  · rw [hlast] at hc
    cases hc
    exact ⟨hrow, (hext.reached hn).succ (.inl hrow) hle hmem'⟩
  · rw [hlast] at hc
    cases hc
    rw [hw, nextHeight_advance] at hn'
    cases hn'
    rw [UInt64.lt_iff_toNat_lt, toNat_succ hle hbound]
    omega

end Turn

theorem cursorInv_step (h : CursorInv s) (hr : Regular s e) (hb : HeadBelowMax e)
    (hstep : step env s e = some s') : CursorInv s' := by
  have hext := step_extends hstep
  cases step_cases hstep with
  | @start startHeight readOk hw =>
    obtain rfl : startHeight = none := hr
    obtain ⟨hreached, hpast⟩ := h.startHeight readOk
    refine ⟨h.heads, walkerOk_idle rfl (hext.reached hreached), fun c hc => ?_,
      fun hoff c hc n hn => ?_⟩
    · obtain ⟨hrow, hc⟩ := h.cursor c hc
      exact ⟨hrow, hext.reached hc⟩
    · cases hn
      exact hpast (by simpa using hoff) c hc
  | crash hw => exact h.move hext h.heads (walkerOk_down rfl) rfl rfl (forall_mem_none rfl)
  | headError hw => exact h
  | @tail next head hw hlt =>
    exact h.stay hext (heads_append h.heads hb) rfl rfl rfl
  | @catchUp next head hw hle =>
    have hnext : s.walker.nextHeight = some next := by rw [hw]; rfl
    have hok := walkerOk_loop (s := { s with
      walker := .walking next head, heads := s.heads ++ [head] }) rfl rfl
      (hext.reached (h.walker.next next hnext)) hle (by simp) (forall_mem_none rfl)
      (forall_mem_none rfl)
    exact h.turn hext (heads_append h.heads hb) hok rfl rfl hnext
  | @slot next head slot hw =>
    have hnext : s.walker.nextHeight = some next := by rw [hw]; rfl
    have hnumber : slot.number = next := Option.some.inj (hr.symm.trans hnext)
    refine h.inTurn hext hnext (by rw [hw]; rfl) rfl rfl rfl ?_ (forall_mem_none rfl) rfl rfl
    rintro slot ⟨⟩
    exact hnumber
  | @notFound next head hw =>
    have hnext : s.walker.nextHeight = some next := by rw [hw]; rfl
    have hloop : s.walker.loop = some (next, head) := by rw [hw]; rfl
    obtain ⟨-, hle, -, -⟩ := h.inLoop hnext hloop
    exact h.finish hext hnext hloop rfl rfl (.inr ⟨head, by simp, hle⟩) rfl rfl
  | @slotError next head _ hw => exact h.giveUp hext (by rw [hw]; rfl) rfl rfl rfl rfl
  | @upsertSlot next head slot client now lookupOk result hw =>
    have hnext : s.walker.nextHeight = some next := by rw [hw]; rfl
    have hnumber : slot.number = next :=
      Option.some.inj ((h.walker.snapshot slot (by rw [hw]; rfl)).symm.trans hnext)
    cases result with
    | ok =>
      refine h.inTurn hext hnext (by rw [hw]; rfl) rfl rfl rfl (forall_mem_none rfl) ?_ rfl rfl
      rintro n ⟨⟩
      rw [← hnumber]
      exact hasSlot_upsertSlot_self
    | refused => exact h.giveUp hext hnext rfl rfl rfl rfl
    | lost => exact h.giveUp hext hnext rfl rfl rfl rfl
  | @walkSlot next head slot client hw =>
    have hrow := h.walker.row next (by rw [hw]; rfl)
    refine h.inTurn hext (by rw [hw]; rfl) (by rw [hw]; rfl) rfl rfl rfl (forall_mem_none rfl) ?_
      rfl rfl
    rintro n ⟨⟩
    exact hrow
  | @processTx next head w works client faults hw =>
    have hrow := hext.slots _ (h.walker.row next (by rw [hw]; rfl))
    split at hext <;> rename_i hc <;>
      simp only [hc, if_true, if_false, Bool.false_eq_true] at hrow ⊢
    · exact h.move hext h.heads (walkerOk_down rfl) lastIndexedHeight_processTx rfl
        (forall_mem_none rfl)
    · refine h.inTurn hext (by rw [hw]; rfl) (by rw [hw]; rfl) rfl rfl rfl (forall_mem_none rfl) ?_
        lastIndexedHeight_processTx rfl
      rintro n ⟨⟩
      exact hrow
  | @cursor next head result hw =>
    have hrow := hext.slots _ (h.walker.row next (by rw [hw]; rfl))
    by_cases ha : result.applied = true
    · simp only [ha, if_true, Bool.not_true, Bool.and_false] at hext hrow ⊢
      exact h.finishWritten hext (by rw [hw]; rfl) (by rw [hw]; rfl) rfl rfl hrow rfl
    · simp only [ha, Bool.not_false, Bool.and_true] at hext hrow ⊢
      exact h.finish hext (by rw [hw]; rfl) (by rw [hw]; rfl) rfl rfl (.inl hrow) rfl rfl
  | poll hw => exact h.stay hext h.heads rfl rfl rfl
  | flip hw => exact h.stay hext h.heads rfl rfl rfl

end Steps

/-! ## Runs -/

/-- The largest head fetched so far, zero before the first. -/
def largestHead (heads : List UInt64) : Nat := heads.foldr (fun h m => max h.toNat m) 0

theorem le_largestHead {heads : List UInt64} {h : UInt64} (hh : h ∈ heads) :
    h.toNat ≤ largestHead heads := by
  induction heads with
  | nil => cases hh
  | cons x heads ih =>
    rw [largestHead, List.foldr_cons]
    rcases List.mem_cons.1 hh with rfl | hh
    · exact Nat.le_max_left _ _
    · exact (ih hh).trans (Nat.le_max_right _ _)

/-- What is promised of every reachable state. -/
structure NoGap (s : IndexerState) : Prop where
  covered : ∀ next ∈ s.walker.nextHeight, ∀ k, 1 ≤ k → k < next → Covered s k
  stored : ∀ h ∈ s.db.lastIndexedHeight, s.db.hasSlot h.toInt64
  below : s.offCursor = false →
    ∀ h ∈ s.db.lastIndexedHeight, ∀ next ∈ s.walker.nextHeight, h < next
  bounded : ∀ next ∈ s.walker.nextHeight, next.toNat ≤ largestHead s.heads + 1

theorem CursorInv.noGap {s : IndexerState} (h : CursorInv s) : NoGap s where
  covered next hnext k h1 hk := by
    rw [UInt64.le_iff_toNat_le] at h1
    exact (h.walker.next next hnext).covered k h1 (UInt64.lt_iff_toNat_lt.1 hk)
  stored c hc := (h.cursor c hc).1
  below := h.below
  bounded next hnext := by
    rcases (h.walker.next next hnext).head with hle | ⟨head, hmem, hle⟩
    · omega
    · have := le_largestHead hmem
      omega

theorem cursorInv_init : CursorInv .init where
  heads := nofun
  walker := walkerOk_down rfl
  cursor := nofun
  below _ := nofun

/-- **No gap behind the cursor.** -/
theorem noGap_of_run {env : Env} {es : List Event} {s : IndexerState}
    (hr : Along (step env) Regular .init es) (hb : ∀ e ∈ es, HeadBelowMax e)
    (h : exec (step env) .init es = some s) : NoGap s :=
  (exec_invariant_along (fun _ _ _ hI hP hs => cursorInv_step hI hP.1 hP.2 hs) cursorInv_init
    (hr.and (along_of_mem fun e he _ => hb e he)) h).noGap

theorem restartRun_noGap :
    ∃ s, exec (step plainEnv) .init (restartRun .ok true ++ [.head (some 2), .slotAt (.ok none)]) =
      some s ∧ s.walker.nextHeight = some 3 ∧ NoGap s := by
  have hend : (exec (step plainEnv) .init
      (restartRun .ok true ++ [.head (some 2), .slotAt (.ok none)])).map
        (fun s => s.walker.nextHeight) = some (some 3) := by decide
  obtain ⟨s, hs, hnext⟩ := Option.map_eq_some_iff.1 hend
  exact ⟨s, hs, hnext, noGap_of_run (by decide) (by decide) hs⟩

/-! ## Where the cursor is ahead -/

/-- The stored cursor is not below `next_height`. -/
def CursorAhead (s : IndexerState) : Prop :=
  ∃ h ∈ s.db.lastIndexedHeight, ∃ next ∈ s.walker.nextHeight, ¬ h < next

/-- `u64::MAX` -/
def lastHeight : UInt64 := 18446744073709551615

theorem le_lastHeight (n : UInt64) : n ≤ lastHeight := by
  rw [UInt64.le_iff_toNat_le]
  exact Nat.le_of_lt_succ n.toNat_lt

/-- A node at the last height that answers 404: `next_height` runs through all numbers. -/
theorem exec_notFound (env : Env) {s : IndexerState} {next : UInt64} (m : Nat)
    (hw : s.walker = .walking next lastHeight) :
    ∃ t, exec (step env) s (List.replicate m (.slotAt (.ok none))) = some t ∧
      t.walker = .walking (next + UInt64.ofNat m) lastHeight ∧ t.db = s.db := by
  induction m generalizing s next with
  | zero => exact ⟨s, rfl, by simpa using hw, rfl⟩
  | succ m ih =>
    have hadv : advance next lastHeight = .walking (next + 1) lastHeight :=
      if_pos (le_lastHeight _)
    obtain ⟨t, ht, hwt, hdb⟩ := ih (s := { s with
      walker := advance next lastHeight, notFound := s.notFound ++ [(next, lastHeight)] }) hadv
    refine ⟨t, exec_cons_eq_some.2 ⟨_, ?_, ht⟩, ?_, hdb⟩
    · simp only [step, stepWalker, hw]
    · rw [hwt, UInt64.ofNat_add, UInt64.add_assoc, UInt64.add_comm 1]
      rfl

/-- Slot 1 is indexed, then the head is at the last height and no further slot is found. -/
def endlessRun : List Event :=
  ((restartRun .ok true).take 6 ++ [.head (some lastHeight)]) ++
    List.replicate (2 ^ 64 - 2) (.slotAt (.ok none))

theorem endlessRun_regular : Along (step plainEnv) Regular .init endlessRun := by
  obtain ⟨m, hm⟩ : ∃ m, exec (step plainEnv) .init
      ((restartRun .ok true).take 6 ++ [.head (some lastHeight)]) = some m := ⟨_, rfl⟩
  rw [endlessRun, along_append hm]
  refine ⟨by decide, along_of_mem fun e he _ => ?_⟩
  rw [List.eq_of_mem_replicate he]
  trivial

theorem endlessRun_cursorAhead :
    ∃ s, exec (step plainEnv) .init endlessRun = some s ∧ CursorAhead s := by
  obtain ⟨m, hm, hw, hc⟩ : ∃ m, exec (step plainEnv) .init
      ((restartRun .ok true).take 6 ++ [.head (some lastHeight)]) = some m ∧
      m.walker = .walking 2 lastHeight ∧ m.db.lastIndexedHeight = some 1 := ⟨_, rfl, rfl, rfl⟩
  obtain ⟨t, ht, hwt, hdb⟩ := exec_notFound plainEnv (2 ^ 64 - 2) hw
  refine ⟨t, exec_cut.2 ⟨m, hm, ht⟩, 1, by rw [hdb, hc]; rfl, 0, ?_, by decide⟩
  rw [hwt]
  rfl

/-- The cursor can be ahead of the walk: after a cursor read that failed, and past the last
height. -/
theorem cursor_ahead_of_walk :
    (Along (step plainEnv) Regular .init (restartRun .ok false) ∧
      ∃ s, exec (step plainEnv) .init (restartRun .ok false) = some s ∧ CursorAhead s) ∧
    (Along (step plainEnv) Regular .init endlessRun ∧
      ∃ s, exec (step plainEnv) .init endlessRun = some s ∧ CursorAhead s) :=
  ⟨⟨by decide, _, rfl, 1, rfl, 1, rfl, by decide⟩, endlessRun_regular, endlessRun_cursorAhead⟩

end LigateApi.Indexer
