import LigateApi.Indexer.Verify.Steps

/-!
# Finality of slots

Between two states of a run a finalized slot is to stay finalized with the stamp it has
(`FinalityKept`), and a pending slot has no stamp (`Unstamped`). The re-poll task only ever flips
pending rows; `upsert_slot` however takes the status of its snapshot as it is, so a snapshot from
before the flip undoes it. The two properties hold along a run exactly if no such write happens
(`NoStaleWrite`).
-/

namespace LigateApi.Indexer

open Lib Lib.Run

def Db.slotAt (db : Db) (height : Int64) : Option SlotRow :=
  Table.lookup SlotRow.height height db.slots

def SlotRow.finalized (r : SlotRow) : Prop := r.finalityStatus = some "finalized"

instance (r : SlotRow) : Decidable r.finalized :=
  inferInstanceAs (Decidable (r.finalityStatus = some "finalized"))

/-- A finalized slot stays finalized and keeps its stamp. -/
def FinalityKept (db db' : Db) : Prop :=
  ∀ height r, db.slotAt height = some r → r.finalized →
    ∃ r', db'.slotAt height = some r' ∧ r'.finalized ∧ r'.finalizedAt = r.finalizedAt

/-- A pending slot has no stamp. -/
def Unstamped (db : Db) : Prop :=
  ∀ height r, db.slotAt height = some r → r.finalityStatus = some "pending" → r.finalizedAt = none

/-- A snapshot that is not final is not written over a final row. -/
def NoStaleWrite (s : IndexerState) : Event → Prop
  | .upsertSlot _ _ _ result => ∀ slot ∈ s.walker.snapshot, result.applied = true →
      slot.finalityStatus ≠ some "finalized" →
        ∀ r ∈ s.db.slotAt slot.number.toInt64, ¬ r.finalized
  | _ => True

instance (s : IndexerState) (e : Event) : Decidable (NoStaleWrite s e) :=
  match e with
  | .upsertSlot _ _ _ result => inferInstanceAs (Decidable (∀ slot ∈ s.walker.snapshot,
      result.applied = true → slot.finalityStatus ≠ some "finalized" →
        ∀ r ∈ s.db.slotAt slot.number.toInt64, ¬ r.finalized))
  | .start _ _ | .crash | .head _ | .slotAt _ | .walkSlot _ | .processTx _ _ | .cursor _
  | .scan _ | .refetch _ | .flip _ _ => .isTrue trivial

/-- What makes `Unstamped` inductive: only a final row has a stamp. -/
def StampedFinal (db : Db) : Prop :=
  ∀ height r, db.slotAt height = some r → ¬ r.finalized → r.finalizedAt = none

/-! ## The writes -/

section Writes

variable {db : Db} {height : Int64}

theorem slotAt_upsertSlot {slot : SlotResponse} {proposer : Option String}
    {daBlockHeight : Option Int64} {now : Int} {lookupOk : Bool} :
    (upsertSlot slot proposer daBlockHeight now lookupOk db).slotAt height =
      if height = slot.number.toInt64 then
        some ((db.slotAt height).elim (slotRow db slot proposer daBlockHeight now lookupOk)
          (mergeSlotRow (slotRow db slot proposer daBlockHeight now lookupOk) now))
      else db.slotAt height :=
  Table.lookup_upsert fun _ => rfl

theorem slotAt_flipPendingSlot {h : UInt64} {now : Int} :
    (flipPendingSlot h now db).slotAt height =
      if height = h.toInt64 then
        (db.slotAt height).map fun r =>
          if r.finalityStatus = some "pending" then
            { r with finalityStatus := some "finalized", finalizedAt := some now }
          else r
      else db.slotAt height := by
  apply Table.lookup_update
  intro r
  split <;> rfl

theorem finalityKept_of_slots {db' : Db} (h : db'.slots = db.slots) : FinalityKept db db' := by
  intro height r hr hf
  refine ⟨r, ?_, hf, rfl⟩
  rw [Db.slotAt, h]
  exact hr

theorem finalityKept_flip {h : UInt64} {now : Int} :
    FinalityKept db (flipPendingSlot h now db) := by
  intro height r hr hf
  have hne : r.finalityStatus ≠ some "pending" := by
    rw [hf]
    decide
  refine ⟨r, ?_, hf, rfl⟩
  rw [slotAt_flipPendingSlot, hr]
  simp only [Option.map_some, hne, if_false, ite_self]

theorem stampedFinal_flip {h : UInt64} {now : Int} (hs : StampedFinal db) :
    StampedFinal (flipPendingSlot h now db) := by
  intro height r hr hf
  rw [slotAt_flipPendingSlot] at hr
  split at hr
  · obtain ⟨old, hold, rfl⟩ := Option.map_eq_some_iff.1 hr
    split at hf
    · exact absurd rfl hf
    · rename_i hp
      rw [if_neg hp]
      exact hs height old hold hf
  · exact hs height r hr hf

section Upsert

variable {slot : SlotResponse} {proposer : Option String} {daBlockHeight : Option Int64} {now : Int}
  {lookupOk : Bool}
  (hfresh : slot.finalityStatus ≠ some "finalized" →
    ∀ r, db.slotAt slot.number.toInt64 = some r → ¬ r.finalized)
include hfresh

theorem finalityKept_upsertSlot :
    FinalityKept db (upsertSlot slot proposer daBlockHeight now lookupOk db) := by
  intro height r hr hf
  by_cases hh : height = slot.number.toInt64
  · have hfinal : slot.finalityStatus = some "finalized" := by
      by_contra hne
      exact hfresh hne r (hh ▸ hr) hf
    have hold : ¬ (r.finalityStatus ≠ some "finalized" ∧ slot.finalityStatus = some "finalized") :=
      fun h => h.1 hf
    refine ⟨mergeSlotRow (slotRow db slot proposer daBlockHeight now lookupOk) now r, ?_, hfinal,
      if_neg hold⟩
    rw [slotAt_upsertSlot, if_pos hh, hr]
    rfl
  · exact ⟨r, by rw [slotAt_upsertSlot, if_neg hh, hr], hf, rfl⟩

theorem stampedFinal_upsertSlot (hs : StampedFinal db) :
    StampedFinal (upsertSlot slot proposer daBlockHeight now lookupOk db) := by
  intro height r hr hf
  rw [slotAt_upsertSlot] at hr
  split at hr
  · rename_i hh
    have hr := Option.some.inj hr
    cases hold : db.slotAt height with
    | none =>
      rw [hold] at hr
      subst hr
      exact if_neg hf
    | some old =>
      rw [hold] at hr
      subst hr
      have hne : slot.finalityStatus ≠ some "finalized" := hf
      have hstamp := hs height old hold (hfresh hne old (hh ▸ hold))
      have hcond : ¬ (old.finalityStatus ≠ some "finalized" ∧
          slot.finalityStatus = some "finalized") := fun h => hne h.2
      exact (if_neg hcond).trans hstamp
  · exact hs height r hr hf

end Upsert

end Writes

theorem stampedFinal_empty : StampedFinal Db.empty := by
  intro height r hr
  cases hr

/-! ## Runs -/

section Runs

variable {env : Env} {s s' : IndexerState} {e : Event} {es : List Event}

theorem DbStep.finalityKept {db : Db} (h : DbStep env s e db) (hn : NoStaleWrite s e) :
    FinalityKept s.db db := by
  cases h with
  | same => exact finalityKept_of_slots rfl
  | upsertSlot hw ha =>
    refine finalityKept_upsertSlot (hn _ ?_ ha)
    rw [hw]
    rfl
  | processTx hw => exact finalityKept_of_slots slots_processTx
  | cursor hw => exact finalityKept_of_slots rfl
  | flip => exact finalityKept_flip

theorem DbStep.stampedFinal {db : Db} (h : DbStep env s e db) (hn : NoStaleWrite s e)
    (hs : StampedFinal s.db) : StampedFinal db := by
  have hslots : ∀ db : Db, db.slots = s.db.slots → StampedFinal db := by
    intro db hdb height r hr
    rw [Db.slotAt, hdb] at hr
    exact hs height r hr
  cases h with
  | same => exact hs
  | upsertSlot hw ha =>
    refine stampedFinal_upsertSlot (hn _ ?_ ha) hs
    rw [hw]
    rfl
  | processTx hw => exact hslots _ slots_processTx
  | cursor hw => exact hslots _ rfl
  | flip => exact stampedFinal_flip hs

theorem FinalityKept.trans {a b c : Db} (hab : FinalityKept a b) (hbc : FinalityKept b c) :
    FinalityKept a c := by
  intro height r hr hf
  obtain ⟨r₁, hr₁, hf₁, ht₁⟩ := hab height r hr hf
  obtain ⟨r₂, hr₂, hf₂, ht₂⟩ := hbc height r₁ hr₁ hf₁
  exact ⟨r₂, hr₂, hf₂, ht₂.trans ht₁⟩

theorem finalityKept_run {t : IndexerState} (hn : Along (step env) NoStaleWrite s es)
    (h : exec (step env) s es = some t) : FinalityKept s.db t.db := by
  refine exec_invariant_along (I := fun m => FinalityKept s.db m.db)
    (fun m e m' hI hP hm => hI.trans ((step_db hm).finalityKept hP)) ?_ hn h
  exact finalityKept_of_slots rfl

theorem unstamped_run {t : IndexerState} (hn : Along (step env) NoStaleWrite .init es)
    (h : exec (step env) .init es = some t) : Unstamped t.db := by
  have hfinal : StampedFinal t.db :=
    exec_invariant_along (I := fun m => StampedFinal m.db)
      (fun m e m' hI hP hm => (step_db hm).stampedFinal hP hI) stampedFinal_empty hn h
  intro height r hr hp
  apply hfinal height r hr
  intro hf
  rw [SlotRow.finalized, hp] at hf
  exact absurd hf (by decide)

/-- A stale write undoes the flip. -/
theorem not_finalityKept_of_stale (hn : ¬ NoStaleWrite s e) (h : step env s e = some s') :
    ¬ FinalityKept s.db s'.db := by
  cases e with
  | upsertSlot client now lookupOk result =>
    cases hw : s.walker with
    | storing next head slot =>
      simp only [NoStaleWrite, hw, Walker.snapshot] at hn
      push Not at hn
      obtain ⟨snapshot, hsnap, ha, hstale, r, hr, hf⟩ := hn
      cases hsnap
      simp only [step, stepWalker, hw, ha, if_true, Option.some.injEq] at h
      intro hkept
      obtain ⟨r', hr', hf', -⟩ := hkept _ r hr hf
      rw [← h, slotAt_upsertSlot, if_pos rfl, hr] at hr'
      rw [← Option.some.inj hr'] at hf'
      exact hstale hf'
    | _ => simp [NoStaleWrite, hw, Walker.snapshot] at hn
  | _ => exact absurd trivial hn

/-- Along the run, from each state to each later one. -/
def FinalitySticky (env : Env) (es : List Event) : Prop :=
  ∀ es₁ es₂ es₃ s₁ s₂, es = es₁ ++ (es₂ ++ es₃) → exec (step env) .init es₁ = some s₁ →
    exec (step env) s₁ es₂ = some s₂ → FinalityKept s₁.db s₂.db ∧ Unstamped s₂.db

/-- **Finality is sticky.** -/
theorem finalitySticky_iff {t : IndexerState} (hrun : exec (step env) .init es = some t) :
    FinalitySticky env es ↔ Along (step env) NoStaleWrite .init es := by
  constructor
  · intro h
    apply along_of_forall
    intro es₁ e es₂ m hes hm
    by_contra hn
    rw [hes] at hrun
    obtain ⟨m₁, hm₁, ht⟩ := exec_cut.1 hrun
    cases hm.symm.trans hm₁
    obtain ⟨s', hs', -⟩ := exec_cons_eq_some.1 ht
    refine not_finalityKept_of_stale hn hs' (h es₁ [e] es₂ m s' hes hm ?_).1
    exact exec_cons_eq_some.2 ⟨s', hs', rfl⟩
  · intro hn es₁ es₂ es₃ s₁ s₂ hes h₁ h₂
    have h₁₂ : exec (step env) .init (es₁ ++ es₂) = some s₂ := exec_cut.2 ⟨s₁, h₁, h₂⟩
    rw [hes, ← List.append_assoc, along_append h₁₂] at hn
    exact ⟨finalityKept_run ((along_append h₁).1 hn.1).2 h₂, unstamped_run hn.1 h₁₂⟩

end Runs

/-! ## A re-walk while the slot is finalized -/

/-- What an event tells about the finality of a slot. -/
def Event.observed : Event → Option (UInt64 × Option String)
  | .slotAt (.ok (some slot)) => some (slot.number, slot.finalityStatus)
  | .refetch (.ok (some slot)) => some (slot.number, slot.finalityStatus)
  | _ => none

/-- On the chain a slot goes from pending to finalized and never back. -/
def ChainMonotone (es : List Event) : Prop :=
  (∀ o ∈ es.filterMap Event.observed, o.2 = some "pending" ∨ o.2 = some "finalized") ∧
    (es.filterMap Event.observed).Pairwise fun a b =>
      a.1 = b.1 → a.2 = some "finalized" → b.2 = some "finalized"

instance (es : List Event) : Decidable (ChainMonotone es) := inferInstanceAs (Decidable (_ ∧ _))

/-- The re-poll task flips slot 1. -/
def flipRun : List Event :=
  [.scan true, .refetch (.ok (some (emptySlot "finalized"))), .flip 20 .ok]

theorem flip_after_restart_sticky :
    FinalitySticky plainEnv (restartRun .ok true ++ flipRun) := by
  have hrun : (exec (step plainEnv) .init (restartRun .ok true ++ flipRun)).isSome := by decide
  obtain ⟨t, ht⟩ := Option.isSome_iff_exists.1 hrun
  exact (finalitySticky_iff ht).2 (by decide)

/-- The re-walk has fetched slot 1 before the flip and writes it after. -/
def staleRun : List Event :=
  restartRun .refused true ++ [.head (some 1), .slotAt (.ok (some (emptySlot "pending")))] ++
    flipRun ++ [.upsertSlot silentNode 30 true .ok]

theorem staleRun_not_sticky :
    ChainMonotone staleRun ∧
      (exec (step plainEnv) .init staleRun).map (fun s => (s.db.slotAt 1).map fun r =>
        (r.finalityStatus, r.finalizedAt)) = some (some (some "pending", some 20)) ∧
      ¬ FinalitySticky plainEnv staleRun := by
  have hend : (exec (step plainEnv) .init staleRun).map (fun s => (s.db.slotAt 1).map fun r =>
      (r.finalityStatus, r.finalizedAt)) = some (some (some "pending", some 20)) := by decide
  refine ⟨by decide, hend, fun h => ?_⟩
  obtain ⟨t, ht, hrow⟩ := Option.map_eq_some_iff.1 hend
  obtain ⟨r, hr, hcols⟩ := Option.map_eq_some_iff.1 hrow
  simp only [Prod.mk.injEq] at hcols
  have hnone := (h [] staleRun [] .init t (by simp) rfl ht).2 1 r hr hcols.1
  rw [hnone] at hcols
  cases hcols.2

end LigateApi.Indexer
