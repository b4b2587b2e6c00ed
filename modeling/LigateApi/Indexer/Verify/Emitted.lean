import LigateApi.Indexer.Verify.AttestationId
import LigateApi.Indexer.Verify.Steps

/-!
# Work made from events

The work a running process has left was classified from events that the node served (`Emitted`). A
submission among it carries the id of its pair, and so does every attestation that is stored
(`attestationsKeyed_of_run`).
-/

namespace LigateApi.Indexer

open Lib Lib.Run

/-- The kind of the transaction was read off events. -/
def TxWork.Emitted (env : Env) (w : TxWork) : Prop :=
  ∃ events, w.classified.kind = classifyEvents env.codec env.serde events

/-- What is left to write of the slot. -/
def Walker.works : Walker → List TxWork
  | .ingesting _ _ works => works
  | _ => []

structure EmittedInv (env : Env) (s : IndexerState) : Prop where
  works : ∀ w ∈ s.walker.works, w.Emitted env
  keyed : AttestationsKeyed env.codec s.db

section Emitted

variable {env : Env} {s s' : IndexerState} {e : Event} {db : Db}

theorem emitted_txWork {slot : SlotResponse} {events : List LedgerEvent} {position : Int32}
    {tx : LedgerTx} {w : TxWork} (h : txWork env slot events position tx = some w) :
    w.Emitted env := by
  obtain ⟨classified, hclass, rfl⟩ := Option.map_eq_some_iff.1 h
  refine ⟨events.filter fun e => e.txHash = tx.hash, ?_⟩
  unfold classifyTx at hclass
  dsimp only at hclass
  split at hclass
  · cases hclass
  · cases hclass
    rfl

theorem emitted_numberTxs {slot : SlotResponse} {events : List LedgerEvent} {position : Int32}
    {txs : List LedgerTx} {w : TxWork} (h : w ∈ numberTxs env slot events position txs) :
    w.Emitted env := by
  induction txs generalizing position with
  | nil => cases h
  | cons tx txs ih =>
    rw [numberTxs] at h
    cases hw : txWork env slot events position tx with
    | none =>
      rw [hw] at h
      exact ih h
    | some v =>
      rw [hw] at h
      rcases List.mem_cons.1 h with rfl | h
      · exact emitted_txWork hw
      · exact ih h

theorem emitted_slotWork {client : NodeClient} {slot : SlotResponse} {w : TxWork}
    (h : w ∈ (slotWork env client slot).1) : w.Emitted env := by
  unfold slotWork at h
  split at h
  · cases h
  · split at h
    · cases h
    · exact emitted_numberTxs h

@[simp] theorem works_advance (next head : UInt64) : (advance next head).works = [] := by
  unfold advance
  split <;> rfl

theorem DbStep.attestationsKeyed (h : DbStep env s e db) (hs : EmittedInv env s) :
    AttestationsKeyed env.codec db := by
  cases h with
  | same => exact hs.keyed
  | upsertSlot => exact hs.keyed.congr rfl
  | @processTx _ _ w _ client _ hw =>
    have hmem : w ∈ s.walker.works := by
      rw [hw]
      exact List.mem_cons_self
    obtain ⟨events, hkind⟩ := hs.works w hmem
    exact attestationsKeyed_processTx ⟨client, w, events, hkind⟩ hs.keyed
  | cursor => exact hs.keyed.congr rfl
  | flip => exact hs.keyed.congr rfl

/-- Work comes with a walk of a slot, and only gets less after that. -/
theorem works_step (h : step env s e = some s') (hs : ∀ w ∈ s.walker.works, w.Emitted env) :
    ∀ w ∈ s'.walker.works, w.Emitted env := by
  intro w hw
  cases step_cases h with
  | start => cases hw
  | crash => cases hw
  | headError => exact hs w hw
  | tail => exact hs w hw
  | catchUp => cases hw
  | slot => cases hw
  | notFound =>
    rw [works_advance] at hw
    cases hw
  | slotError => cases hw
  | @upsertSlot _ _ _ _ _ _ result =>
    cases result <;> cases hw
  | walkSlot => exact emitted_slotWork hw
  | processTx hwalker =>
    rw [hwalker] at hs
    split at hw
    · cases hw
    · exact hs w (List.mem_cons_of_mem _ hw)
  | cursor =>
    rw [works_advance] at hw
    cases hw
  | poll => exact hs w hw
  | flip => exact hs w hw

theorem emittedInv_run {es : List Event} (hrun : exec (step env) .init es = some s) :
    EmittedInv env s := by
  refine exec_invariant (I := EmittedInv env) (fun _ _ _ hs hstep => ?_) ?_ hrun
  · exact ⟨works_step hstep hs.works, (step_db hstep).attestationsKeyed hs⟩
  · exact ⟨List.forall_mem_nil _, List.forall_mem_nil _⟩

/-- In every reachable state the attestations have the ids of their pairs. -/
theorem attestationsKeyed_of_run {es : List Event} (hrun : exec (step env) .init es = some s) :
    AttestationsKeyed env.codec s.db :=
  (emittedInv_run hrun).keyed

end Emitted

end LigateApi.Indexer
