import Mathlib.Tactic.FinCases
import LigateApi.Indexer.Verify.Finality

/-!
# What a finalized row holds

Until it is final, the chain may replace a slot; `fin` is what it ends with at each height. The walk
stores hash and state root together with the status of its snapshot, but the re-poll task takes only
the status from its own fetch and leaves the stored contents as they are. A finalized row holds the
final slot exactly as long as each flip finds a pending row that already does (`FlipsCurrent`).
-/

namespace LigateApi.Indexer

open Lib Lib.Run

variable {env : Env} {s s' t : IndexerState} {e : Event} {es : List Event}
  {fin : UInt64 → String × Option String}

/-! ## The property -/

/-- Hash and state root of a row. -/
def SlotRow.contents (r : SlotRow) : String × Option String := (r.hash, r.stateRoot)

def SlotResponse.contents (slot : SlotResponse) : String × Option String :=
  (slot.hash, slot.stateRoot)

/-- Every finalized row holds the final slot of its height. -/
def FinalContents (fin : UInt64 → String × Option String) (db : Db) : Prop :=
  ∀ r ∈ db.slots, r.finalized → r.contents = fin r.height.toUInt64

/-- The slot an event brings from the chain. -/
def Event.fetched : Event → Option SlotResponse
  | .slotAt (.ok (some slot)) => some slot
  | .refetch (.ok (some slot)) => some slot
  | _ => none

/-- Whatever the chain answered before, a slot it calls finalized is the final one. -/
def AnswersFinal (fin : UInt64 → String × Option String) (e : Event) : Prop :=
  ∀ slot ∈ e.fetched, slot.finalityStatus = some "finalized" → slot.contents = fin slot.number

instance (e : Event) : Decidable (AnswersFinal fin e) :=
  inferInstanceAs (Decidable (∀ slot ∈ e.fetched, slot.finalityStatus = some "finalized" →
    slot.contents = fin slot.number))

/-- The height the next statement of `flip_pending_slots` is about to mark. -/
def Repoll.flipping : Repoll → Option UInt64
  | .polling [] ((height, status) :: _) => if status = some "finalized" then some height else none
  | _ => none

/-- A pending row that is marked finalized holds the final slot: the chain has not replaced it since
it was stored. -/
def FlipsCurrent (fin : UInt64 → String × Option String) (s : IndexerState) : Event → Prop
  | .flip _ result => ∀ height ∈ s.repoll.flipping, s.walker.up = true → result.applied = true →
      ∀ r ∈ s.db.slots, r.height = height.toInt64 → r.finalityStatus = some "pending" →
        r.contents = fin height
  | _ => True

instance (s : IndexerState) (e : Event) : Decidable (FlipsCurrent fin s e) :=
  match e with
  | .flip _ result => inferInstanceAs (Decidable (∀ height ∈ s.repoll.flipping,
      s.walker.up = true → result.applied = true → ∀ r ∈ s.db.slots, r.height = height.toInt64 →
        r.finalityStatus = some "pending" → r.contents = fin height))
  | .start _ _ | .crash | .head _ | .slotAt _ | .upsertSlot _ _ _ _ | .walkSlot _ | .processTx _ _
  | .cursor _ | .scan _ | .refetch _ => .isTrue trivial

/-! ## The writes -/

/-- A finalized snapshot about to be written is the final slot. -/
def SnapshotFinal (fin : UInt64 → String × Option String) (s : IndexerState) : Prop :=
  ∀ slot ∈ s.walker.snapshot, slot.finalityStatus = some "finalized" →
    slot.contents = fin slot.number

theorem finalContents_upsertSlot {db : Db} {slot : SlotResponse} {proposer : Option String}
    {daBlockHeight : Option Int64} {now : Int} {lookupOk : Bool} (h : FinalContents fin db)
    (hslot : slot.finalityStatus = some "finalized" → slot.contents = fin slot.number) :
    FinalContents fin (upsertSlot slot proposer daBlockHeight now lookupOk db) := by
  have hnumber : slot.number.toInt64.toUInt64 = slot.number := UInt64.toUInt64_toInt64 _
  intro r hr hf
  rcases Table.mem_upsert hr with ⟨hr, -⟩ | rfl | ⟨old, hold, hkey, rfl⟩
  · exact h r hr hf
  · apply (hslot hf).trans
    rw [slotRow, hnumber]
  · apply (hslot hf).trans
    have hheight : (mergeSlotRow (slotRow db slot proposer daBlockHeight now lookupOk) now
        old).height = slot.number.toInt64 := hkey
    rw [hheight, hnumber]

/-- The rows a flip marks. -/
theorem finalContents_flip_iff {db : Db} {height : UInt64} {now : Int} (h : FinalContents fin db) :
    FinalContents fin (flipPendingSlot height now db) ↔
      ∀ r ∈ db.slots, r.height = height.toInt64 → r.finalityStatus = some "pending" →
        r.contents = fin height := by
  have hnumber : height.toInt64.toUInt64 = height := UInt64.toUInt64_toInt64 _
  constructor
  · intro hafter r hr hheight hp
    have hmem : { r with finalityStatus := some "finalized", finalizedAt := some now } ∈
        (flipPendingSlot height now db).slots := by
      refine Table.mem_update.2 ⟨r, hr, .inl ⟨hheight, ?_⟩⟩
      rw [if_pos hp]
    have hcontents := hafter _ hmem rfl
    change r.contents = fin r.height.toUInt64 at hcontents
    rwa [hheight, hnumber] at hcontents
  · intro hpending r hr hf
    obtain ⟨old, hold, ⟨hheight, rfl⟩ | ⟨-, rfl⟩⟩ := Table.mem_update.1 hr
    · split at hf
      · rename_i hp
        rw [if_pos hp]
        apply (hpending old hold hheight hp).trans
        rw [hheight, hnumber]
      · rename_i hp
        rw [if_neg hp]
        exact h old hold hf
    · exact h r hold hf

/-- A flip marks the height its task has seen finalized, or writes nothing. -/
theorem step_flip {now : Int} {result : WriteResult}
    (h : step env s (.flip now result) = some s') :
    (s'.db = s.db ∧ ¬ (s.walker.up = true ∧ result.applied = true ∧ s.repoll.flipping.isSome)) ∨
    ∃ height, s.repoll.flipping = some height ∧ s.walker.up = true ∧ result.applied = true ∧
      s'.db = flipPendingSlot height now s.db := by
  simp only [step, stepWalker] at h
  split at h
  · rename_i hup
    simp only [stepRepoll] at h
    split at h
    · rename_i hrepoll
      cases h
      exact .inl ⟨rfl, by simp [hrepoll, Repoll.flipping]⟩
    · rename_i height status rest hrepoll
      cases h
      by_cases hflip : status = some "finalized" ∧ result.applied
      · refine .inr ⟨height, ?_, hup, hflip.2, if_pos hflip⟩
        rw [hrepoll]
        exact if_pos hflip.1
      · refine .inl ⟨if_neg hflip, ?_⟩
        rintro ⟨-, ha, hsome⟩
        have hstatus : status ≠ some "finalized" := fun hstatus => hflip ⟨hstatus, ha⟩
        simp [hrepoll, Repoll.flipping, hstatus] at hsome
    · cases h
  · cases h

/-- Only the answer to a fetch of the walk becomes a snapshot. -/
theorem snapshotFinal_step (h : step env s e = some s') (hchain : AnswersFinal fin e)
    (hs : SnapshotFinal fin s) : SnapshotFinal fin s' := by
  intro slot hslot hf
  cases step_cases h with
  | slot hw =>
    cases hslot
    exact hchain _ rfl hf
  | headError hw => exact hs slot hslot hf
  | tail hw hlt => exact hs slot hslot hf
  | poll hw => exact hs slot hslot hf
  | flip hw => exact hs slot hslot hf
  | notFound hw =>
    rw [snapshot_advance] at hslot
    cases hslot
  | cursor hw =>
    rw [snapshot_advance] at hslot
    cases hslot
  | upsertSlot hw =>
    dsimp only at hslot
    split at hslot <;> cases hslot
  | processTx hw =>
    split at hslot <;> cases hslot
  | _ => cases hslot

/-- **Step lemma**: next to final snapshots, a step keeps the contents final exactly if it flips
none but current rows. -/
theorem finalContents_step_iff (h : step env s e = some s') (hs : SnapshotFinal fin s)
    (hI : FinalContents fin s.db) : FinalContents fin s'.db ↔ FlipsCurrent fin s e := by
  by_cases hflip : ∃ now result, e = .flip now result
  · obtain ⟨now, result, rfl⟩ := hflip
    rcases step_flip h with ⟨hdb, hidle⟩ | ⟨height, hheight, hup, ha, hdb⟩
    · rw [hdb]
      refine ⟨fun _ height hheight hup ha => absurd ⟨hup, ha, ?_⟩ hidle, fun _ => hI⟩
      rw [Option.mem_def.1 hheight]
      rfl
    · rw [hdb, finalContents_flip_iff hI]
      constructor
      · intro hrows height' hheight' _ _
        cases hheight.symm.trans hheight'
        exact hrows
      · exact fun hrows => hrows height hheight hup ha
  · have htrivial : FlipsCurrent fin s e := by
      cases e with
      | flip now result => exact absurd ⟨now, result, rfl⟩ hflip
      | _ => trivial
    refine iff_of_true ?_ htrivial
    have hslots : ∀ db : Db, db.slots = s.db.slots → FinalContents fin db := by
      intro db hdb r hr
      rw [hdb] at hr
      exact hI r hr
    have hdb := step_db h
    generalize s'.db = db at hdb ⊢
    cases hdb with
    | same => exact hI
    | upsertSlot hw ha =>
      refine finalContents_upsertSlot hI (hs _ ?_)
      rw [hw]
      rfl
    | processTx hw => exact hslots _ slots_processTx
    | cursor hw => exact hslots _ rfl
    | flip => exact absurd ⟨_, _, rfl⟩ hflip

/-! ## Runs -/

theorem snapshotFinal_run {es₁ : List Event} {m : IndexerState}
    (hchain : ∀ e ∈ es₁, AnswersFinal fin e) (h : exec (step env) .init es₁ = some m) :
    SnapshotFinal fin m := by
  refine exec_invariant_along (P := fun _ e => AnswersFinal fin e)
    (fun _ _ _ hI hP hm => snapshotFinal_step hm hP hI) ?_ (along_of_mem fun e he _ => hchain e he) h
  exact fun slot hslot => nomatch hslot

/-- **A finalized row carries the finalized slot**, in every state of a run, exactly if every row was
current when it was flipped. -/
theorem finalContents_iff_flipsCurrent (hchain : ∀ e ∈ es, AnswersFinal fin e)
    (hrun : exec (step env) .init es = some t) :
    (∀ es₁ es₂ m, es = es₁ ++ es₂ → exec (step env) .init es₁ = some m →
      FinalContents fin m.db) ↔ Along (step env) (FlipsCurrent fin) .init es := by
  constructor
  · intro hall
    apply along_of_forall
    intro es₁ e es₂ m hes hm
    rw [hes] at hrun
    obtain ⟨m', hm', hrest⟩ := exec_cut.1 hrun
    cases hm.symm.trans hm'
    obtain ⟨n, hn, -⟩ := exec_cons_eq_some.1 hrest
    have hsnap : SnapshotFinal fin m :=
      snapshotFinal_run (fun e he => hchain e (hes ▸ List.mem_append_left _ he)) hm
    apply (finalContents_step_iff hn hsnap (hall es₁ (e :: es₂) m hes hm)).1
    apply hall (es₁ ++ [e]) es₂ n (by rw [hes, List.append_assoc]; rfl)
    exact exec_cut.2 ⟨m, hm, exec_cons_eq_some.2 ⟨n, hn, rfl⟩⟩
  · intro hflips es₁ es₂ m hes hm
    subst hes
    have hinv : SnapshotFinal fin m ∧ FinalContents fin m.db := by
      refine exec_invariant_along (I := fun m => SnapshotFinal fin m ∧ FinalContents fin m.db)
        (P := fun s e => AnswersFinal fin e ∧ FlipsCurrent fin s e) ?_ ?_ ?_ hm
      · intro s e s' hI hP hs'
        exact ⟨snapshotFinal_step hs' hP.1 hI.1, (finalContents_step_iff hs' hI.1 hI.2).2 hP.2⟩
      · constructor
        · exact fun slot hslot => nomatch hslot
        · exact fun r hr => nomatch hr
      · refine Along.and (along_of_mem fun e he _ => ?_) ((along_append hm).1 hflips).1
        exact hchain e (List.mem_append_left _ he)
    exact hinv.2

/-! ## A slot replaced before it is final -/

/-- The chain ends with `hash` at every height. -/
def finalHash (hash : String) : UInt64 → String × Option String := fun _ => (hash, none)

theorem flipRun_current :
    ∃ t, exec (step plainEnv) .init (restartRun .ok true ++ flipRun) = some t ∧
      FinalContents (finalHash "0x01") t.db := by
  have hchain : ∀ e ∈ restartRun .ok true ++ flipRun, AnswersFinal (finalHash "0x01") e := by
    decide
  -- only the last event flips a row, and slot 1 was stored with its final hash
  obtain ⟨m, hm, hrows⟩ : ∃ m, exec (step plainEnv) .init (restartRun .ok true ++
      [.scan true, .refetch (.ok (some (emptySlot "finalized")))]) = some m ∧
      m.db.slots.map SlotRow.contents = [("0x01", none)] := ⟨_, rfl, rfl⟩
  have hbefore : Along (step plainEnv) (FlipsCurrent (finalHash "0x01")) .init
      (restartRun .ok true ++ [.scan true, .refetch (.ok (some (emptySlot "finalized")))]) := by
    apply along_of_mem
    intro e he _
    fin_cases he <;> trivial
  have hlast : FlipsCurrent (finalHash "0x01") m (.flip 20 .ok) := by
    intro height _ _ _ r hr _ _
    have hcontents : r.contents ∈ m.db.slots.map SlotRow.contents := List.mem_map_of_mem hr
    rw [hrows, List.mem_singleton] at hcontents
    exact hcontents
  have hflips : Along (step plainEnv) (FlipsCurrent (finalHash "0x01")) .init
      (restartRun .ok true ++ flipRun) :=
    (along_append hm).2 ⟨hbefore, hlast, fun _ _ => trivial⟩
  obtain ⟨t, hrun⟩ : ∃ t, exec (step plainEnv) .init (restartRun .ok true ++ flipRun) = some t :=
    ⟨_, rfl⟩
  refine ⟨t, hrun, (finalContents_iff_flipsCurrent hchain hrun).2 hflips _ [] t ?_ hrun⟩
  exact (List.append_nil _).symm

/-- Slot 1 is stored as pending with hash `0x01`; the chain replaces it, and it is final with hash
`0x02` when the re-poll task fetches it. -/
def replacedRun : List Event :=
  restartRun .ok true ++
    [.scan true, .refetch (.ok (some { emptySlot "finalized" with hash := "0x02" })), .flip 20 .ok]

theorem replacedRun_keeps_old_hash :
    (∀ e ∈ replacedRun, AnswersFinal (finalHash "0x02") e) ∧
      ∃ t, exec (step plainEnv) .init replacedRun = some t ∧
        (t.db.slotAt 1).map (fun r => (r.finalityStatus, r.hash)) =
          some (some "finalized", "0x01") ∧
        ¬ FinalContents (finalHash "0x02") t.db := by
  refine ⟨by decide, _, rfl, rfl, fun h => ?_⟩
  exact absurd (h _ List.mem_cons_self rfl) (by decide)

end LigateApi.Indexer
