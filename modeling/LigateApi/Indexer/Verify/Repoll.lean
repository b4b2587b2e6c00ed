import Mathlib.Data.Prod.Lex
import LigateApi.Lib.Liveness
import LigateApi.Indexer.Verify.CatchUp
import LigateApi.Indexer.Verify.Finality

/-!
# The re-poll task gets there

A pending row whose slot the chain reports as final is marked, if the re-poll task is scheduled
again and again: the round that is under way ends, the next one reads the row among the pending
ones, fetches its slot, and flips it. What the forward walk writes in between is fresh, so that the
row stays marked. The rank of the task is what is left of the round, after the rounds that do not
know of the row (`Repoll.knows`).
-/

namespace LigateApi.Indexer

open Lib Lib.Run

/-- Events of the re-poll task. -/
def Event.OfRepoll : Event → Prop
  | .scan _ | .refetch _ | .flip _ _ => True
  | .start _ _ | .crash | .head _ | .slotAt _ | .upsertSlot _ _ _ _ | .walkSlot _
  | .processTx _ _ | .cursor _ => False

/-- The chain has finalized slot `k` and answers when it is asked for it; the process lives, and
the database answers the task. -/
def ReportsFinal (k : UInt64) (s : IndexerState) : Event → Prop
  | .crash => False
  | .slotAt answer => ∀ slot, answer = .ok (some slot) → slot.number.toInt64 = k.toInt64 →
      slot.finalityStatus = some "finalized"
  | .processTx _ faults => ∀ stmt, faults stmt ≠ .crash
  | .scan readOk => readOk = true
  | .refetch answer => ∀ todo observed, s.repoll = .polling (k :: todo) observed →
      ∃ slot, answer = .ok (some slot) ∧ slot.finalityStatus = some "finalized"
  | .flip _ result => result = .ok
  | .start _ _ | .head _ | .upsertSlot _ _ _ _ | .walkSlot _ | .cursor _ => True

/-- The row of slot `k` is final. -/
def MarkedFinal (k : UInt64) (s : IndexerState) : Prop :=
  ∃ r, s.db.slotAt k.toInt64 = some r ∧ r.finalized

/-- The row of slot `k` is pending or final, and no other status is about to be written to it. -/
structure Watched (k : UInt64) (s : IndexerState) : Prop where
  up : s.walker.up = true
  row : ∃ r, s.db.slotAt k.toInt64 = some r ∧
    (r.finalityStatus = some "pending" ∨ r.finalityStatus = some "finalized")
  snapshot : ∀ slot ∈ s.walker.snapshot, slot.number.toInt64 = k.toInt64 →
    slot.finalityStatus = some "finalized"

/-- The round under way will come to the row, or has found it final. -/
def Repoll.Knows (k : UInt64) : Repoll → Prop
  | .sleeping => False
  | .polling todo observed => k ∈ todo ∨ (k, some "finalized") ∈ observed

instance (k : UInt64) (p : Repoll) : Decidable (p.Knows k) :=
  match p with
  | .sleeping => .isFalse id
  | .polling todo observed =>
    inferInstanceAs (Decidable (k ∈ todo ∨ (k, some "finalized") ∈ observed))

/-- Events left of the round. -/
def Repoll.left : Repoll → Nat
  | .sleeping => 0
  | .polling todo observed => 2 * todo.length + observed.length + 1

/-- Rounds that do not know of the row, then events. -/
def repollRank (k : UInt64) (p : Repoll) : ℕ ×ₗ ℕ :=
  if p.Knows k then toLex (0, p.left) else toLex (1, p.left)

section Steps

variable {env : Env} {s s' : IndexerState} {e : Event} {k : UInt64}

/-! ## The row -/

theorem DbStep.watchedRow {db : Db} (h : DbStep env s e db) (hs : Watched k s) :
    (∃ r, db.slotAt k.toInt64 = some r ∧
      (r.finalityStatus = some "pending" ∨ r.finalityStatus = some "finalized")) ∧
    (MarkedFinal k s → ∃ r, db.slotAt k.toInt64 = some r ∧ r.finalized) := by
  cases h with
  | same => exact ⟨hs.row, id⟩
  | @upsertSlot next head slot client now lookupOk result hw ha =>
    rw [slotAt_upsertSlot]
    split
    · rename_i hk
      have hfinal : slot.finalityStatus = some "finalized" :=
        hs.snapshot slot (by rw [hw]; rfl) hk.symm
      obtain ⟨r, hr, -⟩ := hs.row
      rw [hr]
      exact ⟨⟨_, rfl, .inr hfinal⟩, fun _ => ⟨_, rfl, hfinal⟩⟩
    · exact ⟨hs.row, id⟩
  | processTx hw =>
    unfold Db.slotAt
    rw [slots_processTx]
    exact ⟨hs.row, id⟩
  | cursor hw => exact ⟨hs.row, id⟩
  | @flip height now result =>
    rw [slotAt_flipPendingSlot]
    split
    · obtain ⟨r, hr, hstatus⟩ := hs.row
      rw [hr]
      simp only [Option.map_some]
      split
      · exact ⟨⟨_, rfl, .inr rfl⟩, fun _ => ⟨_, rfl, rfl⟩⟩
      · rename_i hp
        have hf := hstatus.resolve_left hp
        exact ⟨⟨_, rfl, .inr hf⟩, fun _ => ⟨_, rfl, hf⟩⟩
    · exact ⟨hs.row, id⟩

theorem watched_step (hs : Watched k s) (hg : ReportsFinal k s e)
    (hstep : step env s e = some s') : Watched k s' := by
  have hrow := ((step_db hstep).watchedRow hs).1
  cases step_cases hstep with
  | start hw => exact ⟨rfl, hrow, nofun⟩
  | crash hw => exact hg.elim
  | headError hw => exact hs
  | tail hw hlt => exact ⟨hs.up, hrow, hs.snapshot⟩
  | catchUp hw hle => exact ⟨rfl, hrow, nofun⟩
  | @slot next head slot hw =>
    refine ⟨rfl, hrow, ?_⟩
    rintro slot ⟨⟩ hk
    exact hg slot rfl hk
  | notFound hw =>
    refine ⟨?_, hrow, forall_mem_none (snapshot_advance _ _)⟩
    unfold advance
    dsimp only
    split <;> rfl
  | slotError hw => exact ⟨rfl, hrow, nofun⟩
  | upsertSlot hw =>
    refine ⟨?_, hrow, ?_⟩
    · dsimp only
      split <;> rfl
    · dsimp only
      split <;> exact nofun
  | walkSlot hw => exact ⟨rfl, hrow, nofun⟩
  | @processTx next head w works client faults hw =>
    have halive := crashed_processTx env client w s.db hg
    simp only [halive, Bool.false_eq_true, if_false] at hrow ⊢
    exact ⟨rfl, hrow, nofun⟩
  | cursor hw =>
    refine ⟨?_, hrow, forall_mem_none (snapshot_advance _ _)⟩
    unfold advance
    dsimp only
    split <;> rfl
  | poll hw => exact ⟨hs.up, hrow, hs.snapshot⟩
  | flip hw => exact ⟨hs.up, hrow, hs.snapshot⟩

theorem markedFinal_step (hs : Watched k s) (h : MarkedFinal k s)
    (hstep : step env s e = some s') : MarkedFinal k s' :=
  ((step_db hstep).watchedRow hs).2 h

/-! ## The round -/

theorem toUInt64_mem_pendingSlotHeights {db : Db} {r : SlotRow} (hr : r ∈ db.slots)
    (hp : r.finalityStatus = some "pending") : r.height.toUInt64 ∈ pendingSlotHeights db := by
  unfold pendingSlotHeights
  refine List.mem_map_of_mem ((List.mem_insertionSort _).2 (List.mem_map_of_mem ?_))
  exact List.mem_filter.2 ⟨hr, decide_eq_true hp⟩

/-- Until it is marked, the row is among those a scan reads. -/
theorem Watched.pending (hs : Watched k s) (hn : ¬ MarkedFinal k s) :
    k ∈ pendingSlotHeights s.db := by
  obtain ⟨r, hr, hp | hf⟩ := hs.row
  · have hmem := toUInt64_mem_pendingSlotHeights (Table.lookup_mem hr) hp
    rwa [show r.height = k.toInt64 from Table.lookup_key hr, UInt64.toUInt64_toInt64] at hmem
  · exact absurd ⟨r, hr, hf⟩ hn

theorem repollRank_lt {p p' : Repoll} (hknows : p.Knows k → p'.Knows k) (hleft : p'.left < p.left) :
    repollRank k p' < repollRank k p := by
  unfold repollRank
  by_cases hp : p.Knows k
  · rw [if_pos hp, if_pos (hknows hp)]
    exact Prod.Lex.right _ hleft
  · rw [if_neg hp]
    split
    · exact Prod.Lex.left _ _ Nat.zero_lt_one
    · exact Prod.Lex.right _ hleft

/-- The walk takes no event of the re-poll task. -/
theorem step_ofRepoll (he : e.OfRepoll) (hup : s.walker.up = true) :
    step env s e = stepRepoll s e := by
  have hnone : stepWalker env s e = none := by
    cases e <;> first | rfl | exact he.elim
  unfold step
  rw [hnone]
  exact if_pos hup

theorem repollRank_ofRepoll (hs : Watched k s) (hg : ReportsFinal k s e) (he : e.OfRepoll)
    (hn : ¬ MarkedFinal k s) (hn' : ¬ MarkedFinal k s') (hstep : step env s e = some s') :
    repollRank k s'.repoll < repollRank k s.repoll := by
  have hdown := hstep
  rw [step_ofRepoll he hs.up] at hdown
  cases e with
  | scan readOk =>
    obtain rfl := hg
    have hk := hs.pending hn
    simp only [stepRepoll] at hdown
    split at hdown
    · rename_i hr
      rw [if_pos ⟨trivial, List.ne_nil_of_mem hk⟩] at hdown
      cases hdown
      have hknows : (Repoll.polling (pendingSlotHeights s.db) []).Knows k := .inl hk
      have hsleep : ¬ Repoll.sleeping.Knows k := id
      simp only [repollRank, hr, if_pos hknows, if_neg hsleep]
      exact Prod.Lex.left _ _ Nat.zero_lt_one
    · cases hdown
  | refetch answer =>
    simp only [stepRepoll] at hdown
    split at hdown
    · rename_i height todo observed slot hr
      cases hdown
      rw [hr]
      refine repollRank_lt ?_ ?_
      · rintro (hmem | hmem)
        · rcases List.mem_cons.1 hmem with rfl | hmem
          · obtain ⟨slot', heq, hfinal⟩ := hg todo observed hr
            cases heq
            exact .inr (List.mem_append_right _ (by rw [hfinal]; exact List.mem_singleton_self _))
          · exact .inl hmem
        · exact .inr (List.mem_append_left _ hmem)
      · simp only [Repoll.left, List.length_cons, List.length_append, List.length_nil]
        omega
    · rename_i height todo observed hr hanswer
      cases hdown
      rw [hr]
      refine repollRank_lt ?_ ?_
      · rintro (hmem | hmem)
        · rcases List.mem_cons.1 hmem with rfl | hmem
          · obtain ⟨slot, heq, -⟩ := hg todo observed hr
            exact absurd heq (hanswer slot)
          · exact .inl hmem
        · exact .inr hmem
      · simp only [Repoll.left, List.length_cons]
        omega
    · cases hdown
  | flip now result =>
    obtain rfl := hg
    simp only [stepRepoll] at hdown
    split at hdown
    · rename_i hr
      cases hdown
      rw [hr]
      refine repollRank_lt ?_ ?_
      · rintro (hmem | hmem) <;> cases hmem
      · simp only [Repoll.left]
        omega
    · rename_i height status rest hr
      cases hdown
      simp only [hr, ne_eq, not_true_eq_false, and_false, if_false]
      refine repollRank_lt ?_ ?_
      · rintro (hmem | hmem)
        · cases hmem
        · rcases List.mem_cons.1 hmem with heq | hmem
          · -- the row itself is flipped
            obtain ⟨rfl, rfl⟩ := Prod.mk.inj heq
            refine absurd ?_ hn'
            obtain ⟨r, hr, hstatus⟩ := hs.row
            unfold MarkedFinal flipObserved
            simp only [WriteResult.applied, ne_eq, reduceCtorEq, not_false_eq_true, decide_true,
              and_self, if_true]
            rw [slotAt_flipPendingSlot, if_pos rfl, hr]
            refine ⟨_, rfl, ?_⟩
            dsimp only
            split
            · rfl
            · rename_i hp
              exact hstatus.resolve_left hp
          · exact .inr hmem
      · simp only [Repoll.left, List.length_cons, List.length_nil]
        omega
    · cases hdown
  | _ => exact he.elim

/-- The forward walk leaves the round where it is. -/
theorem repoll_notOfRepoll (hg : ReportsFinal k s e) (he : ¬ e.OfRepoll)
    (hstep : step env s e = some s') : s'.repoll = s.repoll := by
  have hnone : stepRepoll s e = none := by
    cases e <;> first | rfl | exact absurd trivial he
  have hwalk : stepWalker env s e = some s' := by
    unfold step at hstep
    split at hstep
    · rename_i hw
      exact hw.trans hstep
    · rw [hnone, ite_self] at hstep
      cases hstep
  cases e with
  | crash => exact hg.elim
  | scan readOk => exact absurd trivial he
  | refetch answer => exact absurd trivial he
  | flip now result => exact absurd trivial he
  | processTx client faults =>
    simp only [stepWalker] at hwalk
    split at hwalk
    · rename_i next head w works hw
      simp only [crashed_processTx env client w s.db hg, Bool.false_eq_true, if_false] at hwalk
      cases hwalk
      rfl
    · cases hwalk
  | _ =>
    simp only [stepWalker] at hwalk
    split at hwalk <;> first | (cases hwalk; rfl) | cases hwalk

end Steps

/-! ## Runs -/

section Runs

variable {env : Env} {k : UInt64}

/-- **A final slot gets its mark and keeps it.** -/
theorem marked_of_reported_final {t : Trace (step env)} (h₀ : Watched k (t.state 0))
    (hg : ∀ n, ReportsFinal k (t.state n) (t.event n)) (hfair : t.Fair Event.OfRepoll) :
    ∃ n, ∀ m, n ≤ m → MarkedFinal k (t.state m) := by
  have hwatched : ∀ n, Watched k (t.state n) :=
    Trace.keeps h₀ fun n hn => watched_step hn (hg n) (t.next n)
  obtain ⟨n, hn⟩ : ∃ n, MarkedFinal k (t.state n) := by
    refine Trace.eventually (fun s => repollRank k s.repoll) hfair hwatched ?_ ?_
    · intro n hn hgoal hgoal'
      by_cases he : (t.event n).OfRepoll
      · exact (repollRank_ofRepoll hn (hg n) he hgoal hgoal' (t.next n)).le
      · rw [repoll_notOfRepoll (hg n) he (t.next n)]
    · intro n hn hgoal hgoal' he
      exact repollRank_ofRepoll hn (hg n) he hgoal hgoal' (t.next n)
  refine ⟨n, fun m hnm => ?_⟩
  obtain ⟨d, rfl⟩ := Nat.exists_eq_add_of_le hnm
  induction d with
  | zero => exact hn
  | succ d ih =>
    exact markedFinal_step (hwatched (n + d)) (ih (Nat.le_add_right n d)) (t.next (n + d))

end Runs

/-! ## Slot 1 -/

section Example

/-- Slot 1 is read as pending, fetched as final and flipped; then nothing is pending any more. -/
def markingEvent (n : Nat) : Event :=
  (flipRun ++ [Event.flip 20 .ok]).getD n (.scan true)

theorem exec_marking {s : IndexerState}
    (hs : exec (step plainEnv) .init (restartRun .ok true) = some s) (n : Nat) :
    exec (step plainEnv) s ((List.range (4 + n)).map markingEvent) =
      some { s with db := flipPendingSlot 1 20 s.db } := by
  have hstay : step plainEnv { s with db := flipPendingSlot 1 20 s.db } (.scan true) =
      some { s with db := flipPendingSlot 1 20 s.db } := by
    cases hs
    rfl
  induction n with
  | zero =>
    cases hs
    rfl
  | succ n ih =>
    have hevent : markingEvent (4 + n) = .scan true := by
      unfold markingEvent
      rw [Nat.add_comm]
      rfl
    rw [← Nat.add_assoc, List.range_succ, List.map_append, exec_cut]
    refine ⟨_, ih, ?_⟩
    rw [List.map_singleton, hevent, exec_cons_eq_some]
    exact ⟨_, hstay, exec_nil _⟩

theorem isSome_marking {s : IndexerState}
    (hs : exec (step plainEnv) .init (restartRun .ok true) = some s) (n : Nat) :
    (exec (step plainEnv) s ((List.range n).map markingEvent)).isSome := by
  have hlong := exec_marking hs n
  rw [Nat.add_comm, List.range_add, List.map_append, exec_cut] at hlong
  obtain ⟨m, hm, -⟩ := hlong
  rw [hm]
  rfl

theorem ofRepoll_marking (n : Nat) : (markingEvent n).OfRepoll := by
  match n with
  | 0 | 1 | 2 | 3 => trivial
  | _ + 4 => trivial

theorem reportsFinal_marking (s : IndexerState) (n : Nat) :
    ReportsFinal 1 s (markingEvent n) := by
  match n with
  | 0 => rfl
  | 1 => exact fun _ _ _ => ⟨emptySlot "finalized", rfl, rfl⟩
  | 2 => rfl
  | 3 => rfl
  | _ + 4 => rfl

theorem marked_of_reported_final_slot_one :
    ∃ s t, exec (step plainEnv) .init (restartRun .ok true) = some s ∧ ¬ MarkedFinal 1 s ∧
      MarkedFinal 1 t ∧ ∃ n, exec (step plainEnv) s ((List.range n).map markingEvent) = some t := by
  obtain ⟨s, hs⟩ : ∃ s, exec (step plainEnv) .init (restartRun .ok true) = some s := ⟨_, rfl⟩
  have h₀ : Watched 1 s ∧ ¬ MarkedFinal 1 s := by
    cases hs
    refine ⟨⟨rfl, ⟨_, rfl, .inl rfl⟩, nofun⟩, ?_⟩
    rintro ⟨r, hr, hf⟩
    cases hr
    exact absurd hf (by decide)
  obtain ⟨n, hn⟩ : ∃ n, ∀ m, n ≤ m → MarkedFinal 1
      ((Trace.ofEvents s markingEvent (isSome_marking hs)).state m) :=
    marked_of_reported_final h₀.1 (fun n => reportsFinal_marking _ n) fun n =>
      ⟨n, Nat.le_refl n, ofRepoll_marking n⟩
  exact ⟨s, _, hs, h₀.2, hn n (Nat.le_refl n), n, (Option.some_get _).symm⟩

end Example

end LigateApi.Indexer
