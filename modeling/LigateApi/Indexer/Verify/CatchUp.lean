import Mathlib.Data.Prod.Lex
import Mathlib.Order.Lex
import LigateApi.Lib.Liveness
import LigateApi.Indexer.Verify.Bounty
import LigateApi.Indexer.Verify.Cursor

/-!
# The walk catches up

`Cursor` says that nothing is passed over; here that something happens. From some state on, reached
over any faults, node and database answer (`Healthy`): then every height the node goes on reporting
as below its head gets its row and is behind the stored cursor, as long as the walk is scheduled
again and again. The database may refuse statements of transactions meanwhile, and the re-poll task
runs in between as it likes. The rank of the walk is what is left up to the height: heights, then
the phase of the turn, then transactions to write.
-/

namespace LigateApi.Indexer

open Lib Lib.Run

/-! ## A process that does not die -/

section Alive

variable {env : Env} {faults : TxStmt → Fault} {stmt : TxStmt} {f : Db → Except DbError Db}
  {g onOk onErr : TxRun → TxRun} {w : TxWork} {client : NodeClient}

theorem Steady.attempt_alive (hf : ∀ stmt, faults stmt ≠ .crash) (hok : Steady onOk)
    (herr : Steady onErr) : Steady (TxRun.attempt faults stmt f onOk onErr) := by
  intro r hr
  unfold TxRun.attempt
  simp only [hr, Bool.false_eq_true, if_false]
  cases hs : faults stmt with
  | crash => exact absurd hs (hf stmt)
  | refuse => exact herr _ rfl
  | none =>
    dsimp only
    split
    · exact hok _ rfl
    · exact herr _ rfl

theorem steady_id : Steady id := fun _ h => h

/-- A last statement. -/
theorem Steady.last_alive (hf : ∀ stmt, faults stmt ≠ .crash) :
    Steady (TxRun.attempt faults stmt f id id) :=
  Steady.attempt_alive hf steady_id steady_id

theorem steady_countActivity_alive {role : AddressRole} {address : Option String}
    (hf : ∀ stmt, faults stmt ≠ .crash) (hg : Steady g) :
    Steady (countActivity faults stmt role w address g) := by
  cases address with
  | none => exact hg
  | some a => exact Steady.attempt_alive hf hg steady_id

theorem steady_insertResourceRows (hf : ∀ stmt, faults stmt ≠ .crash) :
    Steady (insertResourceRows env faults client w) := by
  have hlast : ∀ stmt f, Steady (TxRun.attempt faults stmt f id id) :=
    fun _ _ => Steady.last_alive hf
  unfold insertResourceRows
  split
  · exact hlast _ _
  · refine Steady.attempt_alive hf (fun r hr => ?_) steady_id
    exact hlast _ _ _ (hlast _ _ r hr)
  · exact Steady.attempt_alive hf (hlast _ _) steady_id
  · split
    · refine Steady.attempt_alive hf ?_ steady_id
      unfold bountyDelta
      split
      · exact hlast _ _
      · exact hlast _ _
      · exact hlast _ _
      · exact steady_id
      · exact steady_id
      · exact steady_id
    · exact steady_id
    · exact steady_id
  · split
    · refine Steady.attempt_alive hf ?_ steady_id
      unfold contractDelta
      split
      · exact hlast _ _
      · exact hlast _ _
      · exact hlast _ _
      · exact hlast _ _
      · exact steady_id
      · exact steady_id
      · exact steady_id
      · exact steady_id
    · exact steady_id
    · exact steady_id
  · exact steady_id
  · exact steady_id

theorem crashed_processTx (env : Env) (client : NodeClient) (w : TxWork) (db : Db)
    (hf : ∀ stmt, faults stmt ≠ .crash) : (processTx env faults client w db).crashed = false := by
  refine Steady.attempt_alive hf (fun r hr => ?_) steady_id { db } rfl
  exact steady_insertResourceRows hf _
    (steady_countActivity_alive hf (steady_countActivity_alive hf steady_id) r hr)

end Alive

/-! ## Healthy events -/

/-- Events of the forward walk. -/
def Event.OfWalk : Event → Prop
  | .start _ _ | .head _ | .slotAt _ | .upsertSlot _ _ _ _ | .walkSlot _ | .processTx _ _
  | .cursor _ => True
  | .crash | .scan _ | .refetch _ | .flip _ _ => False

/-- Node and database answer: the head is at `top` at least, a slot is served under its number,
slots and the cursor are written. -/
def Healthy (top : UInt64) (s : IndexerState) : Event → Prop
  | .start startHeight readOk => startHeight = none ∧ readOk = true
  | .crash => False
  | .head answer => ∃ head, answer = some head ∧ top ≤ head ∧ head.toNat + 1 < 2 ^ 64
  | .slotAt answer => ∃ slot, answer = .ok (some slot) ∧ s.walker.nextHeight = some slot.number
  | .upsertSlot _ _ _ result => result = .ok
  | .processTx _ faults => ∀ stmt, faults stmt ≠ .crash
  | .cursor result => result = .ok
  | .walkSlot _ | .scan _ | .refetch _ | .flip _ _ => True

/-- The height the walk is at, or a process started now would be. -/
def resumeHeight (s : IndexerState) : UInt64 :=
  s.walker.nextHeight.getD (startHeightOf none true s.db)

/-- What is done since the walk was at `first`. -/
structure Gained (first : UInt64) (s : IndexerState) : Prop where
  inv : CursorInv s
  reached : first ≤ resumeHeight s
  stored : ∀ k, first ≤ k → k < resumeHeight s → s.db.hasSlot k.toInt64
  cursor : first < resumeHeight s →
    ∃ c ∈ s.db.lastIndexedHeight, (resumeHeight s).toNat ≤ c.toNat + 1

/-- How far a turn is from its end: the phase, and the transactions left. -/
def Walker.phase : Walker → ℕ ×ₗ ℕ
  | .down => toLex (5, 0)
  | .idle _ => toLex (4, 0)
  | .walking _ _ => toLex (3, 0)
  | .storing _ _ _ => toLex (2, 0)
  | .stored _ _ _ => toLex (1, 0)
  | .ingesting _ _ works => toLex (0, works.length)

/-- The heights left up to `top`, and how far the turn is from its end. -/
def walkRank (top : UInt64) (s : IndexerState) : ℕ ×ₗ ℕ ×ₗ ℕ :=
  toLex (top.toNat + 1 - (resumeHeight s).toNat, s.walker.phase)

section Steps

variable {env : Env} {s s' : IndexerState} {e : Event} {top first next head : UInt64}

theorem Healthy.regular (h : Healthy top s e) : Regular s e := by
  cases e with
  | start startHeight readOk => exact h.1
  | slotAt answer =>
    obtain ⟨slot, rfl, hnumber⟩ := h
    exact hnumber
  | _ => trivial

theorem Healthy.headBelowMax (h : Healthy top s e) : HeadBelowMax e := by
  cases e with
  | head answer =>
    obtain ⟨head, rfl, -, hbound⟩ := h
    exact hbound
  | _ => trivial

theorem resumeHeight_up (h : s.walker.nextHeight = some next) : resumeHeight s = next := by
  unfold resumeHeight
  rw [h]
  rfl

/-- Both states are in the turn for `next`. -/
theorem resumeHeight_turn (h : s.walker.nextHeight = some next)
    (h' : s'.walker.nextHeight = some next) : resumeHeight s' = resumeHeight s := by
  rw [resumeHeight_up h, resumeHeight_up h']

theorem resumeHeight_down (hw : s.walker = .down) :
    resumeHeight s = startHeightOf none true s.db := by
  unfold resumeHeight
  rw [hw]
  rfl

theorem CursorInv.resume (h : CursorInv s) : Reached s (resumeHeight s).toNat := by
  cases hn : s.walker.nextHeight with
  | some next =>
    rw [resumeHeight_up hn]
    exact h.walker.next next hn
  | none =>
    unfold resumeHeight
    rw [hn]
    exact (h.startHeight true).1

/-! ## What a step gains -/

theorem Gained.refl (h : CursorInv s) : Gained (resumeHeight s) s where
  inv := h
  reached := UInt64.le_rfl
  stored k hfirst hk := absurd (UInt64.lt_of_lt_of_le hk hfirst) (UInt64.lt_irrefl k)
  cursor hlt := absurd hlt (UInt64.lt_irrefl _)

/-- A step within the turn. -/
theorem Gained.turn (h : Gained first s) (hinv : CursorInv s') (hext : Extends s s')
    (hresume : resumeHeight s' = resumeHeight s)
    (hlast : s'.db.lastIndexedHeight = s.db.lastIndexedHeight) : Gained first s' where
  inv := hinv
  reached := hresume ▸ h.reached
  stored k hfirst hk := hext.slots _ (h.stored k hfirst (hresume ▸ hk))
  cursor hlt := by
    rw [hresume] at hlt ⊢
    rw [hlast]
    exact h.cursor hlt

/-- The step that ends the turn for `next`. -/
theorem Gained.finish (h : Gained first s) (hinv : CursorInv s') (hext : Extends s s')
    (hnext : s.walker.nextHeight = some next) (hloop : s.walker.loop = some (next, head))
    (hw : s'.walker = advance next head) (hrow : s'.db.hasSlot next.toInt64)
    (hlast : s'.db.lastIndexedHeight = some next) : Gained first s' := by
  obtain ⟨-, hle, -, hbound⟩ := h.inv.inLoop hnext hloop
  have hsucc := toNat_succ hle hbound
  have hold := resumeHeight_up hnext
  have hnew : resumeHeight s' = next + 1 := resumeHeight_up (by rw [hw, nextHeight_advance])
  have hfrom := h.reached
  refine ⟨hinv, ?_, fun k hfirst hk => ?_, fun _ => ⟨next, hlast, ?_⟩⟩
  · rw [hold, UInt64.le_iff_toNat_le] at hfrom
    rw [hnew, UInt64.le_iff_toNat_le]
    omega
  · rw [hnew, UInt64.lt_iff_toNat_lt, hsucc] at hk
    rcases Nat.lt_succ_iff_lt_or_eq.1 hk with hlt | heq
    · exact hext.slots _ (h.stored k hfirst (hold ▸ UInt64.lt_iff_toNat_lt.2 hlt))
    · rwa [UInt64.toNat.inj heq]
  · rw [hnew, hsucc]

theorem gained_step (h : Gained first s) (hg : Healthy top s e) (hstep : step env s e = some s') :
    Gained first s' := by
  have hinv := cursorInv_step h.inv hg.regular hg.headBelowMax hstep
  have hext := step_extends hstep
  cases step_cases hstep with
  | start hw =>
    obtain ⟨rfl, rfl⟩ := hg
    exact h.turn hinv hext (resumeHeight_down hw).symm rfl
  | crash hw => exact hg.elim
  | headError hw => exact h
  | tail hw hlt => exact h.turn hinv hext rfl rfl
  | catchUp hw hle => exact h.turn hinv hext (resumeHeight_turn (by rw [hw]; rfl) rfl) rfl
  | slot hw => exact h.turn hinv hext (resumeHeight_turn (by rw [hw]; rfl) rfl) rfl
  | notFound hw =>
    obtain ⟨slot, heq, -⟩ := hg
    cases heq
  | slotError hw =>
    obtain ⟨slot, heq, -⟩ := hg
    cases heq
  | upsertSlot hw =>
    obtain rfl := hg
    exact h.turn hinv hext (resumeHeight_turn (by rw [hw]; rfl) rfl) rfl
  | walkSlot hw => exact h.turn hinv hext (resumeHeight_turn (by rw [hw]; rfl) rfl) rfl
  | @processTx next head w works client faults hw =>
    have halive := crashed_processTx env client w s.db hg
    simp only [halive, Bool.false_eq_true, if_false] at hinv hext ⊢
    exact h.turn hinv hext (resumeHeight_turn (by rw [hw]; rfl) rfl) lastIndexedHeight_processTx
  | @cursor next head result hw =>
    obtain rfl := hg
    have hrow := h.inv.walker.row next (by rw [hw]; rfl)
    exact h.finish hinv hext (by rw [hw]; rfl) (by rw [hw]; rfl) rfl hrow rfl
  | poll hw => exact h.turn hinv hext rfl rfl
  | flip hw => exact h.turn hinv hext rfl rfl

/-! ## What a step leaves to do -/

/-- Within the turn the phase counts. -/
theorem walkRank_lt_of_phase (hresume : resumeHeight s' = resumeHeight s)
    (hphase : s'.walker.phase < s.walker.phase) : walkRank top s' < walkRank top s := by
  unfold walkRank
  rw [hresume]
  exact Prod.Lex.right _ hphase

/-- Between two turns the heights left do. -/
theorem walkRank_lt_of_resume (hle : resumeHeight s ≤ top)
    (hlt : resumeHeight s < resumeHeight s') : walkRank top s' < walkRank top s := by
  rw [UInt64.le_iff_toNat_le] at hle
  rw [UInt64.lt_iff_toNat_lt] at hlt
  exact Prod.Lex.left _ _ (by omega)

/-- One phase further in the turn for `next`. -/
theorem walkRank_lt_of_turn {w : Walker} (hw : s.walker = w) (hnext : w.nextHeight = some next)
    (hnext' : s'.walker.nextHeight = some next)
    (hlt : (ofLex s'.walker.phase).1 < (ofLex w.phase).1) : walkRank top s' < walkRank top s := by
  refine walkRank_lt_of_phase (resumeHeight_turn (hw ▸ hnext) hnext') ?_
  rw [hw]
  exact Prod.Lex.left _ _ hlt

/-- The re-poll task takes no event of the walk. -/
theorem step_ofWalk (he : e.OfWalk) : step env s e = stepWalker env s e := by
  have hnone : stepRepoll s e = none := by
    cases e <;> first | rfl | exact he.elim
  unfold step
  cases hw : stepWalker env s e with
  | some s' => rfl
  | none => simp only [hnone, ite_self]

/-- The walk keeps its rank while the re-poll task is at work. -/
theorem walkRank_notOfWalk (hg : Healthy top s e) (he : ¬ e.OfWalk)
    (hstep : step env s e = some s') : walkRank top s' = walkRank top s := by
  cases step_cases hstep with
  | crash => exact hg.elim
  | poll hw => rfl
  | flip hw => rfl
  | _ => exact absurd trivial he

theorem walkRank_ofWalk (h : Gained first s) (hg : Healthy top s e) (he : e.OfWalk)
    (hleft : resumeHeight s ≤ top) (hstep : step env s e = some s') :
    walkRank top s' < walkRank top s := by
  rw [step_ofWalk he] at hstep
  cases e with
  | start startHeight readOk =>
    obtain ⟨rfl, rfl⟩ := hg
    simp only [stepWalker] at hstep
    split at hstep
    · rename_i hw
      cases hstep
      refine walkRank_lt_of_phase (resumeHeight_down hw).symm ?_
      rw [hw]
      exact Prod.Lex.left _ _ (by omega)
    · cases hstep
  | head answer =>
    obtain ⟨head, rfl, htop, -⟩ := hg
    simp only [stepWalker] at hstep
    split at hstep
    · rename_i hanswer
      cases hanswer
    · rename_i next head' hw hanswer
      cases hanswer
      cases hstep
      have hle : ¬ head < next := by
        have hresume : resumeHeight s = next := resumeHeight_up (by rw [hw]; rfl)
        rw [UInt64.not_lt, ← hresume]
        exact UInt64.le_trans hleft htop
      simp only [hle, if_false]
      exact walkRank_lt_of_turn hw rfl rfl (Nat.lt_succ_self 3)
    · cases hstep
  | slotAt answer =>
    obtain ⟨slot, rfl, -⟩ := hg
    simp only [stepWalker] at hstep
    split at hstep
    · rename_i hw hanswer
      cases hanswer
      cases hstep
      exact walkRank_lt_of_turn hw rfl rfl (Nat.lt_succ_self 2)
    · rename_i hanswer
      cases hanswer
    · rename_i hanswer
      cases hanswer
    · cases hstep
  | upsertSlot client now lookupOk result =>
    obtain rfl := hg
    simp only [stepWalker] at hstep
    split at hstep
    · rename_i hw
      cases hstep
      exact walkRank_lt_of_turn hw rfl rfl (Nat.lt_succ_self 1)
    · cases hstep
  | walkSlot client =>
    simp only [stepWalker] at hstep
    split at hstep
    · rename_i hw
      cases hstep
      exact walkRank_lt_of_turn hw rfl rfl (Nat.lt_succ_self 0)
    · cases hstep
  | processTx client faults =>
    simp only [stepWalker] at hstep
    split at hstep
    · rename_i next head w works hw
      have halive := crashed_processTx env client w s.db hg
      simp only [halive, Bool.false_eq_true, if_false] at hstep
      cases hstep
      refine walkRank_lt_of_phase (resumeHeight_turn (by rw [hw]; rfl) rfl) ?_
      rw [hw]
      exact Prod.Lex.right _ (Nat.lt_succ_self works.length)
    · cases hstep
  | cursor result =>
    simp only [stepWalker] at hstep
    split at hstep
    · rename_i next head hw
      cases hstep
      have hnext : s.walker.nextHeight = some next := by rw [hw]; rfl
      have hloop : s.walker.loop = some (next, head) := by rw [hw]; rfl
      obtain ⟨-, hle, -, hbound⟩ := h.inv.inLoop hnext hloop
      have hsucc := toNat_succ hle hbound
      refine walkRank_lt_of_resume hleft ?_
      rw [resumeHeight_up hnext, resumeHeight_up (nextHeight_advance next head),
        UInt64.lt_iff_toNat_lt]
      omega
    · cases hstep
  | _ => exact he.elim

end Steps

/-! ## Runs -/

/-- The heights from `first` to `top` have their rows and lie behind the cursor; below `first` no
height is passed over that the node did not answer 404 to. -/
structure CaughtUp (first top : UInt64) (s : IndexerState) : Prop where
  cursor : ∃ c ∈ s.db.lastIndexedHeight, top ≤ c
  stored : ∀ k, first ≤ k → k ≤ top → s.db.hasSlot k.toInt64
  covered : ∀ k, 1 ≤ k → k ≤ top → Covered s k

section Runs

variable {env : Env} {s : IndexerState} {es : List Event} {top first : UInt64}

theorem cursorInv_of_run (hr : Along (step env) Regular .init es)
    (hb : ∀ e ∈ es, HeadBelowMax e) (h : exec (step env) .init es = some s) : CursorInv s :=
  exec_invariant_along (fun _ _ _ hI hP hs => cursorInv_step hI hP.1 hP.2 hs) cursorInv_init
    (hr.and (along_of_mem fun e he _ => hb e he)) h

theorem Gained.caughtUp (h : Gained first s) (hfirst : first ≤ top)
    (hpast : top < resumeHeight s) : CaughtUp first top s := by
  obtain ⟨c, hc, hle⟩ := h.cursor (UInt64.lt_of_le_of_lt hfirst hpast)
  refine ⟨⟨c, hc, ?_⟩, fun k hk hktop => h.stored k hk (UInt64.lt_of_le_of_lt hktop hpast),
    fun k h1 hktop => ?_⟩
  · rw [UInt64.lt_iff_toNat_lt] at hpast
    rw [UInt64.le_iff_toNat_le]
    omega
  · have hlt : k < resumeHeight s := UInt64.lt_of_le_of_lt hktop hpast
    rw [UInt64.le_iff_toNat_le] at h1
    exact h.inv.resume.covered k h1 (UInt64.lt_iff_toNat_lt.1 hlt)

/-- **The walk catches up.** After any run, whatever failed in it: once node and database answer
and the node goes on reporting a head not below `top`, a walk that is scheduled again and again
comes to a state where all heights up to `top` are stored and behind the cursor. -/
theorem catches_up_of_healthy {t : Trace (step env)}
    (hr : Along (step env) Regular .init es) (hb : ∀ e ∈ es, HeadBelowMax e)
    (h : exec (step env) .init es = some (t.state 0))
    (hg : ∀ n, Healthy top (t.state n) (t.event n)) (hfair : t.Fair Event.OfWalk)
    (hfirst : resumeHeight (t.state 0) ≤ top) :
    ∃ n, CaughtUp (resumeHeight (t.state 0)) top (t.state n) := by
  have hgained : ∀ n, Gained (resumeHeight (t.state 0)) (t.state n) := by
    refine Trace.keeps (I := Gained (resumeHeight (t.state 0)))
      (Gained.refl (cursorInv_of_run hr hb h)) fun n hn => ?_
    exact gained_step hn (hg n) (t.next n)
  obtain ⟨n, hn⟩ : ∃ n, top < resumeHeight (t.state n) := by
    refine Trace.eventually (G := fun s => top < resumeHeight s) (walkRank top) hfair hgained
      ?_ ?_
    · intro n hn hgoal _
      by_cases he : (t.event n).OfWalk
      · exact (walkRank_ofWalk hn (hg n) he (UInt64.not_lt.1 hgoal) (t.next n)).le
      · exact (walkRank_notOfWalk (hg n) he (t.next n)).le
    · intro n hn hgoal _ he
      exact walkRank_ofWalk hn (hg n) he (UInt64.not_lt.1 hgoal) (t.next n)
  exact ⟨n, (hgained n).caughtUp hfirst hn⟩

end Runs

/-! ## Slot 1 after a crash -/

section Example

/-- Slot 1 was stored, its cursor refused and the process killed; now it is walked again. -/
def resumedEvents : List Event :=
  [.start none true, .head (some 1), .slotAt (.ok (some (emptySlot "pending"))),
    .upsertSlot silentNode 20 true .ok, .walkSlot silentNode, .cursor .ok]

/-- Then the head is fetched for ever. -/
def resumedEvent (n : Nat) : Event := resumedEvents.getD n (.head (some 1))

/-- At the head, after the given number of fetches. -/
def atHead (fetches : Nat) : IndexerState where
  db := writeLastIndexedHeight 1 (upsertSlot (emptySlot "pending") none none 20 true
    (upsertSlot (emptySlot "pending") none none 10 true Db.empty))
  walker := .idle 2
  repoll := .sleeping
  heads := List.replicate fetches 1
  notFound := []
  offCursor := false

theorem exec_resumed {s : IndexerState}
    (hs : exec (step plainEnv) .init ((restartRun .refused true).take 7) = some s) (n : Nat) :
    exec (step plainEnv) s ((List.range (6 + n)).map resumedEvent) = some (atHead (n + 2)) := by
  induction n with
  | zero =>
    cases hs
    rfl
  | succ n ih =>
    have hevent : resumedEvent (6 + n) = .head (some 1) := by
      unfold resumedEvent
      rw [Nat.add_comm]
      rfl
    rw [← Nat.add_assoc, List.range_succ, List.map_append, exec_cut]
    refine ⟨_, ih, ?_⟩
    rw [List.map_singleton, hevent, exec_cons_eq_some]
    refine ⟨_, rfl, ?_⟩
    rw [exec_nil, Option.some.injEq]
    simp only [atHead, IndexerState.mk.injEq, true_and, and_true]
    refine ⟨rfl, ?_⟩
    rw [← List.replicate_succ']

theorem isSome_resumed {s : IndexerState}
    (hs : exec (step plainEnv) .init ((restartRun .refused true).take 7) = some s) (n : Nat) :
    (exec (step plainEnv) s ((List.range n).map resumedEvent)).isSome := by
  have hlong := exec_resumed hs n
  rw [Nat.add_comm, List.range_add, List.map_append, exec_cut] at hlong
  obtain ⟨m, hm, -⟩ := hlong
  rw [hm]
  rfl

theorem ofWalk_resumed (n : Nat) : (resumedEvent n).OfWalk := by
  match n with
  | 0 | 1 | 2 | 3 | 4 | 5 => trivial
  | _ + 6 => trivial

theorem healthy_resumed {s : IndexerState}
    (hs : exec (step plainEnv) .init ((restartRun .refused true).take 7) = some s) (n : Nat) :
    Healthy 1 ((Trace.ofEvents s resumedEvent (isSome_resumed hs)).state n) (resumedEvent n) := by
  cases hs
  match n with
  | 0 => exact ⟨rfl, rfl⟩
  | 1 => exact ⟨1, rfl, UInt64.le_rfl, by decide⟩
  | 2 => exact ⟨emptySlot "pending", rfl, rfl⟩
  | 3 => rfl
  | 4 => trivial
  | 5 => rfl
  | _ + 6 => exact ⟨1, rfl, UInt64.le_rfl, by decide⟩

theorem catches_up_of_healthy_resumed :
    ∃ s t, exec (step plainEnv) .init ((restartRun .refused true).take 7) = some s ∧
      s.db.lastIndexedHeight = none ∧ CaughtUp 1 1 t ∧
      ∃ n, exec (step plainEnv) s ((List.range n).map resumedEvent) = some t := by
  obtain ⟨s, hs⟩ : ∃ s, exec (step plainEnv) .init ((restartRun .refused true).take 7) = some s :=
    ⟨_, rfl⟩
  have hlast : s.db.lastIndexedHeight = none ∧ resumeHeight s = 1 := by
    cases hs
    exact ⟨rfl, rfl⟩
  obtain ⟨n, hn⟩ : ∃ n, CaughtUp (resumeHeight s) 1
      ((Trace.ofEvents s resumedEvent (isSome_resumed hs)).state n) := by
    refine catches_up_of_healthy (by decide) (by decide) hs (healthy_resumed hs)
      (fun n => ⟨n, Nat.le_refl n, ofWalk_resumed n⟩) ?_
    exact hlast.2 ▸ UInt64.le_rfl
  rw [hlast.2] at hn
  exact ⟨s, _, hs, hlast.1, hn, n, (Option.some_get _).symm⟩

end Example

end LigateApi.Indexer
