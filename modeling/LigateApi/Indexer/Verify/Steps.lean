import LigateApi.Indexer.Run
import LigateApi.Indexer.Verify.Statements

/-!
# What an event does

`Step` lists the transitions of the machine with their guards (`step_cases`); everything below and
in the modules on runs is read off it. Four kinds of events write to the database: storing a slot,
flipping a pending one, a transaction and the cursor (`DbStep`).
-/

namespace LigateApi.Indexer

open Lib

/-- The slot the forward walk has fetched and is about to write. -/
def Walker.snapshot : Walker → Option SlotResponse
  | .storing _ _ slot => some slot
  | _ => none

@[simp] theorem snapshot_advance (next head : UInt64) : (advance next head).snapshot = none := by
  unfold advance
  split <;> rfl

inductive Step (env : Env) (s : IndexerState) : Event → IndexerState → Prop
  | start {startHeight : Option UInt64} {readOk : Bool} (hw : s.walker = .down) :
      Step env s (.start startHeight readOk)
        { s with
          walker := .idle (startHeightOf startHeight readOk s.db)
          offCursor := startHeight.isSome || !readOk }
  | crash (hw : s.walker.up = true) :
      Step env s .crash { s with walker := .down, repoll := .sleeping }
  | headError {next : UInt64} (hw : s.walker = .idle next) : Step env s (.head none) s
  | tail {next head : UInt64} (hw : s.walker = .idle next) (hlt : head < next) :
      Step env s (.head (some head)) { s with heads := s.heads ++ [head] }
  | catchUp {next head : UInt64} (hw : s.walker = .idle next) (hle : next ≤ head) :
      Step env s (.head (some head))
        { s with walker := .walking next head, heads := s.heads ++ [head] }
  | slot {next head : UInt64} {slot : SlotResponse} (hw : s.walker = .walking next head) :
      Step env s (.slotAt (.ok (some slot))) { s with walker := .storing next head slot }
  | notFound {next head : UInt64} (hw : s.walker = .walking next head) :
      Step env s (.slotAt (.ok none))
        { s with walker := advance next head, notFound := s.notFound ++ [(next, head)] }
  | slotError {next head : UInt64} {err : FetchError} (hw : s.walker = .walking next head) :
      Step env s (.slotAt (.error err)) { s with walker := .idle next }
  | upsertSlot {next head : UInt64} {slot : SlotResponse} {client : NodeClient} {now : Int}
      {lookupOk : Bool} {result : WriteResult} (hw : s.walker = .storing next head slot) :
      Step env s (.upsertSlot client now lookupOk result)
        { s with
          db := if result.applied then
              upsertSlot slot (extractSlotFirstBatchFacts client slot).proposer
                (extractSlotFirstBatchFacts client slot).daBlockHeight now lookupOk s.db
            else s.db
          walker := if result = .ok then .stored next head slot else .idle next }
  | walkSlot {next head : UInt64} {slot : SlotResponse} {client : NodeClient}
      (hw : s.walker = .stored next head slot) :
      Step env s (.walkSlot client)
        { s with walker := .ingesting next head (slotWork env client slot).1 }
  | processTx {next head : UInt64} {w : TxWork} {works : List TxWork} {client : NodeClient}
      {faults : TxStmt → Fault} (hw : s.walker = .ingesting next head (w :: works)) :
      Step env s (.processTx client faults)
        (if (processTx env faults client w s.db).crashed then
          { s with
            db := (processTx env faults client w s.db).db, walker := .down, repoll := .sleeping }
        else
          { s with
            db := (processTx env faults client w s.db).db
            walker := .ingesting next head works })
  | cursor {next head : UInt64} {result : WriteResult} (hw : s.walker = .ingesting next head []) :
      Step env s (.cursor result)
        { s with
          db := if result.applied then writeLastIndexedHeight next s.db else s.db
          walker := advance next head
          offCursor := s.offCursor && !result.applied }
  | poll {e : Event} {repoll : Repoll} (hw : s.walker.up = true) : Step env s e { s with repoll }
  | flip {height : UInt64} {now : Int} {result : WriteResult} {repoll : Repoll}
      (hw : s.walker.up = true) :
      Step env s (.flip now result) { s with db := flipPendingSlot height now s.db, repoll }

variable {env : Env} {s s' : IndexerState} {e : Event}

theorem stepWalker_cases (h : stepWalker env s e = some s') : Step env s e s' := by
  cases e <;> simp only [stepWalker] at h
  case start =>
    split at h
    · rename_i hw
      cases h
      exact .start hw
    · cases h
  case crash =>
    split at h
    · rename_i hw
      cases h
      exact .crash hw
    · cases h
  case head =>
    split at h
    · rename_i hw
      cases h
      exact .headError hw
    · rename_i next head hw
      cases h
      by_cases hlt : head < next
      · rw [if_pos hlt, ← hw]
        exact .tail hw hlt
      · rw [if_neg hlt]
        exact .catchUp hw (UInt64.not_lt.1 hlt)
    · cases h
  case slotAt =>
    split at h
    · rename_i hw
      cases h
      exact .slot hw
    · rename_i hw
      cases h
      exact .notFound hw
    · rename_i hw
      cases h
      exact .slotError hw
    · cases h
  case upsertSlot =>
    split at h
    · rename_i hw
      cases h
      exact .upsertSlot hw
    · cases h
  case walkSlot =>
    split at h
    · rename_i hw
      cases h
      exact .walkSlot hw
    · cases h
  case processTx client faults =>
    split at h
    · rename_i next head w works hw
      have hs : s' = if (processTx env faults client w s.db).crashed then
          { s with
            db := (processTx env faults client w s.db).db, walker := .down, repoll := .sleeping }
          else
          { s with
            db := (processTx env faults client w s.db).db
            walker := .ingesting next head works } := by
        split at h <;> rename_i hc <;> cases h <;> simp only [hc] <;> rfl
      rw [hs]
      exact .processTx hw
    · cases h
  case cursor =>
    split at h
    · rename_i hw
      cases h
      exact .cursor hw
    · cases h
  all_goals cases h

theorem stepRepoll_cases (hup : s.walker.up = true) (h : stepRepoll s e = some s') :
    Step env s e s' := by
  cases e <;> simp only [stepRepoll] at h
  case scan =>
    split at h
    · split at h
      · cases h
        exact .poll hup
      · cases h
        exact .poll hup
    · cases h
  case refetch =>
    split at h
    · cases h
      exact .poll hup
    · cases h
      exact .poll hup
    · cases h
  case flip now result =>
    split at h
    · cases h
      exact .poll hup
    · rename_i height status rest _
      cases h
      unfold flipObserved
      split
      · exact .flip hup
      · exact .poll hup
    · cases h
  all_goals cases h

/-- **Transitions of the machine.** -/
theorem step_cases (h : step env s e = some s') : Step env s e s' := by
  unfold step at h
  split at h
  · rename_i hw
    cases h
    exact stepWalker_cases hw
  · split at h
    · rename_i hup
      exact stepRepoll_cases hup h
    · cases h

/-! ## Writes -/

/-- What an event did to the database. -/
inductive DbStep (env : Env) (s : IndexerState) : Event → Db → Prop
  | same (e : Event) : DbStep env s e s.db
  | upsertSlot {next head : UInt64} {slot : SlotResponse} {client : NodeClient} {now : Int}
      {lookupOk : Bool} {result : WriteResult} (hw : s.walker = .storing next head slot)
      (ha : result.applied = true) :
      DbStep env s (.upsertSlot client now lookupOk result)
        (Indexer.upsertSlot slot (extractSlotFirstBatchFacts client slot).proposer
          (extractSlotFirstBatchFacts client slot).daBlockHeight now lookupOk s.db)
  | processTx {next head : UInt64} {w : TxWork} {works : List TxWork} {client : NodeClient}
      {faults : TxStmt → Fault} (hw : s.walker = .ingesting next head (w :: works)) :
      DbStep env s (.processTx client faults) (Indexer.processTx env faults client w s.db).db
  | cursor {next head : UInt64} {result : WriteResult} (hw : s.walker = .ingesting next head []) :
      DbStep env s (.cursor result) (writeLastIndexedHeight next s.db)
  | flip {height : UInt64} {now : Int} {result : WriteResult} :
      DbStep env s (.flip now result) (flipPendingSlot height now s.db)

theorem step_db (h : step env s e = some s') : DbStep env s e s'.db := by
  cases step_cases h with
  | @upsertSlot _ _ _ _ _ _ result hw =>
    by_cases ha : result.applied = true
    · simp only [ha, if_true]
      exact .upsertSlot hw ha
    · simp only [ha]
      exact .same _
  | processTx hw =>
    split
    · exact .processTx hw
    · exact .processTx hw
  | @cursor _ _ result hw =>
    by_cases ha : result.applied = true
    · simp only [ha, if_true]
      exact .cursor hw
    · simp only [ha]
      exact .same _
  | flip => exact .flip
  | _ => exact .same _

/-! ## A small run -/

/-- Slot 1, with the given finality and nothing in it. -/
def emptySlot (status : String) : SlotResponse where
  number := 1
  hash := "0x01"
  prevHash := none
  timestamp := none
  stateRoot := none
  batchCount := none
  txCount := none
  batchRange := none
  finalityStatus := some status

/-- Slot 1 is stored as pending, its cursor written or not, and the process starts over. -/
def restartRun (cursor : WriteResult) (readOk : Bool) : List Event :=
  [.start none true, .head (some 1), .slotAt (.ok (some (emptySlot "pending"))),
    .upsertSlot silentNode 10 true .ok, .walkSlot silentNode, .cursor cursor, .crash,
    .start none readOk]

end LigateApi.Indexer
