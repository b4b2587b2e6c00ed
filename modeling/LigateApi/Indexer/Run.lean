import LigateApi.Indexer.Ingest
import LigateApi.Lib.Run

/-!
# The indexer process

The forward walk (`run`) and the re-poll task as one machine. An event is what the outside does
next: the node's answer to the request a task waits for, the database's answer to a write, a crash,
a restart. The tasks interleave freely and share nothing but the database. `heads` and `notFound`
record what the node has answered, over all restarts.
-/

namespace LigateApi.Indexer

/-- How a write ends: `lost` is applied, but its answer is an error. -/
inductive WriteResult
  | ok
  | refused
  | lost
  deriving DecidableEq, Repr

def WriteResult.applied (r : WriteResult) : Bool := r ≠ .refused

/-- Where the forward walk stands; `next` is `next_height` and `head` the head of the current
`while` loop. -/
inductive Walker
  | down
  /-- About to fetch the head. -/
  | idle (next : UInt64)
  /-- About to fetch the slot at `next`. -/
  | walking (next head : UInt64)
  /-- About to write the fetched slot. -/
  | storing (next head : UInt64) (slot : SlotResponse)
  /-- About to walk the slot's batches. -/
  | stored (next head : UInt64) (slot : SlotResponse)
  /-- Writing the transactions of the slot, then the cursor. -/
  | ingesting (next head : UInt64) (works : List TxWork)

def Walker.up : Walker → Bool
  | .down => false
  | _ => true

/-- `next_height` of a running process. -/
def Walker.nextHeight : Walker → Option UInt64
  | .down => none
  | .idle next => some next
  | .walking next _ => some next
  | .storing next _ _ => some next
  | .stored next _ _ => some next
  | .ingesting next _ _ => some next

/-- The re-poll task: asleep, or with heights left to fetch and the statuses observed so far. -/
inductive Repoll
  | sleeping
  | polling (todo : List UInt64) (observed : List (UInt64 × Option String))

inductive Event
  | start (startHeight : Option UInt64) (readOk : Bool)
  | crash
  | head (answer : Option UInt64)
  | slotAt (answer : Except FetchError (Option SlotResponse))
  | upsertSlot (client : NodeClient) (now : Int) (lookupOk : Bool) (result : WriteResult)
  | walkSlot (client : NodeClient)
  | processTx (client : NodeClient) (faults : TxStmt → Fault)
  | cursor (result : WriteResult)
  | scan (readOk : Bool)
  | refetch (answer : Except FetchError (Option SlotResponse))
  | flip (now : Int) (result : WriteResult)

structure IndexerState where
  db : Db
  walker : Walker
  repoll : Repoll
  /-- Every head ever fetched. -/
  heads : List UInt64
  /-- The heights answered 404, with the head known at the time. -/
  notFound : List (UInt64 × UInt64)
  /-- The process did not start from the stored cursor and has not written it since. -/
  offCursor : Bool

/-- An empty database and no process. -/
def IndexerState.init : IndexerState := ⟨Db.empty, .down, .sleeping, [], [], false⟩

/-- `h.saturating_add(1)` -/
def saturatingSucc (h : UInt64) : UInt64 := if h.toNat + 1 < 2 ^ 64 then h + 1 else h

/-- The height a process starts at. -/
def startHeightOf (startHeight : Option UInt64) (readOk : Bool) (db : Db) : UInt64 :=
  match startHeight with
  | some h => h
  | none =>
    if readOk then
      match readLastIndexedHeight db with
      | some h => saturatingSucc h
      | none => 1
    else 1

/-- `next_height = h + 1`, then the `while` condition. -/
def advance (next head : UInt64) : Walker :=
  if next + 1 ≤ head then .walking (next + 1) head else .idle (next + 1)

/-- One turn of the loop of `flip_pending_slots`. -/
def flipObserved (height : UInt64) (status : Option String) (now : Int) (result : WriteResult)
    (db : Db) : Db :=
  if status = some "finalized" ∧ result.applied then flipPendingSlot height now db else db

variable (env : Env)

/-- `run` -/
def stepWalker (s : IndexerState) : Event → Option IndexerState
  | .start startHeight readOk =>
    match s.walker with
    | .down => some
        { s with
          walker := .idle (startHeightOf startHeight readOk s.db)
          offCursor := startHeight.isSome || !readOk }
    | _ => none
  | .crash => if s.walker.up then some { s with walker := .down, repoll := .sleeping } else none
  | .head answer =>
    match s.walker, answer with
    | .idle _, none => some s
    | .idle next, some head => some
        { s with
          walker := if head < next then .idle next else .walking next head
          heads := s.heads ++ [head] }
    | _, _ => none
  | .slotAt answer =>
    match s.walker, answer with
    | .walking next head, .ok (some slot) => some { s with walker := .storing next head slot }
    | .walking next head, .ok none => some
        { s with walker := advance next head, notFound := s.notFound ++ [(next, head)] }
    | .walking next _, .error _ => some { s with walker := .idle next }
    | _, _ => none
  | .upsertSlot client now lookupOk result =>
    match s.walker with
    | .storing next head slot =>
      let facts := extractSlotFirstBatchFacts client slot
      let db := if result.applied then
          upsertSlot slot facts.proposer facts.daBlockHeight now lookupOk s.db
        else s.db
      some { s with db, walker := if result = .ok then .stored next head slot else .idle next }
    | _ => none
  | .walkSlot client =>
    match s.walker with
    | .stored next head slot => some
        { s with walker := .ingesting next head (slotWork env client slot).1 }
    | _ => none
  | .processTx client faults =>
    match s.walker with
    | .ingesting next head (w :: works) =>
      let r := processTx env faults client w s.db
      if r.crashed then some { s with db := r.db, walker := .down, repoll := .sleeping }
      else some { s with db := r.db, walker := .ingesting next head works }
    | _ => none
  | .cursor result =>
    match s.walker with
    | .ingesting next head [] => some
        { s with
          db := if result.applied then writeLastIndexedHeight next s.db else s.db
          walker := advance next head
          offCursor := s.offCursor && !result.applied }
    | _ => none
  | .scan _ => none
  | .refetch _ => none
  | .flip _ _ => none

/-- `repoll_pending_loop` -/
def stepRepoll (s : IndexerState) : Event → Option IndexerState
  | .scan readOk =>
    match s.repoll with
    | .sleeping =>
      if readOk ∧ pendingSlotHeights s.db ≠ [] then
        some { s with repoll := .polling (pendingSlotHeights s.db) [] }
      else some s
    | .polling _ _ => none
  | .refetch answer =>
    match s.repoll, answer with
    | .polling (height :: todo) observed, .ok (some slot) => some
        { s with repoll := .polling todo (observed ++ [(height, slot.finalityStatus)]) }
    | .polling (_ :: todo) observed, _ => some { s with repoll := .polling todo observed }
    | _, _ => none
  | .flip now result =>
    match s.repoll with
    | .polling [] [] => some { s with repoll := .sleeping }
    | .polling [] ((height, status) :: rest) => some
        { s with
          db := flipObserved height status now result s.db
          repoll := if status = some "finalized" ∧ result ≠ .ok then .sleeping
            else .polling [] rest }
    | _ => none
  | _ => none

/-- One event. The re-poll task lives only as long as its process. -/
def step (s : IndexerState) (e : Event) : Option IndexerState :=
  match stepWalker env s e with
  | some s' => some s'
  | none => if s.walker.up then stepRepoll s e else none

end LigateApi.Indexer
