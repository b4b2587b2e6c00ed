import Mathlib.Logic.Relation
import LigateApi.Indexer.Verify.Steps

/-!
# The writes of a run

A run changes the database by one accepted statement after the other, whatever fails in between and
wherever the process dies. `Write` lists the statements; `Written` is a sequence of them. The module
reduces a run of the machine to such a sequence (`written_run`), so that an invariant of the tables,
or a relation between two states of them, has one case per statement and none per event.
-/

namespace LigateApi.Indexer

open Lib Lib.Run

/-- One accepted statement. -/
inductive Write (env : Env) (db : Db) : Db → Prop
  | slot (slot : SlotResponse) (proposer : Option String) (daBlockHeight : Option Int64) (now : Int)
      (lookupOk : Bool) : Write env db (upsertSlot slot proposer daBlockHeight now lookupOk db)
  | flip (height : UInt64) (now : Int) : Write env db (flipPendingSlot height now db)
  | cursor (height : UInt64) : Write env db (writeLastIndexedHeight height db)
  | transaction {c : ClassifiedTx} {n : UInt64} {p : Int32} {d : Option DecodedTxBody} {db' : Db}
      (h : insertTransaction c n p d db = .ok db') : Write env db db'
  | activity {a : String} {role : AddressRole} {n : UInt64} {hash : String} {timestamp : Int}
      {db' : Db} (h : upsertAddressActivity a role n hash timestamp db = .ok db') : Write env db db'
  | attestorSet {d : IndexerRegisterAttestorSet} {hash : String} {n : UInt64} {timestamp : Int}
      {db' : Db} (h : insertAttestorSet d hash n timestamp db = .ok db') : Write env db db'
  | schema {d : IndexerRegisterSchema} {hash : String} {n : UInt64} {timestamp : Int} {db' : Db}
      (h : insertSchema d hash n timestamp db = .ok db') : Write env db db'
  | schemaCount {id : String} {db' : Db} (h : bumpAttestorSetSchemaCount id db = .ok db') :
      Write env db db'
  | schemasOwned {owner : String} {n : UInt64} {hash : String} {timestamp : Int} {db' : Db}
      (h : bumpAddressSchemasOwned owner n hash timestamp db = .ok db') : Write env db db'
  | attestation {d : IndexerSubmitAttestation} {hash : String} {n : UInt64} {timestamp : Int}
      {db' : Db} (h : insertAttestation d hash n timestamp db = .ok db') : Write env db db'
  | attestationCount {id : String} {db' : Db} (h : bumpSchemaAttestationCount id db = .ok db') :
      Write env db db'
  | bounty {id : String} {record : BountyRecord} {n : UInt64} {hash : String} {timestamp : Int}
      {db' : Db} (h : upsertBounty id record n hash timestamp db = .ok db') : Write env db db'
  | bountyClaim {id payout : String} {count : UInt32} {n : UInt64} {db' : Db}
      (h : applyBountyClaim env id payout (clampInt32 count) n db = .ok db') : Write env db db'
  | bountyZero {id : String} {db' : Db} (h : setBountyEscrowZero id db = .ok db') : Write env db db'
  | contract {id : String} {record : ContractRecord} {n : UInt64} {hash : String} {timestamp : Int}
      {db' : Db} (h : upsertContract env id record n hash timestamp db = .ok db') : Write env db db'
  | contractZero {id : String} {db' : Db} (h : setContractEscrowZero id db = .ok db') :
      Write env db db'

/-- Accepted statements, one after the other. -/
abbrev Written (env : Env) : Db → Db → Prop := Relation.ReflTransGen (Write env)

section Sequences

variable {env : Env} {db db' : Db}

/-- **Invariant rule.** -/
theorem Written.keeps {P : Db → Prop} (h : Written env db db')
    (hstep : ∀ a b, Write env a b → P a → P b) (hP : P db) : P db' := by
  induction h with
  | refl => exact hP
  | tail _ hw ih => exact hstep _ _ hw ih

/-- **Rule for two states**: what every statement does to a table it does in any number. -/
theorem Written.related {P : Db → Prop} {R : Db → Db → Prop} (h : Written env db db')
    (hrefl : ∀ a, R a a) (htrans : ∀ a b c, R a b → R b c → R a c)
    (hkeeps : ∀ a b, Write env a b → P a → P b) (hstep : ∀ a b, Write env a b → P a → R a b)
    (hP : P db) : R db db' := by
  have hboth : P db' ∧ R db db' := by
    induction h with
    | refl => exact ⟨hP, hrefl _⟩
    | tail _ hw ih => exact ⟨hkeeps _ _ hw ih.1, htrans _ _ _ ih.2 (hstep _ _ hw ih.1)⟩
  exact hboth.2

end Sequences

/-! ## Sequences of statements -/

/-- What the sequence does to the database it does by accepted statements. -/
def Issues (env : Env) (g : TxRun → TxRun) : Prop := ∀ r, Written env r.db (g r).db

section Issues

variable {env : Env} {faults : TxStmt → Fault} {stmt : TxStmt} {f : Db → Except DbError Db}
  {g onOk onErr : TxRun → TxRun} {w : TxWork} {client : NodeClient}

theorem Issues.refl : Issues env id := fun _ => .refl

theorem Issues.comp (hf : Issues env onOk) (hg : Issues env g) : Issues env fun r => onOk (g r) :=
  fun r => (hg r).trans (hf (g r))

theorem Issues.attempt (hf : ∀ db db', f db = .ok db' → Write env db db') (hok : Issues env onOk)
    (herr : Issues env onErr) : Issues env (TxRun.attempt faults stmt f onOk onErr) := by
  intro r
  unfold TxRun.attempt
  split
  · exact .refl
  · split
    · exact .refl
    · exact herr { r with failed := r.failed ++ [stmt] }
    · split
      · rename_i db' h
        exact (Relation.ReflTransGen.single (hf _ _ h)).trans (hok { r with db := db' })
      · exact herr { r with failed := r.failed ++ [stmt] }

/-- A last statement. -/
theorem Issues.last (hf : ∀ db db', f db = .ok db' → Write env db db') :
    Issues env (TxRun.attempt faults stmt f id id) :=
  Issues.attempt hf Issues.refl Issues.refl

theorem issues_countActivity {role : AddressRole} {address : Option String} (hg : Issues env g) :
    Issues env (countActivity faults stmt role w address g) := by
  cases address with
  | none => exact hg
  | some a => exact Issues.attempt (fun _ _ h => .activity h) hg Issues.refl

theorem issues_updateAddressSummaries : Issues env (updateAddressSummaries faults w) :=
  issues_countActivity (issues_countActivity Issues.refl)

theorem issues_bountyDelta {id : String} (kind : BountyEventKind) :
    Issues env (bountyDelta env faults w id kind) := by
  cases kind with
  | claimed count payout => exact Issues.last fun _ _ h => .bountyClaim h
  | expired => exact Issues.last fun _ _ h => .bountyZero h
  | finalised => exact Issues.last fun _ _ h => .bountyZero h
  | posted => exact Issues.refl
  | disputed => exact Issues.refl
  | disputeResolved => exact Issues.refl

theorem issues_contractDelta {id : String} (kind : ContractEventKind) :
    Issues env (contractDelta faults id kind) := by
  have hzero : Issues env
      (TxRun.attempt faults .contractDelta (setContractEscrowZero id) (fun r => r) fun r => r) :=
    Issues.last fun _ _ h => .contractZero h
  cases kind <;> first | exact hzero | exact Issues.refl

theorem issues_insertResourceRows : Issues env (insertResourceRows env faults client w) := by
  unfold insertResourceRows
  split
  · exact Issues.last fun _ _ h => .attestorSet h
  · refine Issues.attempt (fun _ _ h => .schema h) (Issues.comp ?_ ?_) Issues.refl
    · exact Issues.last fun _ _ h => .schemasOwned h
    · exact Issues.last fun _ _ h => .schemaCount h
  · refine Issues.attempt (fun _ _ h => .attestation h) ?_ Issues.refl
    exact Issues.last fun _ _ h => .attestationCount h
  · split
    · exact Issues.attempt (fun _ _ h => .bounty h) (issues_bountyDelta _) Issues.refl
    · exact Issues.refl
    · exact Issues.refl
  · split
    · exact Issues.attempt (fun _ _ h => .contract h) (issues_contractDelta _) Issues.refl
    · exact Issues.refl
    · exact Issues.refl
  · exact Issues.refl
  · exact Issues.refl

theorem written_processTx (env : Env) (faults : TxStmt → Fault) (client : NodeClient) (w : TxWork)
    (db : Db) : Written env db (processTx env faults client w db).db := by
  have hafter : Issues env fun r =>
      insertResourceRows env faults client w (updateAddressSummaries faults w r) :=
    Issues.comp issues_insertResourceRows issues_updateAddressSummaries
  exact Issues.attempt (fun _ _ h => .transaction h) hafter Issues.refl { db := db }

end Issues

/-! ## Runs -/

section Runs

variable {env : Env} {s t : IndexerState} {e : Event} {es : List Event}

theorem DbStep.written {db : Db} (h : DbStep env s e db) : Written env s.db db := by
  cases h with
  | same => exact .refl
  | upsertSlot => exact .single (.slot _ _ _ _ _)
  | processTx => exact written_processTx ..
  | cursor => exact .single (.cursor _)
  | flip => exact .single (.flip _ _)

/-- Between two states of a run lie accepted statements only. -/
theorem written_run (h : exec (step env) s es = some t) : Written env s.db t.db := by
  induction es generalizing s with
  | nil =>
    rw [exec_nil, Option.some.injEq] at h
    exact h ▸ .refl
  | cons e es ih =>
    obtain ⟨s', hs', ht⟩ := exec_cons_eq_some.1 h
    exact (step_db hs').written.trans (ih ht)

end Runs

end LigateApi.Indexer
