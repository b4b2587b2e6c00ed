import Mathlib.Data.Fin.VecNotation
import Mathlib.Tactic.FinCases
import LigateApi.Api.Queries
import LigateApi.Lib.Run

/-!
# Totals

`GET /v1/stats/totals` asks the database eight scalar questions one after the other, outside of a
transaction, and then the chain for the supply and the treasury's balance. A failing query ends the
computation with the query's context; a failing chain read only leaves its fields out.
-/

namespace LigateApi.Api.Stats

open Queries Indexer Lib.Run

structure TotalsResponse where
  indexedAtSlot : Int
  blocks : Nat
  txsTotal : Nat
  txsCommitted : Nat
  addresses : Nat
  schemas : Nat
  attestorSets : Nat
  attestations : Nat
  totalSupplyNano : Option String
  treasuryBalanceNano : Option String
  treasuryAddress : Option String
  deriving DecidableEq, Repr

/-! ## The queries -/

/-- `sqlx::query_scalar(…).fetch_one(pool).await.context(context)` -/
def queryScalar {α : Type} (query : Db → α) (context : String) : PgPool → Except String α
  | .ok db => .ok (query db)
  | .error _ => .error context

/-- `outcome = 'committed'` -/
def isCommitted (r : Indexer.TxRow) : Bool := r.outcome = "committed"

/-- `SELECT COUNT(*) FROM transactions WHERE outcome = 'committed'` -/
def countCommitted (db : Db) : Nat := db.transactions.countP isCommitted

/-- `SELECT MAX(height) FROM slots` -/
def maxHeight (db : Db) : Option Int := (db.slots.map slotKey).max?

/-! ## The chain -/

/-- The balance and the address of the treasury, if one is configured and the chain answers. -/
def treasuryFields (avowTreasuryAddr : Option String)
    (queryBalanceFor : String → Except String Nat) : Option String × Option String :=
  match avowTreasuryAddr with
  | some addr =>
    match queryBalanceFor addr with
    | .ok n => (some (toString n), some addr)
    | .error _ => (none, none)
  | none => (none, none)

/-- `compute_totals`; `pool i` is the database as the `i`-th query finds it. -/
def computeTotals (pool : Fin 8 → PgPool) (queryTotalSupply : Except String Nat)
    (avowTreasuryAddr : Option String) (queryBalanceFor : String → Except String Nat) :
    Except String TotalsResponse := do
  let blocks ← queryScalar (fun db => db.slots.length) "count slots" (pool 0)
  let txsTotal ← queryScalar (fun db => db.transactions.length) "count txs total" (pool 1)
  let txsCommitted ← queryScalar countCommitted "count txs committed" (pool 2)
  let addresses ← queryScalar (fun db => db.addressSummaries.length) "count addresses" (pool 3)
  let schemas ← queryScalar (fun db => db.schemas.length) "count schemas" (pool 4)
  let attestorSets ←
    queryScalar (fun db => db.attestorSets.length) "count attestor_sets" (pool 5)
  let attestations ←
    queryScalar (fun db => db.attestations.length) "count attestations" (pool 6)
  let indexedAtSlot ← queryScalar maxHeight "max slot" (pool 7)
  let treasury := treasuryFields avowTreasuryAddr queryBalanceFor
  return {
    indexedAtSlot := indexedAtSlot.getD 0
    blocks, txsTotal, txsCommitted, addresses, schemas, attestorSets, attestations
    totalSupplyNano := queryTotalSupply.toOption.map toString
    treasuryBalanceNano := treasury.1
    treasuryAddress := treasury.2 }

variable {pool : Fin 8 → PgPool} {queryTotalSupply : Except String Nat}
  {avowTreasuryAddr : Option String} {queryBalanceFor : String → Except String Nat}
  {response : TotalsResponse}

theorem queryScalar_eq_ok {α : Type} {query : Db → α} {context : String} {pg : PgPool} {a : α} :
    queryScalar query context pg = .ok a ↔ ∃ db, pg = .ok db ∧ query db = a := by
  cases pg with
  | ok db => simp [queryScalar]
  | error e => simp [queryScalar]

/-- The answer counts in eight states of the database, one for each query. -/
theorem computeTotals_eq_ok
    (h : computeTotals pool queryTotalSupply avowTreasuryAddr queryBalanceFor = .ok response) :
    ∃ snapshot : Fin 8 → Db, (∀ i, pool i = .ok (snapshot i)) ∧
      response = {
        indexedAtSlot := (maxHeight (snapshot 7)).getD 0
        blocks := (snapshot 0).slots.length
        txsTotal := (snapshot 1).transactions.length
        txsCommitted := countCommitted (snapshot 2)
        addresses := (snapshot 3).addressSummaries.length
        schemas := (snapshot 4).schemas.length
        attestorSets := (snapshot 5).attestorSets.length
        attestations := (snapshot 6).attestations.length
        totalSupplyNano := queryTotalSupply.toOption.map toString
        treasuryBalanceNano := (treasuryFields avowTreasuryAddr queryBalanceFor).1
        treasuryAddress := (treasuryFields avowTreasuryAddr queryBalanceFor).2 } := by
  unfold computeTotals at h
  obtain ⟨blocks, h₀, h⟩ := bind_eq_ok.1 h
  obtain ⟨txsTotal, h₁, h⟩ := bind_eq_ok.1 h
  obtain ⟨txsCommitted, h₂, h⟩ := bind_eq_ok.1 h
  obtain ⟨addresses, h₃, h⟩ := bind_eq_ok.1 h
  obtain ⟨schemas, h₄, h⟩ := bind_eq_ok.1 h
  obtain ⟨attestorSets, h₅, h⟩ := bind_eq_ok.1 h
  obtain ⟨attestations, h₆, h⟩ := bind_eq_ok.1 h
  obtain ⟨indexedAtSlot, h₇, h⟩ := bind_eq_ok.1 h
  obtain ⟨d₀, hd₀, rfl⟩ := queryScalar_eq_ok.1 h₀
  obtain ⟨d₁, hd₁, rfl⟩ := queryScalar_eq_ok.1 h₁
  obtain ⟨d₂, hd₂, rfl⟩ := queryScalar_eq_ok.1 h₂
  obtain ⟨d₃, hd₃, rfl⟩ := queryScalar_eq_ok.1 h₃
  obtain ⟨d₄, hd₄, rfl⟩ := queryScalar_eq_ok.1 h₄
  obtain ⟨d₅, hd₅, rfl⟩ := queryScalar_eq_ok.1 h₅
  obtain ⟨d₆, hd₆, rfl⟩ := queryScalar_eq_ok.1 h₆
  obtain ⟨d₇, hd₇, rfl⟩ := queryScalar_eq_ok.1 h₇
  cases h
  refine ⟨![d₀, d₁, d₂, d₃, d₄, d₅, d₆, d₇], ?_, rfl⟩
  intro i
  fin_cases i <;> assumption

end LigateApi.Api.Stats
