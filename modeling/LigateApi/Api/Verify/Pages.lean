import LigateApi.Api.Verify.Matching
import LigateApi.Api.Verify.Search

/-!
# The pages show the chain

Behind the walk, the pages of transactions, attestor sets, schemas and attestations are those of the
chain: one is found under an id if the chain has the id up to the cursor, and only if the chain has
it at all (`found_of_registered`, `registered_of_found`).
-/

namespace LigateApi.Api

open Lib Lib.Run Queries
open Indexer hiding TxRow SchemaRow Env

/-- At height `k` the chain commits the transaction, or registers what is under the id. An
attestation is looked for by the lower case of its id. -/
def Resource.RegisteredAt (ienv : Indexer.Env) (denv : DetailEnv) (chain : Chain) (k : UInt64) :
    Resource → Prop
  | .tx hash => ∃ i tx, chain.Commits k i tx ∧ tx.hash = hash
  | .attestorSet id => ∃ i tx d, chain.Sets ienv k i tx d ∧ d.attestorSetId = id
  | .schema id => ∃ i tx d, chain.Declares ienv k i tx d ∧ d.schemaId = id
  | .attestation id => ∃ i tx d, chain.Attests ienv k i tx d ∧ d.id = denv.toLowercase id
  | .block _ | .bounty _ | .contract _ => False

/-- Its page is one of those that show what the chain registers. -/
def Resource.OfChain : Resource → Prop
  | .tx _ | .attestorSet _ | .schema _ | .attestation _ => True
  | .block _ | .bounty _ | .contract _ => False

section Pages

variable {ienv : Indexer.Env} {denv : DetailEnv} {chain : Chain} {s : IndexerState}
  {es : List Event} {r : Resource} {k : UInt64}

/-- Nothing is shown that the chain does not have. -/
theorem registered_of_found (hinv : RegistryInv ienv chain s) (hdb : Intact s.db)
    (hlat : LatIds ienv.codec denv) (hkeyed : AttestationsKeyed ienv.codec s.db) (hr : r.OfChain)
    (h : r.Found denv s.db fun _ => True) : ∃ k, r.RegisteredAt ienv denv chain k := by
  cases r with
  | tx hash =>
    obtain ⟨row, hrow, rfl, -⟩ := (tx_found hdb).1 h
    obtain ⟨n, i, tx, hc, hsame⟩ :=
      hinv.mirror.rows row.toTxRow ((mem_txRows hdb).2 ⟨row, hrow, rfl⟩)
    exact ⟨n, i, tx, hc, (congrArg Indexer.TxRow.hash hsame).symm⟩
  | attestorSet id =>
    obtain ⟨row, hrow, rfl, -⟩ := (attestorSet_found hdb).1 h
    obtain ⟨n, i, tx, d, hd, hid⟩ := hinv.rows.attestorSets row hrow
    exact ⟨n, i, tx, d, hd, hid.symm⟩
  | schema id =>
    obtain ⟨row, hrow, rfl, -⟩ := (schema_found hdb).1 h
    obtain ⟨n, i, tx, d, hd, hcols⟩ :=
      hinv.rows.schemas row.toSchemaRow ((mem_schemaRows hdb).2 ⟨row, hrow, rfl⟩)
    exact ⟨n, i, tx, d, hd, (congrArg Prod.fst hcols).symm⟩
  | attestation id =>
    obtain ⟨row, hrow, hid, -⟩ := (attestation_found hdb hlat hkeyed).1 h
    obtain ⟨n, i, tx, d, hd, hcols⟩ := hinv.rows.attestations row hrow
    exact ⟨n, i, tx, d, hd, (congrArg Prod.fst hcols).symm.trans hid⟩
  | block height => exact hr.elim
  | bounty id => exact hr.elim
  | contract id => exact hr.elim

/-- Nothing is missing up to the cursor. -/
theorem found_of_registered (hinv : RegistryInv ienv chain s) (hdb : Intact s.db)
    (hlat : LatIds ienv.codec denv) (hkeyed : AttestationsKeyed ienv.codec s.db) (hk : 1 ≤ k)
    (hcursor : ∃ h ∈ s.db.lastIndexedHeight, k ≤ h) (h : r.RegisteredAt ienv denv chain k) :
    r.Found denv s.db fun _ => True := by
  obtain ⟨hsets, hschemas, hattestations⟩ := hinv.behind hk (.inr hcursor)
  cases r with
  | tx hash =>
    obtain ⟨i, tx, hc, rfl⟩ := h
    obtain ⟨top, htop, hle⟩ := hcursor
    rcases hinv.mirror.progress.passed.cursor top htop k hk hle with ⟨head, hmem⟩ | hlisted
    · rw [hinv.found] at hmem
      cases hmem
    · obtain ⟨row, hrow, hsame⟩ := (mem_txRows hdb).1 (hlisted i tx hc)
      exact (tx_found hdb).2 ⟨row, hrow, congrArg Indexer.TxRow.hash hsame, trivial⟩
  | attestorSet id =>
    obtain ⟨i, tx, d, hd, rfl⟩ := h
    obtain ⟨row, hrow, hid⟩ := hsets i tx d hd
    exact (attestorSet_found hdb).2 ⟨row, hrow, hid, trivial⟩
  | schema id =>
    obtain ⟨i, tx, d, hd, rfl⟩ := h
    obtain ⟨row, hrow, hid⟩ := hschemas i tx d hd
    obtain ⟨joined, hjoined, rfl⟩ := (mem_schemaRows hdb).1 hrow
    exact (schema_found hdb).2 ⟨joined, hjoined, hid, trivial⟩
  | attestation id =>
    obtain ⟨i, tx, d, hd, hlower⟩ := h
    obtain ⟨row, hrow, hid⟩ := hattestations i tx d hd
    exact (attestation_found hdb hlat hkeyed).2 ⟨row, hrow, hid.trans hlower, trivial⟩
  | block height => exact h.elim
  | bounty id => exact h.elim
  | contract id => exact h.elim

end Pages

end LigateApi.Api
