import LigateApi.Api.Search
import LigateApi.Api.Verify.Resource

/-!
# What search answers

A text names a resource by a height or, in lower case, by an id of the kind its prefix stands for
(`Names`). Search answers with what the text names, and with `not_found` only if it names nothing;
what it answers with resolves at the endpoint it links to, then and in every later state of the run
(`search_answers`).
-/

namespace LigateApi.Api

open Lib Lib.Run Queries
open Indexer hiding TxRow SchemaRow Env

/-! ## Kinds of ids -/

inductive SearchKind
  | blockHash
  | tx
  | address
  | schema
  | attestorSet
  | attestation
  | payloadHash
  deriving DecidableEq, Repr

/-- What an id of the kind starts with. -/
def SearchKind.lead : SearchKind → String
  | .blockHash => "lblk1"
  | .tx => "ltx1"
  | .address => "lig1"
  | .schema => "lsc1"
  | .attestorSet => "las1"
  | .attestation => "lat1"
  | .payloadHash => "lph1"

variable (postgres : Postgres) (denv : DetailEnv) (db : Db)

/-- What an id names in the tables. A payload hash names the newest attestation of the payload. -/
def SearchKind.Named (id : String) : SearchKind → SearchResponse → Prop
  | .blockHash, b => ∃ r ∈ db.slots, r.hash = id ∧ b = .block r.height.toUInt64
  | .tx, b => (∃ r ∈ db.transactions, r.hash = id) ∧ b = .tx id
  | .address, b => (∃ r ∈ db.addressSummaries, r.address = id) ∧ b = .address id
  | .schema, b => (∃ r ∈ db.schemas, r.id = id) ∧ b = .schema id
  | .attestorSet, b => (∃ r ∈ db.attestorSets, r.id = id) ∧ b = .attestorSet id
  | .attestation, b => (∃ r ∈ db.attestations, r.id = id) ∧ b = .attestation id
  | .payloadHash, b => ∃ r ∈ db.attestations, r.payloadHash = id ∧ b = .attestation r.id ∧
      ∀ r' ∈ db.attestations, r'.payloadHash = id →
        payloadHashKey postgres r' ≤ payloadHashKey postgres r

/-- By the prefix of the text in lower case. -/
def NamesById (lowered : String) (b : SearchResponse) : Prop :=
  ∃ k : SearchKind, startsWith lowered k.lead = true ∧ k.Named postgres db lowered b

/-- What the text names. -/
def Names (q : String) (b : SearchResponse) : Prop :=
  (∃ r ∈ db.slots, parseI64 q = some r.height ∧ b = .block r.height.toUInt64) ∨
    NamesById postgres db (denv.toLowercase q) b

/-- The answer is what is asked for, or that there is nothing. -/
def Answers (names : SearchResponse → Prop) (q : String) (reply : SearchReply) : Prop :=
  ∃ b, reply = .json b ∧ (names b ∨ b = .notFound q ∧ ∀ b, ¬ names b)

/-- The endpoint the answer links to finds it. Every address has a summary; one that was seen says
when. -/
def SearchResponse.Resolves : SearchResponse → Prop
  | .block height => (Resource.block height).Found denv db fun _ => True
  | .tx hash => (Resource.tx hash).Found denv db fun _ => True
  | .address a => ∀ avowTokenId queryBalanceFor, ∃ body age,
      Api.addressSummary denv (.ok db) avowTokenId queryBalanceFor a = .found body age ∧
        body.firstSeen.isSome ∧ body.lastSeen.isSome
  | .schema id => (Resource.schema id).Found denv db fun _ => True
  | .attestorSet id => (Resource.attestorSet id).Found denv db fun _ => True
  | .attestation id => (Resource.attestation id).Found denv db fun _ => True
  | .notFound _ => False

/-! ## One lookup -/

section Lookup

variable {postgres denv db} {q lowered : String} {names : SearchResponse → Prop}

/-- No text starts with the prefixes of two kinds. -/
theorem SearchKind.unique {k k' : SearchKind} (h : startsWith lowered k.lead = true)
    (h' : startsWith lowered k'.lead = true) : k = k' := by
  have hlead : ∀ a b : SearchKind, a.lead.toList <+: b.lead.toList → a = b := by
    intro a b
    cases a <;> cases b <;> decide
  unfold startsWith at h h'
  rw [List.isPrefixOf_iff_prefix] at h h'
  rcases Nat.le_total k.lead.toList.length k'.lead.toList.length with hle | hle
  · exact hlead k k' (List.prefix_of_prefix_length_le h h' hle)
  · exact (hlead k' k (List.prefix_of_prefix_length_le h' h hle)).symm

/-- Only the kind of the prefix matters. -/
theorem Answers.ofKind {k : SearchKind} {reply : SearchReply}
    (hk : startsWith lowered k.lead = true)
    (h : Answers (k.Named postgres db lowered) q reply) :
    Answers (NamesById postgres db lowered) q reply := by
  obtain ⟨b, hreply, hb | ⟨hb, hnone⟩⟩ := h
  · exact ⟨b, hreply, .inl ⟨k, hk, hb⟩⟩
  · refine ⟨b, hreply, .inr ⟨hb, ?_⟩⟩
    rintro b' ⟨k', hk', hb'⟩
    obtain rfl := SearchKind.unique hk hk'
    exact hnone b' hb'

theorem answers_resolved {A : Type} {o : Option A} {found : A → SearchResponse}
    (hsome : ∀ a, o = some a → names (found a)) (hnone : o = none → ∀ b, ¬ names b) :
    Answers names q (resolved (.ok o) found (.json (.notFound q))) := by
  cases o with
  | some a => exact ⟨_, rfl, .inl (hsome a rfl)⟩
  | none => exact ⟨_, rfl, .inr ⟨rfl, hnone rfl⟩⟩

/-- `SELECT EXISTS` on a column. -/
theorem answers_exists {R : Type} {rows : List R} {p : R → Bool} {P : R → Prop}
    (hp : ∀ r, p r = true ↔ P r) {found : SearchResponse} :
    Answers (fun b => (∃ r ∈ rows, P r) ∧ b = found) q
      (resolvedIf (.ok (rows.any p)) found (.json (.notFound q))) := by
  have hany : rows.any p = true ↔ ∃ r ∈ rows, P r := by
    simp only [List.any_eq_true, hp]
  cases h : rows.any p with
  | true => exact ⟨found, rfl, .inl ⟨hany.1 h, rfl⟩⟩
  | false =>
    refine ⟨_, rfl, .inr ⟨rfl, fun b hb => ?_⟩⟩
    rw [hany.2 hb.1] at h
    cases h

/-- The first in the order of the key. -/
theorem head_select {R K : Type} [LinearOrder K] (key : R → K) (rows : List R) :
    (∀ r, (select key rows none 1).head? = some r → r ∈ rows ∧ ∀ r' ∈ rows, key r' ≤ key r) ∧
      ((select key rows none 1).head? = none → rows = []) := by
  have hsort : (Keyset.remaining key rows none).Pairwise fun a b => key b ≤ key a :=
    List.pairwise_insertionSort _ _
  have hperm : (Keyset.remaining key rows none).Perm rows := by
    apply Keyset.remaining_perm.trans
    simp [Keyset.below]
  unfold select
  rw [List.head?_take, if_neg Nat.one_ne_zero]
  cases hrest : Keyset.remaining key rows none with
  | nil =>
    rw [hrest] at hperm
    refine ⟨fun r hr => ?_, fun _ => hperm.symm.eq_nil⟩
    cases hr
  | cons x rest =>
    rw [hrest] at hperm hsort
    refine ⟨fun r hr => ?_, fun hnone => ?_⟩
    · cases hr
      refine ⟨hperm.subset List.mem_cons_self, fun r' hr' => ?_⟩
      rcases List.mem_cons.1 (hperm.symm.subset hr') with rfl | hr'
      · exact le_refl _
      · exact List.rel_of_pairwise_cons hsort hr'
    · cases hnone

end Lookup

/-! ## Search -/

section Search

variable {postgres denv db} {codec : Codec} {q lowered : String}

theorem answers_blockHash : Answers (SearchKind.blockHash.Named postgres db lowered) q
    (resolved (slotHeightForBlockHash (.ok db) lowered) (fun h => .block h.toUInt64)
      (.json (.notFound q))) := by
  apply answers_resolved
  · intro h hh
    obtain ⟨r, hr, rfl⟩ := Option.map_eq_some_iff.1 hh
    exact ⟨r, List.mem_of_find?_eq_some hr, by simpa using List.find?_some hr, rfl⟩
  · rintro hnone b ⟨r, hr, hhash, -⟩
    have hmiss := List.find?_eq_none.1 (Option.map_eq_none_iff.1 hnone) r hr
    exact hmiss (by simpa using hhash)

theorem answers_tx (hdb : Intact db) : Answers (SearchKind.tx.Named postgres db lowered) q
    (resolved (Queries.txByHash (.ok db) lowered) (fun _ => .tx lowered)
      (.json (.notFound q))) := by
  apply answers_resolved
  · intro r hr
    have hhash : r.hash = lowered := by simpa using List.find?_some hr
    exact ⟨⟨_, (mem_txRows hdb).2 ⟨r, Table.lookup_mem hr, rfl⟩, hhash⟩, rfl⟩
  · rintro hnone b ⟨⟨t, ht, hhash⟩, -⟩
    obtain ⟨r, hr, rfl⟩ := (mem_txRows hdb).1 ht
    exact Table.lookup_eq_none.1 hnone r hr hhash

theorem answers_payloadHash : Answers (SearchKind.payloadHash.Named postgres db lowered) q
    (resolved (attestationIdByPayloadHash postgres (.ok db) lowered) .attestation
      (.json (.notFound q))) := by
  obtain ⟨hfirst, hempty⟩ := head_select (payloadHashKey postgres)
    (db.attestations.filter fun r => r.payloadHash = lowered)
  apply answers_resolved
  · intro id hid
    dsimp only at hid
    rw [List.head?_map] at hid
    obtain ⟨r, hr, rfl⟩ := Option.map_eq_some_iff.1 hid
    obtain ⟨hmem, hnewest⟩ := hfirst r hr
    rw [List.mem_filter, decide_eq_true_iff] at hmem
    refine ⟨r, hmem.1, hmem.2, rfl, fun r' hr' hpayload => hnewest r' ?_⟩
    exact List.mem_filter.2 ⟨hr', decide_eq_true hpayload⟩
  · rintro hnone b ⟨r, hr, hpayload, -⟩
    dsimp only at hnone
    rw [List.head?_map, Option.map_eq_none_iff] at hnone
    have hmem : r ∈ db.attestations.filter fun r => r.payloadHash = lowered :=
      List.mem_filter.2 ⟨hr, decide_eq_true hpayload⟩
    rw [hempty hnone] at hmem
    cases hmem

theorem answers_searchPrefix (hdb : Intact db) :
    Answers (NamesById postgres db lowered) q (searchPrefix postgres (.ok db) q lowered) := by
  unfold searchPrefix
  dsimp only
  by_cases h₁ : startsWith lowered "lblk1" = true
  · rw [if_pos h₁]
    exact answers_blockHash.ofKind (k := .blockHash) h₁
  rw [if_neg h₁]
  by_cases h₂ : startsWith lowered "ltx1" = true
  · rw [if_pos h₂]
    exact (answers_tx hdb).ofKind (k := .tx) h₂
  rw [if_neg h₂]
  by_cases h₃ : startsWith lowered "lig1" = true
  · rw [if_pos h₃]
    exact Answers.ofKind (k := .address) h₃ (answers_exists fun r => decide_eq_true_iff)
  rw [if_neg h₃]
  by_cases h₄ : startsWith lowered "lsc1" = true
  · rw [if_pos h₄]
    exact Answers.ofKind (k := .schema) h₄ (answers_exists fun r => decide_eq_true_iff)
  rw [if_neg h₄]
  by_cases h₅ : startsWith lowered "las1" = true
  · rw [if_pos h₅]
    exact Answers.ofKind (k := .attestorSet) h₅ (answers_exists fun r => decide_eq_true_iff)
  rw [if_neg h₅]
  by_cases h₆ : startsWith lowered "lat1" = true
  · rw [if_pos h₆]
    exact Answers.ofKind (k := .attestation) h₆ (answers_exists fun r => decide_eq_true_iff)
  rw [if_neg h₆]
  by_cases h₇ : startsWith lowered "lph1" = true
  · rw [if_pos h₇]
    exact answers_payloadHash.ofKind (k := .payloadHash) h₇
  rw [if_neg h₇]
  refine ⟨_, rfl, .inr ⟨rfl, ?_⟩⟩
  rintro b ⟨k, hk, -⟩
  cases k
  exacts [h₁ hk, h₂ hk, h₃ hk, h₄ hk, h₅ hk, h₆ hk, h₇ hk]

theorem answers_search (hdb : Intact db) {query : String} (hq : trim query ≠ "") :
    Answers (Names postgres denv db (trim query)) (trim query)
      (search postgres (.ok db) denv query) := by
  have hbyId : Answers (NamesById postgres db (denv.toLowercase (trim query))) (trim query)
      (searchPrefix postgres (.ok db) (trim query) (denv.toLowercase (trim query))) :=
    answers_searchPrefix hdb
  obtain ⟨b, hreply, hb⟩ := hbyId
  unfold search
  dsimp only
  rw [if_neg hq]
  cases hparse : parseI64 (trim query) with
  | none =>
    refine ⟨b, hreply, hb.imp .inr fun hnone => ⟨hnone.1, ?_⟩⟩
    rintro b' (⟨r, -, hr, -⟩ | hb')
    · rw [hparse] at hr
      cases hr
    · exact hnone.2 b' hb'
  | some h =>
    have hquery : Queries.slotByHeight (.ok db) h = .ok (Table.lookup SlotRow.height h db.slots) :=
      rfl
    dsimp only
    rw [hquery]
    cases hl : Table.lookup SlotRow.height h db.slots with
    | some r =>
      obtain rfl := Table.lookup_key hl
      exact ⟨_, rfl, .inl (.inl ⟨r, Table.lookup_mem hl, hparse, rfl⟩)⟩
    | none =>
      -- no slot has the height, so the text may only name something by its prefix
      refine ⟨b, hreply, hb.imp .inr fun hnone => ⟨hnone.1, ?_⟩⟩
      rintro b' (⟨r, hr, hheight, -⟩ | hb')
      · rw [hparse, Option.some.injEq] at hheight
        exact Table.lookup_eq_none.1 hl r hr hheight.symm
      · exact hnone.2 b' hb'

end Search

/-! ## Links -/

section Links

variable {postgres denv db} {db' : Db} {codec : Codec} {q id : String} {b : SearchResponse}

theorem block_resolves (hdb' : Intact db') (hlater : Later db db') {r : SlotRow}
    (hr : r ∈ db.slots) : (SearchResponse.block r.height.toUInt64).Resolves denv db' := by
  obtain ⟨r', hr', hheight, -⟩ := hlater.slots r hr
  exact (block_found hdb').2 ⟨r', hr', hheight.trans (Int64.toInt64_toUInt64 _).symm, trivial⟩

theorem seenAt_isSome {slot : Option Int64} {timestamp : Option Int} (hslot : slot.isSome)
    (htimestamp : timestamp.isSome) : (seenAt denv slot timestamp).isSome := by
  obtain ⟨s, rfl⟩ := Option.isSome_iff_exists.1 hslot
  obtain ⟨t, rfl⟩ := Option.isSome_iff_exists.1 htimestamp
  rfl

/-- A row that says since when its address was seen says so of the instant too. -/
theorem timestamps_of_valid {r : AddressSummaryRow} (h : r.Valid) :
    r.firstSeenTimestamp.isSome ∧ r.lastSeenTimestamp.isSome := by
  obtain ⟨-, hfirst, hlast⟩ := AddressSummaryRow.check_eq_ok.1 h.check
  have hslots := And.intro h.first h.last
  simp only [Option.isSome_iff_ne_none] at hslots ⊢
  exact ⟨(hfirst.resolve_left fun hnone => hslots.1 hnone.1).2.2,
    (hlast.resolve_left fun hnone => hslots.2 hnone.1).2.2⟩

/-- An address keeps its row, and a row says since when. -/
theorem address_resolves (hdb' : Intact db') (hlater : Later db db') {r : AddressSummaryRow}
    (hr : r ∈ db.addressSummaries) : (SearchResponse.address r.address).Resolves denv db' := by
  obtain ⟨r', hr', hkey, -⟩ := hlater.summaries r hr
  have hvalid := hdb'.summaries.rows r' hr'
  obtain ⟨hfirst, hlast⟩ := timestamps_of_valid hvalid
  have hl : Table.lookup AddressSummaryRow.address r.address db'.addressSummaries = some r' :=
    (Table.lookup_eq_some_iff hdb'.summaries.unique).2 ⟨hr', hkey⟩
  intro avowTokenId queryBalanceFor
  refine ⟨_, _, rfl, ?_⟩
  simp only [hl]
  exact ⟨seenAt_isSome hvalid.first hfirst, seenAt_isSome hvalid.last hlast⟩

theorem attestation_resolves (hdb' : Intact db') (hlat : LatIds codec denv)
    (hkeyed' : AttestationsKeyed codec db') (hlater : Later db db') {r : AttestationRow}
    (hr : r ∈ db.attestations) : (SearchResponse.attestation r.id).Resolves denv db' := by
  obtain ⟨r', hr', hid, -⟩ := hlater.attestations r hr
  refine (attestation_found hdb' hlat hkeyed').2 ⟨r', hr', ?_, trivial⟩
  rw [← hid]
  exact (attestation_spelled hlat hkeyed' hr').1.symm

theorem id_resolves (hdb' : Intact db') (hlat : LatIds codec denv)
    (hkeyed' : AttestationsKeyed codec db') (hlater : Later db db') {k : SearchKind}
    (h : k.Named postgres db id b) : b.Resolves denv db' := by
  cases k with
  | blockHash =>
    obtain ⟨r, hr, -, rfl⟩ := h
    exact block_resolves hdb' hlater hr
  | tx =>
    obtain ⟨⟨t, ht, rfl⟩, rfl⟩ := h
    obtain ⟨t', ht', hhash, -⟩ := hlater.transactions t ht
    obtain ⟨r, hr, rfl⟩ := (mem_txRows hdb').1 ht'
    exact (tx_found hdb').2 ⟨r, hr, hhash, trivial⟩
  | address =>
    obtain ⟨⟨r, hr, rfl⟩, rfl⟩ := h
    exact address_resolves hdb' hlater hr
  | schema =>
    obtain ⟨⟨t, ht, rfl⟩, rfl⟩ := h
    obtain ⟨t', ht', hid, -⟩ := hlater.schemas t ht
    obtain ⟨r, hr, rfl⟩ := (mem_schemaRows hdb').1 ht'
    exact (schema_found hdb').2 ⟨r, hr, hid, trivial⟩
  | attestorSet =>
    obtain ⟨⟨r, hr, rfl⟩, rfl⟩ := h
    obtain ⟨r', hr', hid, -⟩ := hlater.attestorSets r hr
    exact (attestorSet_found hdb').2 ⟨r', hr', hid, trivial⟩
  | attestation =>
    obtain ⟨⟨r, hr, rfl⟩, rfl⟩ := h
    exact attestation_resolves hdb' hlat hkeyed' hlater hr
  | payloadHash =>
    obtain ⟨r, hr, -, rfl, -⟩ := h
    exact attestation_resolves hdb' hlat hkeyed' hlater hr

theorem named_resolves (hdb' : Intact db') (hlat : LatIds codec denv)
    (hkeyed' : AttestationsKeyed codec db') (hlater : Later db db')
    (h : Names postgres denv db q b) : b.Resolves denv db' := by
  obtain ⟨r, hr, -, rfl⟩ | ⟨k, -, hk⟩ := h
  · exact block_resolves hdb' hlater hr
  · exact id_resolves hdb' hlat hkeyed' hlater hk

end Links

/-! ## Requests during a run -/

section Runs

variable {postgres denv} {ienv : Indexer.Env} {s : IndexerState} {seen : List Db}
  {es : List (Option Event)}

/-- **Search finds what is there, and its links stay good.** Asked beside the running indexer, it
answers with what the text names, and with `not_found` only if it names nothing; what it has
answered with, the endpoint it links to finds at that time and ever after. -/
theorem search_answers (hlat : LatIds ienv.codec denv)
    (hrun : exec (observe (step ienv) IndexerState.db) (.init, []) es = some (s, seen))
    {i j : Nat} {db db' : Db} (hij : i ≤ j) (hi : seen[i]? = some db) (hj : seen[j]? = some db')
    {query : String} (hq : trim query ≠ "") :
    ∃ b, search postgres (.ok db) denv query = .json b ∧
      (Names postgres denv db (trim query) b ∧ b.Resolves denv db' ∨
        b = .notFound (trim query) ∧ ∀ b, ¬ Names postgres denv db (trim query) b) := by
  obtain ⟨hdb, -⟩ := intact_of_request hrun (List.mem_of_getElem? hi)
  obtain ⟨hdb', hkeyed'⟩ := intact_of_request hrun (List.mem_of_getElem? hj)
  have hlater : Later db db' := later_of_reads hrun hij hi hj
  obtain ⟨b, hreply, hb⟩ := answers_search hdb hq
  refine ⟨b, hreply, hb.imp (fun hnamed => ⟨hnamed, ?_⟩) id⟩
  exact named_resolves hdb' hlat hkeyed' hlater hnamed

/-- ASCII texts in lower case. -/
def asciiDetailEnv : DetailEnv :=
  { plainDetailEnv with toLowercase := fun s => String.ofList (s.toList.map Char.toLower) }

/-- A set, spelled in upper case, before its slot is walked again. -/
theorem search_answers_between_walks :
    ∃ s db db', exec (observe (step registryEnv) IndexerState.db) (.init, []) readBetweenWalks =
        some (s, [db, db']) ∧
      search sampleEnv.postgres (.ok db) asciiDetailEnv " LAS1 " = .json (.attestorSet "las1") ∧
      (SearchResponse.attestorSet "las1").Resolves asciiDetailEnv db' := by
  obtain ⟨s, db, db', hrun, hreply⟩ : ∃ s db db',
      exec (observe (step registryEnv) IndexerState.db) (.init, []) readBetweenWalks =
        some (s, [db, db']) ∧
      search sampleEnv.postgres (.ok db) asciiDetailEnv " LAS1 " = .json (.attestorSet "las1") :=
    ⟨_, _, _, rfl, by decide⟩
  have hq : trim " LAS1 " ≠ "" := by decide
  obtain ⟨b, hb, ⟨-, hresolves⟩ | ⟨rfl, -⟩⟩ := @search_answers sampleEnv.postgres asciiDetailEnv
    registryEnv s _ _ (fun _ _ h => by cases h) hrun 0 1 _ _ (by decide) rfl rfl _ hq
  · rw [hreply, SearchReply.json.injEq] at hb
    subst hb
    exact ⟨s, db, db', hrun, hreply, hresolves⟩
  · rw [hreply] at hb
    cases hb

end Runs

end LigateApi.Api
