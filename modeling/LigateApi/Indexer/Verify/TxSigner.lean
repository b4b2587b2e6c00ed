import LigateApi.Indexer.Verify.BodyNonce
import LigateApi.Indexer.Verify.Statements
import LigateApi.Lib.Run

/-!
# The recorded signer

`sender` and `sender_pubkey` are merged by two separate `COALESCE`s, and only `sender` has a
fallback in the events. The pair stays that of one key as long as no ingest without a body brings
an event sender other than the stored signer to a row that has a key (`KeepsSigner`); the first
ingest that does leaves a row with the key of one account and the address of another.
-/

namespace LigateApi.Indexer

open Lib Lib.Run

/-! ## Keys and their texts -/

/-- `sender` and `pubkey` are the `lig1` and the `lpk1` form of the key. -/
structure SignerTexts (codec : Codec) (pk : List UInt8) (sender pubkey : String) : Prop where
  length : pk.length = pubkeyLen
  sender : codec.bech32mEncode hrpAddress (pk.take addressLen) = some sender
  pubkey : codec.bech32mEncode hrpPubkey pk = some pubkey

/-- If the row has a key then its sender is the address of that key. -/
def TxRow.SignerRecorded (codec : Codec) (r : TxRow) : Prop :=
  ∀ pubkey, r.senderPubkey = some pubkey →
    ∃ pk sender, SignerTexts codec pk sender pubkey ∧ r.sender = some sender

/-- A decoded body names the signer by both forms of one key. -/
theorem decodeTxBody_signer {codec : Codec} {body : String} {chainId : UInt64} {d : DecodedTxBody}
    (h : decodeTxBody codec body chainId = some d) :
    ∃ pk, SignerTexts codec pk d.sender d.senderPubkey := by
  unfold decodeTxBody at h
  simp only [Option.bind_eq_bind] at h
  split at h
  · cases h
  · obtain ⟨raw, -, h⟩ := Option.bind_eq_some_iff.1 h
    split at h
    · cases h
    · rename_i hshape
      obtain ⟨sender, hsender, h⟩ := Option.bind_eq_some_iff.1 h
      obtain ⟨pubkey, hpubkey, h⟩ := Option.bind_eq_some_iff.1 h
      cases h
      refine ⟨_, ?_, hsender, hpubkey⟩
      have hlong : innerPubkeyEnd ≤ (stripAuthenticatorWrapper raw).length :=
        Nat.le_of_not_lt fun hlt => hshape (.inr hlt)
      rw [List.length_take, List.length_drop]
      simp only [innerPubkeyEnd, innerPubkeyStart, pubkeyLen] at hlong ⊢
      omega

/-! ## Ingests of one transaction -/

/-- One ingest of a transaction, with its body or with none. -/
structure TxIngest where
  classified : ClassifiedTx
  slotHeight : UInt64
  position : Int32
  withBody : Bool

section Ingest

variable (codec : Codec) (body : String) (chainId : UInt64)

def TxIngest.decoded (i : TxIngest) : Option DecodedTxBody :=
  if i.withBody then decodeTxBody codec body chainId else none

def TxIngest.row (i : TxIngest) : TxRow :=
  txRow i.classified i.slotHeight i.position (i.decoded codec body chainId) "committed"

/-- `insert_transaction` of the ingest; a refused one leaves the database as it is. -/
def ingestTx (db : Db) (i : TxIngest) : Option Db :=
  match insertTransaction i.classified i.slotHeight i.position (i.decoded codec body chainId) db with
  | .ok db' => some db'
  | .error _ => some db

/-- The database takes the row: the transaction is committed, its slot is stored, and no other
transaction has its position. -/
def Accepts (db : Db) (i : TxIngest) : Prop :=
  i.classified.outcome = .committed ∧
    (∀ old, Table.lookup TxRow.hash i.classified.hash db.transactions = some old →
      old.revertReason = none) ∧
    ¬ db.positionTaken (i.row codec body chainId) ∧ db.hasSlot i.slotHeight.toInt64

/-- An accepted ingest that decodes no body meets no key, or names no sender, or the stored one. -/
def KeepsSigner (db : Db) (i : TxIngest) : Prop :=
  Accepts codec body chainId db i → i.decoded codec body chainId = none →
    ∀ old address, Table.lookup TxRow.hash i.classified.hash db.transactions = some old →
      old.senderPubkey.isSome → eventSender i.classified.kind = some address →
      old.sender = some address

variable {codec body chainId} {db db' : Db} {i : TxIngest}

theorem ingestTx_accepted (ha : Accepts codec body chainId db i) :
    ingestTx codec body chainId db i =
      some { db with
        transactions := Table.upsert TxRow.hash (i.row codec body chainId)
          (mergeTxRow (i.row codec body chainId)) db.transactions } := by
  obtain ⟨hcommitted, hreason, hposition, hslot⟩ := ha
  have hok := upsertTxRow_eq_ok.2
    ⟨txRow_check.2 rfl, fun old hold => mergeTxRow_check.2 (hreason old hold), hposition, hslot, rfl⟩
  rw [ingestTx, insertTransaction_committed hcommitted]
  simp only [TxIngest.row] at hok ⊢
  rw [hok]

theorem ingestTx_not_accepted (ha : ¬ Accepts codec body chainId db i) :
    ingestTx codec body chainId db i = some db := by
  unfold ingestTx
  split
  · rename_i t hok
    cases hc : i.classified.outcome with
    | skipped =>
      simp only [insertTransaction, hc, outcomeText, Except.ok.injEq] at hok
      rw [hok]
    | reverted => exact absurd hok (insertTransaction_reverted hc)
    | committed =>
      rw [insertTransaction_committed hc] at hok
      obtain ⟨-, hmerge, hposition, hslot, -⟩ := upsertTxRow_eq_ok.1 hok
      exact absurd ⟨hc, fun old hold => mergeTxRow_check.1 (hmerge old hold), hposition, hslot⟩ ha
  · rfl

theorem lookup_upsert_row (db : Db) (i : TxIngest) :
    Table.lookup TxRow.hash i.classified.hash
        (Table.upsert TxRow.hash (i.row codec body chainId)
          (mergeTxRow (i.row codec body chainId)) db.transactions) =
      some ((Table.lookup TxRow.hash i.classified.hash db.transactions).elim
        (i.row codec body chainId) (mergeTxRow (i.row codec body chainId))) := by
  have hkey : (i.row codec body chainId).hash = i.classified.hash := rfl
  rw [← hkey]
  exact Table.lookup_upsert_self fun _ => rfl

/-- The row of the transaction after an ingest. -/
theorem lookup_ingestTx (h : ingestTx codec body chainId db i = some db') :
    Table.lookup TxRow.hash i.classified.hash db'.transactions =
        Table.lookup TxRow.hash i.classified.hash db.transactions ∨
      Accepts codec body chainId db i ∧
        Table.lookup TxRow.hash i.classified.hash db'.transactions =
          some ((Table.lookup TxRow.hash i.classified.hash db.transactions).elim
            (i.row codec body chainId) (mergeTxRow (i.row codec body chainId))) := by
  by_cases ha : Accepts codec body chainId db i
  · rw [ingestTx_accepted ha, Option.some.injEq] at h
    refine .inr ⟨ha, ?_⟩
    rw [← h]
    exact lookup_upsert_row db i
  · rw [ingestTx_not_accepted ha, Option.some.injEq] at h
    exact .inl (by rw [h])

/-! ## What one ingest does to the pair -/

/-- A decoded body writes both columns. -/
theorem signerRecorded_of_decoded {d : DecodedTxBody} (hd : i.decoded codec body chainId = some d)
    (stored : Option TxRow) :
    (stored.elim (i.row codec body chainId)
      (mergeTxRow (i.row codec body chainId))).SignerRecorded codec := by
  have hbody : decodeTxBody codec body chainId = some d := by
    unfold TxIngest.decoded at hd
    split at hd
    · exact hd
    · cases hd
  obtain ⟨pk, htexts⟩ := decodeTxBody_signer hbody
  have hsender : (i.row codec body chainId).sender = some d.sender := by simp [TxIngest.row, txRow, hd]
  have hpubkey : (i.row codec body chainId).senderPubkey = some d.senderPubkey := by
    simp [TxIngest.row, txRow, hd]
  intro pubkey hrow
  cases stored with
  | none =>
    simp only [Option.elim_none, hpubkey, Option.some.injEq] at hrow
    exact ⟨pk, d.sender, hrow ▸ htexts, hsender⟩
  | some old =>
    simp only [Option.elim_some, mergeTxRow, hpubkey, Option.some_or, Option.some.injEq] at hrow
    refine ⟨pk, d.sender, hrow ▸ htexts, ?_⟩
    simp only [Option.elim_some, mergeTxRow, hsender, Option.some_or]

theorem row_of_bodyless (hd : i.decoded codec body chainId = none) :
    (i.row codec body chainId).sender = eventSender i.classified.kind ∧
      (i.row codec body chainId).senderPubkey = none := by
  simp [TxIngest.row, txRow, hd]

/-- **Step lemma.** -/
theorem KeepsSigner.step (hkeep : KeepsSigner codec body chainId db i)
    (hinv : ∀ row, Table.lookup TxRow.hash i.classified.hash db.transactions = some row →
      row.SignerRecorded codec)
    (h : ingestTx codec body chainId db i = some db') :
    ∀ row, Table.lookup TxRow.hash i.classified.hash db'.transactions = some row →
      row.SignerRecorded codec := by
  intro row hrow
  rcases lookup_ingestTx h with hsame | ⟨ha, hnew⟩
  · exact hinv row (hsame ▸ hrow)
  · rw [hnew, Option.some.injEq] at hrow
    subst hrow
    cases hd : i.decoded codec body chainId with
    | some d => exact signerRecorded_of_decoded hd _
    | none =>
      obtain ⟨hsender, hpubkey⟩ := row_of_bodyless hd
      intro pubkey hkey
      cases hold : Table.lookup TxRow.hash i.classified.hash db.transactions with
      | none =>
        rw [hold, Option.elim_none, hpubkey] at hkey
        cases hkey
      | some old =>
        rw [hold] at hkey
        simp only [Option.elim_some, mergeTxRow, hpubkey, Option.none_or] at hkey
        obtain ⟨pk, sender, htexts, hold_sender⟩ := hinv old hold pubkey hkey
        refine ⟨pk, sender, htexts, ?_⟩
        simp only [Option.elim_some, mergeTxRow, hsender]
        cases hev : eventSender i.classified.kind with
        | none => rw [Option.none_or, hold_sender]
        | some address =>
          rw [Option.some_or, ← hkeep ha hd old address hold (by rw [hkey]; rfl) hev, hold_sender]

/-- An ingest that does not keep the signer leaves a torn pair, since a key has one address. -/
theorem keepsSigner_of_recorded
    (hinj : ∀ pk pk' text, codec.bech32mEncode hrpPubkey pk = some text →
      codec.bech32mEncode hrpPubkey pk' = some text → pk = pk')
    (hbefore : ∀ row, Table.lookup TxRow.hash i.classified.hash db.transactions = some row →
      row.SignerRecorded codec)
    (hafter : ∀ db', ingestTx codec body chainId db i = some db' →
      ∀ row, Table.lookup TxRow.hash i.classified.hash db'.transactions = some row →
        row.SignerRecorded codec) :
    KeepsSigner codec body chainId db i := by
  intro ha hd old address hold hkey hev
  obtain ⟨pubkey, hpubkey⟩ := Option.isSome_iff_exists.1 hkey
  obtain ⟨hsender, hnokey⟩ := row_of_bodyless hd
  obtain ⟨pk, sender, htexts, hold_sender⟩ := hbefore old hold pubkey hpubkey
  have hrow : Table.lookup TxRow.hash i.classified.hash
      (Table.upsert TxRow.hash (i.row codec body chainId)
        (mergeTxRow (i.row codec body chainId)) db.transactions) =
      some (mergeTxRow (i.row codec body chainId) old) := by
    rw [lookup_upsert_row, hold, Option.elim_some]
  obtain ⟨pk', sender', htexts', hnew⟩ := hafter _ (ingestTx_accepted ha) _ hrow pubkey
    (by simp only [mergeTxRow, hnokey, Option.none_or, hpubkey])
  have hpk : pk' = pk := hinj pk' pk pubkey htexts'.pubkey htexts.pubkey
  have hsame : sender' = sender := by
    have h' := htexts'.sender
    rw [hpk, htexts.sender, Option.some.injEq] at h'
    exact h'.symm
  simp only [mergeTxRow, hsender, hev, Option.some_or] at hnew
  rw [hold_sender, ← hsame, ← hnew]

end Ingest

/-! ## Every state of a run -/

section Runs

variable {codec : Codec} {body : String} {chainId : UInt64} {hash : String} {db₀ : Db}
  {is : List TxIngest}

/-- The row of the transaction is consistent in every state the ingests lead to. -/
def SignerAlways (codec : Codec) (body : String) (chainId : UInt64) (hash : String) (db₀ : Db)
    (is : List TxIngest) : Prop :=
  ∀ js db, js <+: is → exec (ingestTx codec body chainId) db₀ js = some db →
    ∀ row, Table.lookup TxRow.hash hash db.transactions = some row → row.SignerRecorded codec

/-- **The signer and its key.** Over any ingests of one transaction the two columns agree in every
state exactly if each ingest keeps the stored signer. -/
theorem signer_recorded_iff
    (hinj : ∀ pk pk' text, codec.bech32mEncode hrpPubkey pk = some text →
      codec.bech32mEncode hrpPubkey pk' = some text → pk = pk')
    (hnew : Table.lookup TxRow.hash hash db₀.transactions = none)
    (hhash : ∀ i ∈ is, i.classified.hash = hash) :
    SignerAlways codec body chainId hash db₀ is ↔
      Along (ingestTx codec body chainId) (KeepsSigner codec body chainId) db₀ is := by
  constructor
  · intro halways
    apply along_of_forall
    intro ds i fs m his hm
    have hi : i.classified.hash = hash := hhash i (by rw [his]; simp)
    apply keepsSigner_of_recorded hinj
    · rw [hi]
      exact halways ds m ⟨i :: fs, his.symm⟩ hm
    · intro db' hdb'
      rw [hi]
      refine halways (ds ++ [i]) db' ⟨fs, ?_⟩ ?_
      · rw [his, List.append_assoc, List.singleton_append]
      · exact exec_cut.2 ⟨m, hm, exec_cons_eq_some.2 ⟨db', hdb', rfl⟩⟩
  · intro hkeep js db hjs hrun
    refine exec_history (I := fun _ db => ∀ row,
      Table.lookup TxRow.hash hash db.transactions = some row → row.SignerRecorded codec)
      ?_ ?_ hjs hrun
    · intro row hrow
      rw [hnew] at hrow
      cases hrow
    · intro es i m t hpre hm hinv ht
      have hi : i.classified.hash = hash := hhash i (hpre.subset (by simp))
      rw [← hi] at hinv ⊢
      exact (hkeep.at_prefix hpre hm).step hinv ht

end Runs

/-! ## Two histories of one transaction -/

/-- An ingest of the transaction `0xaa` as a transfer from `src`. -/
def transferIngest (src : String) (withBody : Bool) : TxIngest where
  classified := ⟨"0xaa", 1, 1, .committed, .transfer ⟨src, "lig1bob", "5", "token_1"⟩⟩
  slotHeight := 1
  position := 0
  withBody := withBody

/-- The transfer with its body, and again without it. -/
def transferTwice (src : String) : List TxIngest :=
  [transferIngest src true, transferIngest src false]

/-- A database that holds the first slot. -/
def firstSlotDb : Db :=
  { Db.empty with slots := [⟨1, "0x01", none, none, 0, 1, 1, none, none, none, none⟩] }

section Histories

variable {codec : Codec} {body : String} {chainId : UInt64} {src : String}

theorem accepts_transfer :
    Accepts codec body chainId firstSlotDb (transferIngest src true) := by
  refine ⟨rfl, ?_, ?_, ⟨_, List.mem_cons_self, rfl⟩⟩
  · rintro old ⟨⟩
  · intro h
    obtain ⟨r, ⟨⟩, -⟩ := h

theorem accepts_transfer_again {row : TxRow} (hrow : row.hash = "0xaa")
    (hreason : row.revertReason = none) :
    Accepts codec body chainId { firstSlotDb with transactions := [row] }
      (transferIngest src false) := by
  refine ⟨rfl, ?_, ?_, ⟨_, List.mem_cons_self, rfl⟩⟩
  · intro old hold
    rw [List.mem_singleton.1 (Table.lookup_mem hold), hreason]
  · intro h
    obtain ⟨r, hr, hne, -⟩ := h
    rw [List.mem_singleton.1 hr, hrow] at hne
    exact hne rfl

theorem row_transfer {d : DecodedTxBody} (hd : decodeTxBody codec body chainId = some d) :
    ((transferIngest src true).row codec body chainId).sender = some d.sender ∧
      ((transferIngest src true).row codec body chainId).senderPubkey = some d.senderPubkey := by
  have hdecoded : (transferIngest src true).decoded codec body chainId = some d := by
    simp only [TxIngest.decoded, transferIngest, if_true, hd]
  simp only [TxIngest.row, txRow, hdecoded, Option.map_some, Option.some_or, and_self]

theorem ingestTx_transfer :
    ingestTx codec body chainId firstSlotDb (transferIngest src true) =
      some { firstSlotDb with
        transactions := [(transferIngest src true).row codec body chainId] } := by
  rw [ingestTx_accepted accepts_transfer, Table.upsert_fresh rfl]
  rfl

/-- The signer's own transfer keeps the signer. -/
theorem along_own_transfer {d : DecodedTxBody} (hd : decodeTxBody codec body chainId = some d) :
    Along (ingestTx codec body chainId) (KeepsSigner codec body chainId) firstSlotDb
      (transferTwice d.sender) := by
  refine ⟨?_, ?_⟩
  · rintro - - old address ⟨⟩
  · intro db hdb
    rw [ingestTx_transfer, Option.some.injEq] at hdb
    subst hdb
    refine ⟨?_, fun _ _ => trivial⟩
    intro _ _ old address hold _ hev
    cases hev
    rw [List.mem_singleton.1 (Table.lookup_mem hold)]
    exact (row_transfer hd).1

/-- Without its body the transfer overwrites the stored sender, and not the key. -/
theorem ingestTx_transfer_again (row : TxRow) (hrow : row.hash = "0xaa")
    (hreason : row.revertReason = none) :
    ∃ db row', ingestTx codec body chainId { firstSlotDb with transactions := [row] }
        (transferIngest src false) = some db ∧
      Table.lookup TxRow.hash "0xaa" db.transactions = some row' ∧
      row'.sender = some src ∧ row'.senderPubkey = row.senderPubkey := by
  have hstored : Table.lookup TxRow.hash "0xaa" [row] = some row := by
    rw [Table.lookup_cons, if_pos hrow]
  refine ⟨_, mergeTxRow ((transferIngest src false).row codec body chainId) row,
    ingestTx_accepted (accepts_transfer_again hrow hreason), ?_, rfl, rfl⟩
  refine (lookup_upsert_row _ (transferIngest src false)).trans ?_
  rw [show (transferIngest src false).classified.hash = "0xaa" from rfl, hstored, Option.elim_some]

/-- A transfer from another account tears the pair. -/
theorem not_signerAlways_transfer {d : DecodedTxBody}
    (hd : decodeTxBody codec body chainId = some d)
    (hother : ∀ pk sender, SignerTexts codec pk sender d.senderPubkey → sender ≠ src) :
    ¬ SignerAlways codec body chainId "0xaa" firstSlotDb (transferTwice src) := by
  intro halways
  obtain ⟨db, row, hagain, hrow, hsrc, hkey⟩ :=
    ingestTx_transfer_again ((transferIngest src true).row codec body chainId) rfl rfl
  have hrun : exec (ingestTx codec body chainId) firstSlotDb (transferTwice src) = some db :=
    exec_cons_eq_some.2 ⟨_, ingestTx_transfer, exec_cons_eq_some.2 ⟨db, hagain, rfl⟩⟩
  obtain ⟨pk, sender, htexts, hsender⟩ := halways _ db (List.prefix_refl _) hrun row hrow
    d.senderPubkey (hkey.trans (row_transfer hd).2)
  rw [hsrc, Option.some.injEq] at hsender
  exact hother pk sender htexts hsender.symm

end Histories

/-- The codec of the body of `sampleTx none`. -/
def plainCodec : Codec := sampleCodec (String.ofList plainText) (sampleTx none)

def sampleSigner : DecodedTxBody where
  sender := "lig1qyqszqgpqyqszqgpqyqszqgpqyqszqgpqyqszqgpqyqszqdqcxa"
  senderPubkey := "lpk1qyqszqgpqyqszqgpqyqszqgpqyqszqgpqyqszqgpqyqszqgpqyqsqlytct"
  nonce := some 7

theorem decodeTxBody_plainText :
    decodeTxBody plainCodec (String.ofList plainText) 1 = some sampleSigner := by
  have htrim : trim (String.ofList plainText) = String.ofList plainText :=
    trim_ofList (by decide +kernel)
  have hlen : (sampleTx none).encode.length < 2 ^ 32 := by decide +kernel
  have hnonce : parseNonce (sampleTx none).encode 1 = some 7 := by decide +kernel
  rw [decodeTxBody_eq hlen ?_ ?_ rfl rfl 1, hnonce]
  · rfl
  · simp only [htrim, plainCodec, sampleCodec, if_true]
  · rw [htrim, ne_eq, String.ofList_eq_empty_iff]
    exact List.cons_ne_nil _ _

theorem plainCodec_key {pk : List UInt8} {text : String}
    (h : plainCodec.bech32mEncode hrpPubkey pk = some text) : pk = List.replicate 32 1 := by
  simp only [plainCodec, sampleCodec] at h
  split at h
  · rename_i hlig
    exact absurd hlig.1 (by decide)
  · split at h
    · rename_i hlpk
      exact hlpk.2
    · cases h

theorem own_transfer_recorded :
    SignerAlways plainCodec (String.ofList plainText) 1 "0xaa" firstSlotDb
      (transferTwice sampleSigner.sender) := by
  refine (signer_recorded_iff ?_ rfl ?_).2 (along_own_transfer decodeTxBody_plainText)
  · intro pk pk' text h h'
    rw [plainCodec_key h, plainCodec_key h']
  · intro i hi
    rcases List.mem_cons.1 hi with rfl | hi
    · rfl
    · rw [List.mem_singleton.1 hi]
      rfl

/-- A body-less re-ingest puts the event's address next to the signer's key. -/
theorem foreign_transfer_torn :
    ¬ SignerAlways plainCodec (String.ofList plainText) 1 "0xaa" firstSlotDb
      (transferTwice "lig1carol") := by
  apply not_signerAlways_transfer decodeTxBody_plainText
  intro pk sender htexts hcarol
  have haddress := htexts.sender
  rw [plainCodec_key htexts.pubkey, hcarol] at haddress
  exact absurd haddress (by decide)

end LigateApi.Indexer
