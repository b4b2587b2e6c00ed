import LigateApi.Indexer.Decode

/-!
# The body decoder stays in range

The decoder reads untrusted bytes, and an index or a slice out of range would end the ingest task.
`decodeTxBodyChecked` is `decode_tx_body` with every such access failing out of range, an unchecked
subtraction included, in the order of the source. It never fails, and returns what `decodeTxBody`
returns. The sums of offsets are bounded by the length of the body, so they do not overflow.
-/

namespace LigateApi.Indexer

open Lib.Bytes

/-! ## The accesses of the source -/

/-- `strip_authenticator_wrapper`; `&&` stops at the first test that fails. -/
def stripAuthenticatorWrapperChecked (raw : List UInt8) : Except OutOfRange (List UInt8) :=
  if wrapperLen < raw.length then do
    let tag ← indexAt raw 0
    if tag = v0Tag then
      let b₁ ← indexAt raw 1
      let b₂ ← indexAt raw 2
      let b₃ ← indexAt raw 3
      let b₄ ← indexAt raw 4
      let rest ← subChecked raw.length wrapperLen
      if leValue [b₁, b₂, b₃, b₄] = rest then
        let innerTag ← indexAt raw wrapperLen
        if innerTag = v0Tag then slice raw wrapperLen raw.length
        else return raw
      else return raw
    else return raw
  else return raw

/-- One turn of the loop in `parse_nonce`. -/
def parseNonceAtChecked (inner : List UInt8) (gasFieldLen : Nat) :
    Except OutOfRange (Option (Option UInt64)) :=
  let m := inner.length
  let expectGasTag := if gasFieldLen = 1 then gasNoneTag else gasSomeTag
  let detailsLen := priorityFeeLen + maxFeeLen + gasFieldLen + chainIdLen
  match checkedSub m (chainIdLen + gasFieldLen), checkedSub m (detailsLen + uniqTotal) with
  | some gasTagOff, some uniqTagOff =>
    if uniqTagOff < innerPubkeyEnd then .ok none
    else if inner[gasTagOff]? ≠ some expectGasTag then .ok none
    else if inner[uniqTagOff]? ≠ some uniqTagNonce then .ok none
    else do
      let nonceOff := uniqTagOff + 1
      let bytes ← slice inner nonceOff (nonceOff + uniqNonceLen)
      return some (u64OfLe bytes)
  | _, _ => .ok none

/-- The loop of `parse_nonce`. -/
def parseNonceLoop (inner : List UInt8) : List Nat → Except OutOfRange (Option UInt64)
  | [] => .ok none
  | gasFieldLen :: rest => do
    match ← parseNonceAtChecked inner gasFieldLen with
    | some result => return result
    | none => parseNonceLoop inner rest

/-- `parse_nonce` -/
def parseNonceChecked (inner : List UInt8) (expectedChainId : UInt64) :
    Except OutOfRange (Option UInt64) :=
  let m := inner.length
  if m < chainIdLen then .ok none
  else do
    let start ← subChecked m chainIdLen
    let bytes ← slice inner start m
    match u64OfLe bytes with
    | none => return none
    | some chainId =>
      if chainId ≠ expectedChainId then return none
      else parseNonceLoop inner [1, 1 + gasSomeWidth]

/-- `decode_tx_body` -/
def decodeTxBodyChecked (codec : Codec) (bodyB64 : String) (expectedChainId : UInt64) :
    Except OutOfRange (Option DecodedTxBody) :=
  let bodyB64 := trim bodyB64
  if bodyB64.isEmpty then .ok none
  else
    match codec.base64Decode bodyB64 with
    | none => .ok none
    | some raw => do
      let inner ← stripAuthenticatorWrapperChecked raw
      if inner.head? ≠ some v0Tag ∨ inner.length < innerPubkeyEnd then return none
      else
        let pubkey ← slice inner innerPubkeyStart innerPubkeyEnd
        let addressBytes ← slice pubkey 0 addressLen
        match codec.bech32mEncode hrpAddress addressBytes, codec.bech32mEncode hrpPubkey pubkey with
        | some sender, some senderPubkey => do
          let nonce ← parseNonceChecked inner expectedChainId
          return some { sender, senderPubkey, nonce }
        | _, _ => return none

/-! ## In range -/

/-- Longer than the wrapper means at least six bytes. -/
theorem exists_six_bytes {raw : List UInt8} (h : wrapperLen < raw.length) :
    ∃ b₀ b₁ b₂ b₃ b₄ b₅ tail, raw = b₀ :: b₁ :: b₂ :: b₃ :: b₄ :: b₅ :: tail := by
  match raw, h with
  | b₀ :: b₁ :: b₂ :: b₃ :: b₄ :: b₅ :: tail, _ => exact ⟨b₀, b₁, b₂, b₃, b₄, b₅, tail, rfl⟩

theorem stripAuthenticatorWrapperChecked_eq (raw : List UInt8) :
    stripAuthenticatorWrapperChecked raw = .ok (stripAuthenticatorWrapper raw) := by
  unfold stripAuthenticatorWrapperChecked stripAuthenticatorWrapper
  by_cases hlen : wrapperLen < raw.length
  · rw [if_pos hlen, subChecked_eq (Nat.le_of_lt hlen), slice_to_end (Nat.le_of_lt hlen)]
    obtain ⟨b₀, b₁, b₂, b₃, b₄, b₅, tail, hraw⟩ := exists_six_bytes hlen
    have htag : raw[0]? = some b₀ := by rw [hraw]; rfl
    have hinner : raw[wrapperLen]? = some b₅ := by rw [hraw]; rfl
    have hlength : (raw.drop 1).take 4 = [b₁, b₂, b₃, b₄] := by rw [hraw]; rfl
    rw [indexAt_eq htag, indexAt_eq hinner, hlength, htag, hinner,
      @indexAt_eq _ raw 1 b₁ (by rw [hraw]; rfl), @indexAt_eq _ raw 2 b₂ (by rw [hraw]; rfl),
      @indexAt_eq _ raw 3 b₃ (by rw [hraw]; rfl), @indexAt_eq _ raw 4 b₄ (by rw [hraw]; rfl)]
    simp only [bind, Except.bind, Option.some.injEq]
    by_cases hb₀ : b₀ = v0Tag
    · rw [if_pos hb₀]
      by_cases hlens : leValue [b₁, b₂, b₃, b₄] = raw.length - wrapperLen
      · rw [if_pos hlens]
        by_cases hb₅ : b₅ = v0Tag
        · rw [if_pos hb₅, if_pos ⟨hlen, hb₀, hlens, hb₅⟩]
        · rw [if_neg hb₅, if_neg fun h => hb₅ h.2.2.2]
          rfl
      · rw [if_neg hlens, if_neg fun h => hlens h.2.2.1]
        rfl
    · rw [if_neg hb₀, if_neg fun h => hb₀ h.2.1]
      rfl
  · rw [if_neg hlen, if_neg fun h => hlen h.1]
    rfl

theorem checkedSub_eq_some {m n k : Nat} : checkedSub m n = some k ↔ n ≤ m ∧ k = m - n := by
  unfold checkedSub
  split
  · next h => simp [h, eq_comm]
  · next h => simp [h]

/-- The nonce ends where the details begin. -/
theorem parseNonceAtChecked_eq (inner : List UInt8) (gasFieldLen : Nat) :
    parseNonceAtChecked inner gasFieldLen = .ok (parseNonceAt inner gasFieldLen) := by
  unfold parseNonceAtChecked parseNonceAt
  dsimp only
  cases hgas : checkedSub inner.length (chainIdLen + gasFieldLen) with
  | none => rfl
  | some gasTagOff =>
    cases huniq : checkedSub inner.length
        (priorityFeeLen + maxFeeLen + gasFieldLen + chainIdLen + uniqTotal) with
    | none => rfl
    | some uniqTagOff =>
      obtain ⟨hle, hoff⟩ := checkedSub_eq_some.1 huniq
      have hend : uniqTagOff + 1 + uniqNonceLen ≤ inner.length := by
        simp only [uniqTotal] at hle hoff
        omega
      dsimp only
      rw [slice_eq (Nat.le_add_right _ _) hend, Nat.add_sub_cancel_left]
      simp only [bind, Option.bind]
      generalize (if gasFieldLen = 1 then gasNoneTag else gasSomeTag) = expectGasTag
      split
      · rfl
      · split
        · rfl
        · split
          · rfl
          · rfl

theorem parseNonceLoop_eq (inner : List UInt8) (widths : List Nat) :
    parseNonceLoop inner widths = .ok (widths.findSome? (parseNonceAt inner)).join := by
  induction widths with
  | nil => rfl
  | cons width widths ih =>
    rw [parseNonceLoop, parseNonceAtChecked_eq, List.findSome?_cons]
    cases h : parseNonceAt inner width with
    | none => exact ih
    | some result => rfl

theorem parseNonceChecked_eq (inner : List UInt8) (expectedChainId : UInt64) :
    parseNonceChecked inner expectedChainId = .ok (parseNonce inner expectedChainId) := by
  unfold parseNonceChecked parseNonce
  dsimp only
  by_cases hlen : inner.length < chainIdLen
  · rw [if_pos hlen, if_pos hlen]
  · rw [if_neg hlen, if_neg hlen, subChecked_eq (Nat.le_of_not_lt hlen)]
    simp only [bind, Except.bind]
    rw [slice_to_end (Nat.sub_le _ _)]
    simp only [parseNonceLoop_eq]
    cases u64OfLe (inner.drop (inner.length - chainIdLen)) with
    | none => rfl
    | some chainId =>
      dsimp only [Option.bind]
      split
      · rfl
      · rfl

/-- No access of the decoder is out of range. -/
theorem decodeTxBodyChecked_eq (codec : Codec) (bodyB64 : String) (expectedChainId : UInt64) :
    decodeTxBodyChecked codec bodyB64 expectedChainId =
      .ok (decodeTxBody codec bodyB64 expectedChainId) := by
  unfold decodeTxBodyChecked decodeTxBody
  dsimp only
  by_cases hempty : (trim bodyB64).isEmpty = true
  · rw [if_pos hempty, if_pos hempty]
  · rw [if_neg hempty, if_neg hempty]
    cases codec.base64Decode (trim bodyB64) with
    | none => rfl
    | some raw =>
      dsimp only
      rw [stripAuthenticatorWrapperChecked_eq]
      simp only [bind, Except.bind, Option.bind]
      generalize stripAuthenticatorWrapper raw = inner
      by_cases hshort : inner.head? ≠ some v0Tag ∨ inner.length < innerPubkeyEnd
      · rw [if_pos hshort, if_pos hshort]
        rfl
      · rw [if_neg hshort, if_neg hshort]
        have hend : innerPubkeyEnd ≤ inner.length := Nat.le_of_not_lt fun h => hshort (.inr h)
        have hkey : slice inner innerPubkeyStart innerPubkeyEnd =
            .ok ((inner.drop innerPubkeyStart).take pubkeyLen) :=
          slice_eq (Nat.le_add_right _ _) hend
        have hlen : ((inner.drop innerPubkeyStart).take pubkeyLen).length = pubkeyLen := by
          rw [List.length_take, List.length_drop]
          simp only [innerPubkeyEnd] at hend
          omega
        have haddress : slice ((inner.drop innerPubkeyStart).take pubkeyLen) 0 addressLen =
            .ok (((inner.drop innerPubkeyStart).take pubkeyLen).take addressLen) := by
          rw [slice_eq (Nat.zero_le _) (by rw [hlen]; decide)]
          rfl
        rw [hkey]
        dsimp only
        rw [haddress]
        dsimp only
        cases codec.bech32mEncode hrpAddress
            (((inner.drop innerPubkeyStart).take pubkeyLen).take addressLen) with
        | none => rfl
        | some sender =>
          cases codec.bech32mEncode hrpPubkey ((inner.drop innerPubkeyStart).take pubkeyLen) with
          | none => rfl
          | some senderPubkey =>
            dsimp only
            rw [parseNonceChecked_eq]
            rfl

/-! ## The chain id -/

/-- A nonce is returned for the chain id of the body only. -/
theorem parseNonce_chainId {inner : List UInt8} {chainId nonce : UInt64}
    (h : parseNonce inner chainId = some nonce) :
    u64OfLe (inner.drop (inner.length - chainIdLen)) = some chainId := by
  unfold parseNonce at h
  dsimp only at h
  split at h
  · cases h
  · obtain ⟨bodyChainId, hbody, h⟩ := Option.bind_eq_some_iff.1 h
    split at h
    · cases h
    · next heq =>
      rw [not_not] at heq
      rw [hbody, heq]

/-- The signer is read without the chain id, the nonce from the same inner transaction. -/
theorem decodeTxBody_any_chain (codec : Codec) (bodyB64 : String) :
    (∀ chainId, decodeTxBody codec bodyB64 chainId = none) ∨
    ∃ sender senderPubkey inner, ∀ chainId, decodeTxBody codec bodyB64 chainId =
      some { sender, senderPubkey, nonce := parseNonce inner chainId } := by
  unfold decodeTxBody
  dsimp only
  by_cases hempty : (trim bodyB64).isEmpty = true
  · exact .inl fun _ => if_pos hempty
  · simp only [if_neg hempty]
    cases codec.base64Decode (trim bodyB64) with
    | none => exact .inl fun _ => rfl
    | some raw =>
      simp only [bind, Option.bind]
      generalize stripAuthenticatorWrapper raw = inner
      by_cases hshort : inner.head? ≠ some v0Tag ∨ inner.length < innerPubkeyEnd
      · exact .inl fun _ => if_pos hshort
      · simp only [if_neg hshort]
        cases codec.bech32mEncode hrpAddress
            (((inner.drop innerPubkeyStart).take pubkeyLen).take addressLen) with
        | none => exact .inl fun _ => rfl
        | some sender =>
          cases codec.bech32mEncode hrpPubkey ((inner.drop innerPubkeyStart).take pubkeyLen) with
          | none => exact .inl fun _ => rfl
          | some senderPubkey => exact .inr ⟨sender, senderPubkey, inner, fun _ => rfl⟩

/-- On every text and for any two chain ids, the decoder stays in range, finds a signer for both or
for neither, the same one, and a nonce for at most one of two different ids. -/
theorem decodeTxBody_in_range_and_chain_independent (codec : Codec) (bodyB64 : String)
    (chainId₁ chainId₂ : UInt64) :
    ∃ r₁ r₂, decodeTxBodyChecked codec bodyB64 chainId₁ = .ok r₁ ∧
      decodeTxBodyChecked codec bodyB64 chainId₂ = .ok r₂ ∧
      ((r₁ = none ∧ r₂ = none) ∨
        ∃ d₁ d₂, r₁ = some d₁ ∧ r₂ = some d₂ ∧ d₁.sender = d₂.sender ∧
          d₁.senderPubkey = d₂.senderPubkey ∧
          (chainId₁ ≠ chainId₂ → d₁.nonce = none ∨ d₂.nonce = none)) := by
  refine ⟨_, _, decodeTxBodyChecked_eq _ _ _, decodeTxBodyChecked_eq _ _ _, ?_⟩
  rcases decodeTxBody_any_chain codec bodyB64 with hnone | ⟨sender, senderPubkey, inner, hsome⟩
  · exact .inl ⟨hnone _, hnone _⟩
  · refine .inr ⟨_, _, hsome _, hsome _, rfl, rfl, fun hne => ?_⟩
    cases h₁ : parseNonce inner chainId₁ with
    | none => exact .inl rfl
    | some nonce₁ =>
      cases h₂ : parseNonce inner chainId₂ with
      | none => exact .inr rfl
      | some nonce₂ =>
        have heq := (parseNonce_chainId h₁).symm.trans (parseNonce_chainId h₂)
        exact absurd (Option.some.inj heq) hne

end LigateApi.Indexer
