import LigateApi.Indexer.Decode

/-!
# Which bodies yield their own nonce

`parseNonce` tries the layout without a gas limit before the one with it, and accepts the first
whose two tag bytes fit. `parseNonceAt_suffix` says which bytes those are; reading them off an
encoded transaction gives the exact set of bodies whose nonce is reported wrongly (`Misread`), in
`decodeTxBody_nonce_sound_iff`.
-/

namespace LigateApi.Indexer

open Lib.Bytes

/-! ## One gas shape -/

theorem checkedSub_of_le {m n : Nat} (h : n ≤ m) : checkedSub m n = some (m - n) := if_pos h

/-- A shape whose uniqueness field would start inside the key is passed over. -/
theorem parseNonceAt_short {inner : List UInt8} {g : Nat} (h : inner.length < 138 + g) :
    parseNonceAt inner g = none := by
  unfold parseNonceAt
  simp only [chainIdLen, priorityFeeLen, maxFeeLen, uniqTotal, uniqNonceLen, innerPubkeyEnd,
    innerPubkeyStart, sigLen, pubkeyLen]
  cases h₁ : checkedSub inner.length (8 + g) with
  | none => rfl
  | some a =>
    cases h₂ : checkedSub inner.length (8 + 16 + g + 8 + (1 + 8)) with
    | none => rfl
    | some b =>
      have hb : b < 1 + 64 + 32 := by
        simp only [checkedSub] at h₂
        split at h₂ <;> simp at h₂
        omega
      simp [hb]

/-- A shape sees only the last `41 + g` bytes: the gas tag `8 + g` before the end and the
uniqueness tag at their start. -/
theorem parseNonceAt_suffix {pre suf : List UInt8} {g : Nat} (tag : UInt8)
    (hg : (if g = 1 then gasNoneTag else gasSomeTag) = tag) (hpre : innerPubkeyEnd ≤ pre.length)
    (hsuf : suf.length = 41 + g) :
    parseNonceAt (pre ++ suf) g =
      if suf[33]? = some tag ∧ suf[0]? = some uniqTagNonce
      then some (u64OfLe ((suf.drop 1).take 8)) else none := by
  have hlen : (pre ++ suf).length = pre.length + suf.length := List.length_append
  have hgas := getElem?_suffix pre suf (k := 8 + g) (by omega)
  have htag := getElem?_suffix pre suf (k := 41 + g) (by omega)
  have hnonce := take_drop_suffix pre suf (k := 40 + g) (n := 8) (by omega)
  rw [hsuf, show 41 + g - (8 + g) = 33 by omega] at hgas
  rw [hsuf, show 41 + g - (41 + g) = 0 by omega] at htag
  rw [hsuf, show 41 + g - (40 + g) = 1 by omega] at hnonce
  have hoff : (pre ++ suf).length - (41 + g) + 1 = (pre ++ suf).length - (40 + g) := by omega
  unfold parseNonceAt
  simp only [chainIdLen, priorityFeeLen, maxFeeLen, uniqTotal, uniqNonceLen]
  rw [show 8 + 16 + g + 8 + (1 + 8) = 41 + g by omega, checkedSub_of_le (by omega),
    checkedSub_of_le (by omega)]
  simp only [Option.bind_eq_bind, Option.bind_some, hgas, htag, hoff, hnonce, hg]
  rw [if_neg (by omega)]
  by_cases h₁ : suf[33]? = some tag <;> by_cases h₂ : suf[0]? = some uniqTagNonce <;> simp [h₁, h₂]

theorem parseNonce_suffix {pre suf : List UInt8} {c : UInt64} (hsuf : 8 ≤ suf.length)
    (hchain : suf.drop (suf.length - 8) = leBytes 8 c.toNat) :
    parseNonce (pre ++ suf) c =
      ((parseNonceAt (pre ++ suf) 1).or (parseNonceAt (pre ++ suf) 17)).join := by
  have hlen : (pre ++ suf).length = pre.length + suf.length := List.length_append
  have hdrop := take_drop_suffix pre suf (n := (pre ++ suf).length) hsuf
  rw [List.take_of_length_le (by simp), List.take_of_length_le (by simp; omega), hchain] at hdrop
  have hlong : ¬ (pre ++ suf).length < chainIdLen := by
    unfold chainIdLen
    omega
  unfold parseNonce
  rw [if_neg hlong, show chainIdLen = 8 from rfl, show 1 + gasSomeWidth = 17 from rfl, hdrop,
    u64OfLe_leBytes]
  simp only [UInt64.ofNat_toNat, Option.bind_eq_bind, Option.bind_some, ne_eq, not_true_eq_false,
    if_false, List.findSome?_cons, List.findSome?_nil]
  cases parseNonceAt (pre ++ suf) 1 <;> cases parseNonceAt (pre ++ suf) 17 <;> rfl

/-! ## An encoded transaction -/

theorem Uniqueness.length_encode (u : Uniqueness) : u.encode.length = 9 := by
  cases u <;> simp [encode, uniqNonceLen]

theorem TxV0.length_encodeFront (tx : TxV0) : tx.encodeFront.length = innerPubkeyEnd := by
  simp [encodeFront, tx.signature_length, tx.pubKey_length, innerPubkeyEnd, innerPubkeyStart]
  omega

/-- The value a `u64` reader finds is the nonce's, and only a nonce passes the tag check. -/
def NonceSound (u : Uniqueness) (reported : Option UInt64) : Prop :=
  reported = none ∨ ∃ n, u = .nonce n ∧ reported = some n

/-- The bodies on which the wrong layout passes for the right one. With a gas limit, the layout
without one is tried first and finds zero tags in the top bytes of the second gas component and of
the priority fee: it reports the low half of the fee limit. Without a gas limit and without a nonce,
the second layout finds its tags in the low byte of the fee limit and in the runtime call. -/
def Misread (tx : TxV0) : Prop :=
  match tx.gasLimit with
  | some (_, g₁) => g₁.toNat < 2 ^ 56 ∧ tx.maxPriorityFeeBips.toNat < 2 ^ 56 ∧
      tx.uniqueness ≠ .nonce (UInt64.ofNat tx.maxFee.toNat)
  | none => (∀ n, tx.uniqueness ≠ .nonce n) ∧ 16 ≤ tx.runtimeCall.length ∧
      tx.maxFee.toNat % 256 = 1 ∧ tx.runtimeCall[tx.runtimeCall.length - 16]? = some uniqTagNonce

theorem ofNat_eq_zero_iff (n : Nat) : UInt8.ofNat n = 0 ↔ n % 256 = 0 := by
  rw [← UInt8.toNat_inj]
  simp

theorem topByte_eq_zero_iff {x : UInt64} :
    UInt8.ofNat (x.toNat / 256 / 256 / 256 / 256 / 256 / 256 / 256) = 0 ↔ x.toNat < 2 ^ 56 := by
  have := x.toNat_lt
  rw [ofNat_eq_zero_iff]
  omega

theorem TxV0.encode_split (tx : TxV0) :
    tx.encode = (tx.encodeFront ++ tx.runtimeCall) ++ tx.encodeTail := by
  rw [encode, List.append_assoc]

theorem TxV0.front_le (tx : TxV0) (l : List UInt8) :
    innerPubkeyEnd ≤ (tx.encodeFront ++ l).length := by
  rw [List.length_append, tx.length_encodeFront]
  omega

/-- The layout the transaction was written with reads the uniqueness field itself. -/
theorem parseNonceAt_own {tx : TxV0} {g : Nat} (tag : UInt8)
    (hg : (if g = 1 then gasNoneTag else gasSomeTag) = tag) (hlen : tx.encodeTail.length = 41 + g)
    (htag : tx.encodeTail[33]? = some tag) :
    parseNonceAt tx.encode g =
      match tx.uniqueness with
      | .nonce n => some (some n)
      | .other _ _ _ => none := by
  rw [tx.encode_split, parseNonceAt_suffix tag hg (tx.front_le _) hlen]
  cases hu : tx.uniqueness with
  | nonce n =>
    have hhead : tx.encodeTail[0]? = some uniqTagNonce := by
      rw [TxV0.encodeTail, hu]
      rfl
    have hval : (tx.encodeTail.drop 1).take 8 = leBytes 8 n.toNat := by
      rw [TxV0.encodeTail, hu]
      rfl
    rw [if_pos ⟨htag, hhead⟩, hval, u64OfLe_leBytes, UInt64.ofNat_toNat]
  | other tag payload tag_ne =>
    refine if_neg fun h => tag_ne ?_
    have hhead : tx.encodeTail[0]? = some tag := by
      rw [TxV0.encodeTail, hu]
      rfl
    exact Option.some.inj (hhead.symm.trans h.2)

section GasNone

variable {tx : TxV0} (hgas : tx.gasLimit = none)
include hgas

theorem length_encodeTail_none : tx.encodeTail.length = 42 := by
  simp [TxV0.encodeTail, Uniqueness.length_encode, hgas, encodeGasLimit, priorityFeeLen, maxFeeLen,
    chainIdLen]

theorem chain_of_encodeTail_none :
    tx.encodeTail.drop (tx.encodeTail.length - 8) = leBytes 8 tx.chainId.toNat := by
  rw [length_encodeTail_none hgas, TxV0.encodeTail, hgas]
  cases tx.uniqueness <;> rfl

theorem parseNonceAt_one_none :
    parseNonceAt tx.encode 1 =
      match tx.uniqueness with
      | .nonce n => some (some n)
      | .other _ _ _ => none := by
  apply parseNonceAt_own gasNoneTag rfl (length_encodeTail_none hgas)
  rw [TxV0.encodeTail, hgas]
  cases tx.uniqueness <;> rfl

/-- The layout with a gas limit reads sixteen bytes too early: its gas tag is the low byte of the
fee limit, its uniqueness tag a byte of the runtime call. -/
theorem parseNonceAt_seventeen_none :
    (∃ x, parseNonceAt tx.encode 17 = some (some x)) ∧ 16 ≤ tx.runtimeCall.length ∧
        tx.maxFee.toNat % 256 = 1 ∧
        tx.runtimeCall[tx.runtimeCall.length - 16]? = some uniqTagNonce ∨
      parseNonceAt tx.encode 17 = none ∧ ¬ (16 ≤ tx.runtimeCall.length ∧
        tx.maxFee.toNat % 256 = 1 ∧
        tx.runtimeCall[tx.runtimeCall.length - 16]? = some uniqTagNonce) := by
  have htail := length_encodeTail_none hgas
  by_cases hcall : 16 ≤ tx.runtimeCall.length
  · -- cut the runtime call sixteen bytes before its end
    obtain ⟨c₁, c₂, hc, hc₂⟩ : ∃ c₁ c₂, tx.runtimeCall = c₁ ++ c₂ ∧ c₂.length = 16 :=
      ⟨_, _, (List.take_append_drop (tx.runtimeCall.length - 16) _).symm, by simp; omega⟩
    have hsplit : tx.encode = (tx.encodeFront ++ c₁) ++ (c₂ ++ tx.encodeTail) := by
      rw [TxV0.encode, hc]
      simp
    have hcut : tx.runtimeCall[tx.runtimeCall.length - 16]? = c₂[0]? := by
      rw [hc, getElem?_suffix c₁ c₂ (by omega), hc₂]
    have hsuf : (c₂ ++ tx.encodeTail).length = 41 + 17 := by
      rw [List.length_append, hc₂, htail]
    have hgasTag : (c₂ ++ tx.encodeTail)[33]? = some (UInt8.ofNat tx.maxFee.toNat) := by
      rw [List.getElem?_append_right (by omega), hc₂, TxV0.encodeTail]
      cases tx.uniqueness <;> rfl
    have huniqTag : (c₂ ++ tx.encodeTail)[0]? = c₂[0]? :=
      List.getElem?_append_left (by omega)
    have hone : UInt8.ofNat tx.maxFee.toNat = gasSomeTag ↔ tx.maxFee.toNat % 256 = 1 := by
      rw [← UInt8.toNat_inj]
      simp [gasSomeTag]
    rw [hsplit, parseNonceAt_suffix gasSomeTag rfl (tx.front_le _) hsuf, hgasTag, huniqTag,
      hcut]
    simp only [Option.some.injEq, hone]
    by_cases h : tx.maxFee.toNat % 256 = 1 ∧ c₂[0]? = some uniqTagNonce
    · have height : (((c₂ ++ tx.encodeTail).drop 1).take 8).length = 8 := by
        simp [hc₂, htail]
      obtain ⟨x, hx⟩ := u64OfLe_eq_some height
      exact .inl ⟨⟨x, by rw [if_pos h, hx]⟩, hcall, h⟩
    · exact .inr ⟨if_neg h, fun hb => h hb.2⟩
  · refine .inr ⟨parseNonceAt_short ?_, fun h => hcall h.1⟩
    rw [tx.encode_split, List.length_append, List.length_append, tx.length_encodeFront, htail]
    simp only [innerPubkeyEnd, innerPubkeyStart, sigLen, pubkeyLen]
    omega

theorem sound_iff_of_gasNone :
    NonceSound tx.uniqueness (parseNonce tx.encode tx.chainId) ↔ ¬ Misread tx := by
  rw [tx.encode_split, parseNonce_suffix (by rw [length_encodeTail_none hgas]; omega)
    (chain_of_encodeTail_none hgas), ← tx.encode_split, parseNonceAt_one_none hgas]
  simp only [NonceSound, Misread, hgas]
  cases hu : tx.uniqueness with
  | nonce n => simp
  | other tag payload tag_ne =>
    rcases parseNonceAt_seventeen_none hgas with ⟨⟨x, hx⟩, hm⟩ | ⟨hx, hm⟩
    · simp [hx, hm]
    · simp only [hx]
      simpa using hm

end GasNone

section GasSome

variable {tx : TxV0} {g₀ g₁ : UInt64} (hgas : tx.gasLimit = some (g₀, g₁))
include hgas

theorem length_encodeTail_some : tx.encodeTail.length = 58 := by
  simp [TxV0.encodeTail, Uniqueness.length_encode, hgas, encodeGasLimit, priorityFeeLen, maxFeeLen,
    chainIdLen]

theorem chain_of_encodeTail_some :
    tx.encodeTail.drop (tx.encodeTail.length - 8) = leBytes 8 tx.chainId.toNat := by
  rw [length_encodeTail_some hgas, TxV0.encodeTail, hgas]
  cases tx.uniqueness <;> rfl

/-- The layout without a gas limit starts sixteen bytes late: its tags are top bytes of the gas
limit and of the priority fee, its nonce the low half of the fee limit. -/
theorem parseNonceAt_one_some :
    parseNonceAt tx.encode 1 =
      if g₁.toNat < 2 ^ 56 ∧ tx.maxPriorityFeeBips.toNat < 2 ^ 56
      then some (some (UInt64.ofNat tx.maxFee.toNat)) else none := by
  have htail := length_encodeTail_some hgas
  have hsplit : tx.encode =
      (tx.encodeFront ++ (tx.runtimeCall ++ tx.encodeTail.take 16)) ++ tx.encodeTail.drop 16 := by
    rw [TxV0.encode, List.append_assoc, List.append_assoc, List.take_append_drop]
  have hgasTag : (tx.encodeTail.drop 16)[33]? =
      some (UInt8.ofNat (g₁.toNat / 256 / 256 / 256 / 256 / 256 / 256 / 256)) := by
    rw [TxV0.encodeTail, hgas]
    cases tx.uniqueness <;> rfl
  have huniqTag : (tx.encodeTail.drop 16)[0]? = some (UInt8.ofNat
      (tx.maxPriorityFeeBips.toNat / 256 / 256 / 256 / 256 / 256 / 256 / 256)) := by
    rw [TxV0.encodeTail, hgas]
    cases tx.uniqueness <;> rfl
  have hval : ((tx.encodeTail.drop 16).drop 1).take 8 = leBytes 8 tx.maxFee.toNat := by
    rw [TxV0.encodeTail, hgas]
    cases tx.uniqueness <;> rfl
  rw [hsplit, parseNonceAt_suffix gasNoneTag rfl (tx.front_le _)
    (by rw [List.length_drop, htail]), hgasTag, huniqTag, hval, u64OfLe_leBytes]
  simp only [Option.some.injEq, gasNoneTag, uniqTagNonce, topByte_eq_zero_iff]

theorem parseNonceAt_seventeen_some :
    parseNonceAt tx.encode 17 =
      match tx.uniqueness with
      | .nonce n => some (some n)
      | .other _ _ _ => none := by
  apply parseNonceAt_own gasSomeTag rfl (length_encodeTail_some hgas)
  rw [TxV0.encodeTail, hgas]
  cases tx.uniqueness <;> rfl

theorem sound_iff_of_gasSome :
    NonceSound tx.uniqueness (parseNonce tx.encode tx.chainId) ↔ ¬ Misread tx := by
  rw [tx.encode_split, parseNonce_suffix (by rw [length_encodeTail_some hgas]; omega)
    (chain_of_encodeTail_some hgas), ← tx.encode_split, parseNonceAt_one_some hgas,
    parseNonceAt_seventeen_some hgas]
  simp only [NonceSound, Misread, hgas]
  by_cases htop : g₁.toNat < 2 ^ 56 ∧ tx.maxPriorityFeeBips.toNat < 2 ^ 56
  · rw [if_pos htop]
    simp only [htop.1, htop.2, true_and, not_not, Option.some_or, Option.join_some, reduceCtorEq,
      false_or, Option.some.injEq]
    constructor
    · rintro ⟨n, hn, rfl⟩
      exact hn
    · intro hn
      exact ⟨_, hn, rfl⟩
  · rw [if_neg htop]
    have hnot : ¬ (g₁.toNat < 2 ^ 56 ∧ tx.maxPriorityFeeBips.toNat < 2 ^ 56 ∧
        tx.uniqueness ≠ .nonce (UInt64.ofNat tx.maxFee.toNat)) := fun h => htop ⟨h.1, h.2.1⟩
    simp only [hnot, not_false_eq_true, iff_true, Option.none_or]
    cases tx.uniqueness <;> simp

end GasSome

theorem parseNonce_sound_iff (tx : TxV0) :
    NonceSound tx.uniqueness (parseNonce tx.encode tx.chainId) ↔ ¬ Misread tx := by
  cases hgas : tx.gasLimit with
  | none => exact sound_iff_of_gasNone hgas
  | some g => exact sound_iff_of_gasSome hgas

/-! ## The whole decoder -/

theorem stripAuthenticatorWrapper_wrap {inner : List UInt8} (hlen : inner.length < 2 ^ 32)
    (htag : inner.head? = some v0Tag) : stripAuthenticatorWrapper (wrap inner) = inner := by
  have hpos : 0 < inner.length := by
    cases inner with
    | nil => cases htag
    | cons b bs => simp
  have hwrap : (wrap inner).length = 5 + inner.length := by
    simp [wrap]
    omega
  have hfield : ((wrap inner).drop 1).take 4 = leBytes 4 inner.length := by
    simp [wrap]
  have hdrop : (wrap inner).drop wrapperLen = inner := rfl
  have hfifth : (wrap inner)[wrapperLen]? = some v0Tag := by
    have : (wrap inner)[wrapperLen]? = inner[0]? := rfl
    rw [this, ← List.head?_eq_getElem?, htag]
  unfold stripAuthenticatorWrapper
  rw [if_pos, hdrop]
  refine ⟨by rw [hwrap, wrapperLen]; omega, rfl, ?_, hfifth⟩
  have hlen' : inner.length < 256 ^ 4 := by omega
  rw [hfield, leValue_leBytes, hwrap, wrapperLen, Nat.mod_eq_of_lt hlen']
  omega

/-- A body that leads to the encoded transaction gives its signer. -/
theorem decodeTxBody_of_strip {codec : Codec} {body : String} {tx : TxV0} {raw : List UInt8}
    {sender senderPubkey : String} (hne : trim body ≠ "")
    (hraw : codec.base64Decode (trim body) = some raw)
    (hstrip : stripAuthenticatorWrapper raw = tx.encode)
    (hsender : codec.bech32mEncode hrpAddress (tx.pubKey.take addressLen) = some sender)
    (hpubkey : codec.bech32mEncode hrpPubkey tx.pubKey = some senderPubkey) (c : UInt64) :
    decodeTxBody codec body c = some ⟨sender, senderPubkey, parseNonce tx.encode c⟩ := by
  have hhead : tx.encode.head? = some v0Tag := rfl
  have hlong : ¬ tx.encode.length < innerPubkeyEnd := by
    have := tx.front_le (tx.runtimeCall ++ tx.encodeTail)
    rw [← TxV0.encode] at this
    omega
  have hkey : (tx.encode.drop innerPubkeyStart).take pubkeyLen = tx.pubKey := by
    have hfront : tx.encode =
        (v0Tag :: tx.signature) ++ (tx.pubKey ++ (tx.runtimeCall ++ tx.encodeTail)) := by
      simp [TxV0.encode, TxV0.encodeFront]
    have hsig : (v0Tag :: tx.signature).length = innerPubkeyStart := by
      rw [List.length_cons, tx.signature_length, innerPubkeyStart, Nat.add_comm]
    rw [hfront, ← hsig, List.drop_left, ← tx.pubKey_length, List.take_left]
  unfold decodeTxBody
  simp only [String.isEmpty_iff, hne, if_false, hraw, Option.bind_eq_bind, Option.bind_some,
    hstrip, hhead, hlong, ne_eq, not_true_eq_false, or_self, hkey, hsender, hpubkey]

section Body

variable {codec : Codec} {body : String} {tx : TxV0} (hlen : tx.encode.length < 2 ^ 32)
  (hbody : codec.base64Decode (trim body) = some (wrap tx.encode)) (hne : trim body ≠ "")

include hlen hbody hne in
theorem decodeTxBody_eq {sender senderPubkey : String}
    (hsender : codec.bech32mEncode hrpAddress (tx.pubKey.take addressLen) = some sender)
    (hpubkey : codec.bech32mEncode hrpPubkey tx.pubKey = some senderPubkey) (c : UInt64) :
    decodeTxBody codec body c = some ⟨sender, senderPubkey, parseNonce tx.encode c⟩ :=
  decodeTxBody_of_strip hne hbody (stripAuthenticatorWrapper_wrap hlen rfl) hsender hpubkey c

include hlen hbody hne in
/-- **The reported nonce.** Decoding the wrapped body of a transaction for its own chain yields a
result whose nonce is absent or the encoded one exactly when the body is not one of the
`Misread`. -/
theorem decodeTxBody_nonce_sound_iff
    (hsender : (codec.bech32mEncode hrpAddress (tx.pubKey.take addressLen)).isSome)
    (hpubkey : (codec.bech32mEncode hrpPubkey tx.pubKey).isSome) :
    (∃ d, decodeTxBody codec body tx.chainId = some d ∧ NonceSound tx.uniqueness d.nonce) ↔
      ¬ Misread tx := by
  obtain ⟨sender, hsender⟩ := Option.isSome_iff_exists.1 hsender
  obtain ⟨senderPubkey, hpubkey⟩ := Option.isSome_iff_exists.1 hpubkey
  rw [decodeTxBody_eq hlen hbody hne hsender hpubkey, ← parseNonce_sound_iff]
  simp

end Body

/-! ## Two bodies -/

/-- A transfer with nonce 7 and a fee limit of 0.1 AVOW. -/
def sampleTx (gasLimit : Option (UInt64 × UInt64)) : TxV0 where
  signature := List.replicate 64 7
  pubKey := List.replicate 32 1
  runtimeCall := []
  uniqueness := .nonce 7
  maxPriorityFeeBips := 0
  maxFee := 100000000
  gasLimit := gasLimit
  chainId := 1
  signature_length := rfl
  pubKey_length := rfl

/-- The Base64 text of the signature and the key of `sampleTx`. -/
def signedText : List Char :=
  (List.replicate 21 ['B', 'w', 'c', 'H']).flatten ++
    (['B', 'w', 'E', 'B'] ++ (List.replicate 10 ['A', 'Q', 'E', 'B']).flatten)

/-- The body of `sampleTx none`. -/
def plainText : List Char :=
  "AIsAAAAA".toList ++ (signedText ++
    "AAcAAAAAAAAAAAAAAAAAAAAA4fUFAAAAAAAAAAAAAAAAAAEAAAAAAAAA".toList)

/-- The body of `sampleTx (some (500000, 500000))`. -/
def gasText : List Char :=
  "AJsAAAAA".toList ++ (signedText ++
    "AAcAAAAAAAAAAAAAAAAAAAAA4fUFAAAAAAAAAAAAAAAAASChBwAAAAAAIKEHAAAAAAABAAAAAAAAAA==".toList)

/-- Base64 and Bech32m on the values of one body. -/
def sampleCodec (body : String) (tx : TxV0) : Codec where
  base64Decode s := if s = body then some (wrap tx.encode) else none
  bech32mEncode hrp bytes :=
    if hrp = hrpAddress ∧ bytes = List.replicate 28 1 then
      some "lig1qyqszqgpqyqszqgpqyqszqgpqyqszqgpqyqszqgpqyqszqdqcxa"
    else if hrp = hrpPubkey ∧ bytes = List.replicate 32 1 then
      some "lpk1qyqszqgpqyqszqgpqyqszqgpqyqszqgpqyqszqgpqyqszqgpqyqsqlytct"
    else none
  bech32Decode _ := none
  sha256 _ := []

theorem trim_ofList {cs : List Char}
    (h : (cs.dropWhile isWhitespace).rdropWhile isWhitespace = cs) :
    trim (String.ofList cs) = String.ofList cs := by
  rw [trim, String.toList_ofList, h]

theorem plainBody_nonce_sound :
    ∃ d, decodeTxBody (sampleCodec (String.ofList plainText) (sampleTx none))
        (String.ofList plainText) (sampleTx none).chainId = some d ∧
      NonceSound (sampleTx none).uniqueness d.nonce := by
  have htrim : trim (String.ofList plainText) = String.ofList plainText :=
    trim_ofList (by decide +kernel)
  have hlen : (sampleTx none).encode.length < 2 ^ 32 := by decide +kernel
  refine (decodeTxBody_nonce_sound_iff hlen ?_ ?_ rfl rfl).2 ?_
  · simp only [htrim, sampleCodec, if_true]
  · rw [htrim, ne_eq, String.ofList_eq_empty_iff]
    exact List.cons_ne_nil _ _
  · rintro ⟨hnot, -⟩
    exact hnot 7 rfl

/-- With a gas limit the same transaction reports its fee limit as its nonce. -/
theorem gasBody_reports_fee_as_nonce :
    ∃ d, decodeTxBody (sampleCodec (String.ofList gasText) (sampleTx (some (500000, 500000))))
        (String.ofList gasText) (sampleTx (some (500000, 500000))).chainId = some d ∧
      d.nonce = some 100000000 ∧
      (sampleTx (some (500000, 500000))).uniqueness = .nonce 7 ∧
      ¬ NonceSound (sampleTx (some (500000, 500000))).uniqueness d.nonce := by
  have htrim : trim (String.ofList gasText) = String.ofList gasText :=
    trim_ofList (by decide +kernel)
  have hlen : (sampleTx (some (500000, 500000))).encode.length < 2 ^ 32 := by decide +kernel
  have hnonce : parseNonce (sampleTx (some (500000, 500000))).encode
      (sampleTx (some (500000, 500000))).chainId = some 100000000 := by
    decide +kernel
  refine ⟨_, decodeTxBody_eq hlen ?_ ?_ rfl rfl _, ?_⟩
  · simp only [htrim, sampleCodec, if_true]
  · rw [htrim, ne_eq, String.ofList_eq_empty_iff]
    exact List.cons_ne_nil _ _
  · rw [hnonce]
    refine ⟨rfl, rfl, ?_⟩
    rintro (h | ⟨n, hn, h⟩)
    · cases h
    · cases hn
      exact absurd h (by decide)

end LigateApi.Indexer
