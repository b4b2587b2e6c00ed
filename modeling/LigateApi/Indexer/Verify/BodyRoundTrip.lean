import LigateApi.Indexer.Verify.BodyNonce

/-!
# Decoding undoes encoding

The layout every client sends has a nonce and no gas limit. Its body, wrapped or bare, in Base64
and with any whitespace around it, decodes to the signer and the nonce it was made from
(`decodeTxBody_encode`). A bare body is ambiguous when its signature starts like a wrapper: its
first four bytes spell the length of what follows the fifth, and that fifth byte is the tag of a
transaction (`LooksWrapped`).
-/

namespace LigateApi.Indexer

open Lib.Bytes

/-! ## Surrounding whitespace -/

theorem base64Encode_not_whitespace {bytes : List UInt8} :
    ∀ c ∈ (base64Encode bytes).toList, ¬ isWhitespace c = true := by
  have htable : ('=' :: base64Alphabet).all (fun c => !isWhitespace c) = true := by decide +kernel
  intro c hc
  rw [base64Encode, String.toList_ofList] at hc
  have hchar := List.all_eq_true.1 htable c (mem_base64Chars c hc)
  simpa using hchar

/-- Whitespace around a text that has none is cut off. -/
theorem trim_padded {pre post text : String} (hpre : ∀ c ∈ pre.toList, isWhitespace c = true)
    (hpost : ∀ c ∈ post.toList, isWhitespace c = true)
    (htext : ∀ c ∈ text.toList, ¬ isWhitespace c = true) (hne : text.toList ≠ []) :
    trim (pre ++ (text ++ post)) = text := by
  have hfront : (pre.toList ++ (text.toList ++ post.toList)).dropWhile isWhitespace =
      text.toList ++ post.toList := by
    rw [List.dropWhile_append_of_pos hpre]
    cases hcs : text.toList with
    | nil => exact absurd hcs hne
    | cons c cs =>
      refine List.dropWhile_cons_of_neg (htext c ?_)
      rw [hcs]
      exact List.mem_cons_self
  have hback : (text.toList ++ post.toList).rdropWhile isWhitespace = text.toList := by
    rw [List.rdropWhile, List.reverse_append, List.dropWhile_append_of_pos]
    · rw [← List.rdropWhile, List.rdropWhile_eq_self_iff]
      intro hl
      exact htext _ (List.getLast_mem hl)
    · intro c hc
      exact hpost c (List.mem_reverse.1 hc)
  rw [trim, String.toList_append, String.toList_append, hfront, hback, String.ofList_toList]

/-! ## The bare body -/

/-- The signature of a bare transaction starts like an authenticator wrapper. -/
def LooksWrapped (tx : TxV0) : Prop :=
  leValue (tx.signature.take 4) = tx.encode.length - 5 ∧ tx.signature[4]? = some 0

instance (tx : TxV0) : Decidable (LooksWrapped tx) :=
  inferInstanceAs (Decidable (_ ∧ _))

theorem stripAuthenticatorWrapper_encode {tx : TxV0} (h : ¬ LooksWrapped tx) :
    stripAuthenticatorWrapper tx.encode = tx.encode := by
  have hsplit : tx.encode =
      v0Tag :: (tx.signature ++ (tx.pubKey ++ (tx.runtimeCall ++ tx.encodeTail))) := by
    simp [TxV0.encode, TxV0.encodeFront]
  have hsig : tx.signature.length = 64 := tx.signature_length
  have hlength : (tx.encode.drop 1).take 4 = tx.signature.take 4 := by
    rw [hsplit, List.drop_succ_cons, List.drop_zero, List.take_append_of_le_length (by omega)]
  have htag : tx.encode[wrapperLen]? = tx.signature[4]? := by
    rw [hsplit, wrapperLen, List.getElem?_cons_succ, List.getElem?_append_left (by omega)]
  unfold stripAuthenticatorWrapper
  rw [if_neg]
  rintro ⟨-, -, hlen, hfifth⟩
  rw [hlength] at hlen
  rw [htag] at hfifth
  exact h ⟨hlen, hfifth⟩

/-! ## The round trip -/

theorem parseNonce_encode {tx : TxV0} {n : UInt64} (hgas : tx.gasLimit = none)
    (hnonce : tx.uniqueness = .nonce n) : parseNonce tx.encode tx.chainId = some n := by
  have htail : 8 ≤ tx.encodeTail.length := by
    rw [length_encodeTail_none hgas]
    omega
  rw [tx.encode_split, parseNonce_suffix htail (chain_of_encodeTail_none hgas), ← tx.encode_split,
    parseNonceAt_one_none hgas, hnonce]
  rfl

section RoundTrip

variable {codec : Codec} {tx : TxV0} {sender senderPubkey : String} {n : UInt64}
  (hgas : tx.gasLimit = none) (hnonce : tx.uniqueness = .nonce n)
  (hsender : codec.bech32mEncode hrpAddress (tx.pubKey.take addressLen) = some sender)
  (hpubkey : codec.bech32mEncode hrpPubkey tx.pubKey = some senderPubkey)
  {pre post : String} (hpre : ∀ c ∈ pre.toList, isWhitespace c = true)
  (hpost : ∀ c ∈ post.toList, isWhitespace c = true)

include hgas hnonce hsender hpubkey hpre hpost in
/-- Either framing, once it is known to be read as such. -/
theorem decodeTxBody_framed {raw : List UInt8} (hraw : raw ≠ [])
    (hbase64 : codec.base64Decode (base64Encode raw) = some raw)
    (hstrip : stripAuthenticatorWrapper raw = tx.encode) :
    decodeTxBody codec (pre ++ (base64Encode raw ++ post)) tx.chainId =
      some ⟨sender, senderPubkey, some n⟩ := by
  have hne : (base64Encode raw).toList ≠ [] := by
    rw [base64Encode, String.toList_ofList]
    exact base64Chars_ne_nil hraw
  have htrim : trim (pre ++ (base64Encode raw ++ post)) = base64Encode raw :=
    trim_padded hpre hpost base64Encode_not_whitespace hne
  have hempty : trim (pre ++ (base64Encode raw ++ post)) ≠ "" := by
    rw [htrim]
    intro h
    exact hne (by rw [h]; rfl)
  rw [← htrim] at hbase64
  rw [decodeTxBody_of_strip hempty hbase64 hstrip hsender hpubkey, parseNonce_encode hgas hnonce]

include hgas hnonce hsender hpubkey hpre hpost in
/-- **Round trip.** -/
theorem decodeTxBody_encode (hlen : tx.encode.length < 2 ^ 32)
    (hbase64 : ∀ raw ∈ [tx.encode, wrap tx.encode],
      codec.base64Decode (base64Encode raw) = some raw) :
    decodeTxBody codec (pre ++ (base64Encode (wrap tx.encode) ++ post)) tx.chainId =
        some ⟨sender, senderPubkey, some n⟩ ∧
      (¬ LooksWrapped tx →
        decodeTxBody codec (pre ++ (base64Encode tx.encode ++ post)) tx.chainId =
          some ⟨sender, senderPubkey, some n⟩) := by
  constructor
  · refine decodeTxBody_framed hgas hnonce hsender hpubkey hpre hpost (List.cons_ne_nil _ _) ?_ ?_
    · exact hbase64 _ (List.mem_cons_of_mem _ List.mem_cons_self)
    · exact stripAuthenticatorWrapper_wrap hlen rfl
  · intro hbare
    refine decodeTxBody_framed hgas hnonce hsender hpubkey hpre hpost (List.cons_ne_nil _ _) ?_ ?_
    · exact hbase64 _ List.mem_cons_self
    · exact stripAuthenticatorWrapper_encode hbare

end RoundTrip

/-- Base64 on the two framings of `sampleTx none`, and Bech32m on its key. -/
def framedCodec : Codec :=
  { sampleCodec "" (sampleTx none) with
    base64Decode := fun s =>
      if s = base64Encode (sampleTx none).encode then some (sampleTx none).encode
      else if s = base64Encode (wrap (sampleTx none).encode) then
        some (wrap (sampleTx none).encode)
      else none }

theorem sampleTx_round_trip :
    decodeTxBody framedCodec ("\n " ++ (base64Encode (wrap (sampleTx none).encode) ++ "\n")) 1 =
        some ⟨"lig1qyqszqgpqyqszqgpqyqszqgpqyqszqgpqyqszqgpqyqszqdqcxa",
          "lpk1qyqszqgpqyqszqgpqyqszqgpqyqszqgpqyqszqgpqyqszqgpqyqsqlytct", some 7⟩ ∧
      decodeTxBody framedCodec ("\n " ++ (base64Encode (sampleTx none).encode ++ "\n")) 1 =
        some ⟨"lig1qyqszqgpqyqszqgpqyqszqgpqyqszqgpqyqszqgpqyqszqdqcxa",
          "lpk1qyqszqgpqyqszqgpqyqszqgpqyqszqgpqyqszqgpqyqszqgpqyqsqlytct", some 7⟩ := by
  have hlen : (sampleTx none).encode.length < 2 ^ 32 := by decide +kernel
  have hne : base64Encode (wrap (sampleTx none).encode) ≠ base64Encode (sampleTx none).encode := by
    intro h
    have hchars := congrArg String.toList h
    rw [base64Encode, base64Encode, String.toList_ofList, String.toList_ofList] at hchars
    exact absurd (congrArg List.length hchars) (by decide +kernel)
  have hbase64 : ∀ raw ∈ [(sampleTx none).encode, wrap (sampleTx none).encode],
      framedCodec.base64Decode (base64Encode raw) = some raw := by
    intro raw hraw
    rcases List.mem_cons.1 hraw with rfl | hraw
    · simp only [framedCodec, if_true]
    · rw [List.mem_singleton.1 hraw]
      simp only [framedCodec, hne, if_false, if_true]
  have hspace : ∀ c ∈ "\n ".toList, isWhitespace c = true := List.all_eq_true.1 (by decide)
  have hnewline : ∀ c ∈ "\n".toList, isWhitespace c = true := List.all_eq_true.1 (by decide)
  have hbare : ¬ LooksWrapped (sampleTx none) := by decide +kernel
  obtain ⟨hwrapped, hplain⟩ :=
    decodeTxBody_encode rfl rfl rfl rfl hspace hnewline hlen hbase64
  exact ⟨hwrapped, hplain hbare⟩

end LigateApi.Indexer
