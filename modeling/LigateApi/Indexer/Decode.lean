import LigateApi.Lib.Bytes

/-!
# Transaction bodies

`decodeTxBody` reads the signer and the nonce out of a base64 transaction body without the chain's
own types: the key sits at a fixed offset, the nonce is found by counting back from the end for
each of two shapes of the gas limit. The wire layout itself is `TxV0.encode`, with the authenticator
wrapper `wrap` around it. Base64, Bech32 and SHA-256 are the parameter `Codec`.
-/

namespace LigateApi.Indexer

open Lib.Bytes

structure Codec where
  base64Decode : String → Option (List UInt8)
  bech32mEncode : String → List UInt8 → Option String
  bech32Decode : String → Option (String × List UInt8)
  sha256 : List UInt8 → List UInt8

/-! ## Layout constants -/

def hrpAddress : String := "lig"
def hrpPubkey : String := "lpk"
def v0Tag : UInt8 := 0x00
def sigLen : Nat := 64
def pubkeyLen : Nat := 32
def addressLen : Nat := 28
def innerPubkeyStart : Nat := 1 + sigLen
def innerPubkeyEnd : Nat := innerPubkeyStart + pubkeyLen
def wrapperLen : Nat := 5
def chainIdLen : Nat := 8
def maxFeeLen : Nat := 16
def priorityFeeLen : Nat := 8
def uniqNonceLen : Nat := 8
def uniqTagNonce : UInt8 := 0x00
def gasNoneTag : UInt8 := 0x00
def gasSomeTag : UInt8 := 0x01
def gasSomeWidth : Nat := 16
def uniqTotal : Nat := 1 + uniqNonceLen

structure DecodedTxBody where
  sender : String
  senderPubkey : String
  nonce : Option UInt64
  deriving DecidableEq, Repr

/-! ## The decoder -/

/-- `char::is_whitespace`: the Unicode `White_Space` property. -/
def isWhitespace (c : Char) : Bool :=
  let n := c.toNat
  (9 ≤ n && n ≤ 13) || n = 32 || n = 0x85 || n = 0xA0 || n = 0x1680 ||
    (0x2000 ≤ n && n ≤ 0x200A) || n = 0x2028 || n = 0x2029 || n = 0x202F || n = 0x205F ||
    n = 0x3000

/-- `str::trim` -/
def trim (s : String) : String :=
  String.ofList ((s.toList.dropWhile isWhitespace).rdropWhile isWhitespace)

/-- `strip_authenticator_wrapper` -/
def stripAuthenticatorWrapper (raw : List UInt8) : List UInt8 :=
  if wrapperLen < raw.length ∧ raw[0]? = some v0Tag ∧
      leValue ((raw.drop 1).take 4) = raw.length - wrapperLen ∧ raw[wrapperLen]? = some v0Tag then
    raw.drop wrapperLen
  else
    raw

/-- `usize::checked_sub` -/
def checkedSub (m n : Nat) : Option Nat := if n ≤ m then some (m - n) else none

/-- One turn of the loop in `parse_nonce`: `none` goes on to the next shape, `some r` returns
`r`. -/
def parseNonceAt (inner : List UInt8) (gasFieldLen : Nat) : Option (Option UInt64) := do
  let m := inner.length
  let expectGasTag := if gasFieldLen = 1 then gasNoneTag else gasSomeTag
  let detailsLen := priorityFeeLen + maxFeeLen + gasFieldLen + chainIdLen
  let gasTagOff ← checkedSub m (chainIdLen + gasFieldLen)
  let uniqTagOff ← checkedSub m (detailsLen + uniqTotal)
  if uniqTagOff < innerPubkeyEnd then none
  else if inner[gasTagOff]? ≠ some expectGasTag then none
  else if inner[uniqTagOff]? ≠ some uniqTagNonce then none
  else some (u64OfLe ((inner.drop (uniqTagOff + 1)).take uniqNonceLen))

/-- `parse_nonce` -/
def parseNonce (inner : List UInt8) (expectedChainId : UInt64) : Option UInt64 := do
  let m := inner.length
  if m < chainIdLen then none
  else
    let chainId ← u64OfLe (inner.drop (m - chainIdLen))
    if chainId ≠ expectedChainId then none
    else ([1, 1 + gasSomeWidth].findSome? (parseNonceAt inner)).join

/-- `decode_tx_body` -/
def decodeTxBody (codec : Codec) (bodyB64 : String) (expectedChainId : UInt64) :
    Option DecodedTxBody := do
  let bodyB64 := trim bodyB64
  if bodyB64.isEmpty then none
  else
    let raw ← codec.base64Decode bodyB64
    let inner := stripAuthenticatorWrapper raw
    if inner.head? ≠ some v0Tag ∨ inner.length < innerPubkeyEnd then none
    else
      let pubkey := (inner.drop innerPubkeyStart).take pubkeyLen
      let sender ← codec.bech32mEncode hrpAddress (pubkey.take addressLen)
      let senderPubkey ← codec.bech32mEncode hrpPubkey pubkey
      some { sender, senderPubkey, nonce := parseNonce inner expectedChainId }

/-! ## The wire format -/

/-- `UniquenessData`: the nonce variant has tag 0, any other variant another tag. -/
inductive Uniqueness
  | nonce (n : UInt64)
  | other (tag : UInt8) (payload : UInt64) (tag_ne : tag ≠ uniqTagNonce)
  deriving DecidableEq

/-- A signed `Transaction::V0`. -/
structure TxV0 where
  signature : List UInt8
  pubKey : List UInt8
  runtimeCall : List UInt8
  uniqueness : Uniqueness
  maxPriorityFeeBips : UInt64
  maxFee : BitVec 128
  gasLimit : Option (UInt64 × UInt64)
  chainId : UInt64
  signature_length : signature.length = sigLen
  pubKey_length : pubKey.length = pubkeyLen

def Uniqueness.encode : Uniqueness → List UInt8
  | .nonce n => uniqTagNonce :: leBytes uniqNonceLen n.toNat
  | .other tag payload _ => tag :: leBytes uniqNonceLen payload.toNat

def encodeGasLimit : Option (UInt64 × UInt64) → List UInt8
  | none => [gasNoneTag]
  | some (g₀, g₁) => gasSomeTag :: (leBytes 8 g₀.toNat ++ leBytes 8 g₁.toNat)

namespace TxV0

/-- Tag, signature and key: the part before the runtime call. -/
def encodeFront (tx : TxV0) : List UInt8 := v0Tag :: (tx.signature ++ tx.pubKey)

/-- Uniqueness and details: the part after the runtime call. -/
def encodeTail (tx : TxV0) : List UInt8 :=
  tx.uniqueness.encode ++ (leBytes priorityFeeLen tx.maxPriorityFeeBips.toNat ++
    (leBytes maxFeeLen tx.maxFee.toNat ++
      (encodeGasLimit tx.gasLimit ++ leBytes chainIdLen tx.chainId.toNat)))

def encode (tx : TxV0) : List UInt8 := tx.encodeFront ++ (tx.runtimeCall ++ tx.encodeTail)

end TxV0

/-- `AuthenticatorInput::Standard(RawTx(inner))` -/
def wrap (inner : List UInt8) : List UInt8 := v0Tag :: (leBytes 4 inner.length ++ inner)

end LigateApi.Indexer
