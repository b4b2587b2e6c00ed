import LigateApi.Lib.Run
import Mathlib.Data.List.DropRight
import Mathlib.Data.UInt

/-!
# The hot-key signer and its nonce counter

`Signer` holds the key, the chain identity and an in-memory nonce counter. `Signer::drip` parses
the recipient, reserves a nonce with an atomic `fetch_add`, builds and signs the transfer, submits
it and then polls for inclusion. The first part is `Signer.begin`; the rest happens in the open,
with other calls in between, so it is a step system: `step` moves one call of `drip` at a time, or
starts a new one, next to a chain that holds the account's next nonce.

The SDK (hex, keys, address parsing) is the parameter `Sdk`; signing and Borsh encoding show up
only through the event that the encoding failed.
-/

namespace LigateApi.Drip

inductive SignerError
  | invalidAddress (msg : String)
  | invalidSignerKey (msg : String)
  | submitFailed (msg : String)
  deriving DecidableEq, Repr

structure DripReceipt where
  txHash : String
  amountNano : Nat
  deriving DecidableEq, Repr

/-- What the signer takes from the chain SDK. The error texts are the SDK's own. -/
structure Sdk (Key Addr : Type) where
  hexDecode : String → Except String (List UInt8)
  keyFromBytes : List UInt8 → Except String Key
  /-- `SovAddress::from_str` -/
  parseAddress : String → Except String Addr

/-- `DEFAULT_MAX_FEE_NANO` -/
def defaultMaxFeeNano : Nat := 100000000

/-- The `bank.transfer` envelope `drip` builds. -/
structure UnsignedTransaction (Addr Token : Type) where
  recipient : Addr
  amount : Nat
  tokenId : Token
  chainId : UInt64
  maxPriorityFeeBips : Nat
  maxFee : Nat
  nonce : UInt64
  gasLimit : Option (UInt64 × UInt64)
  deriving DecidableEq, Repr

structure Signer (Key Token : Type) where
  privateKey : Key
  /-- Chain RPC base URL with the `/v1` prefix guaranteed. -/
  chainRpcWithV1 : String
  chainHash : List UInt8
  chainId : UInt64
  avowTokenId : Token
  nonce : UInt64

variable {Key Addr Token : Type}

namespace Signer

/-- The URL normalisation of `Signer::new`: no trailing slashes, and `/v1` at the end. -/
def normaliseRpc (chainRpc : String) : String :=
  let trimmed := chainRpc.toList.rdropWhile (· = '/')
  if "/v1".toList.isSuffixOf trimmed then String.ofList trimmed
  else String.ofList (trimmed ++ "/v1".toList)

/-- `Signer::new` -/
def new (sdk : Sdk Key Addr) (signingKeyHex chainRpc : String) (chainId : UInt64)
    (chainHash : List UInt8) (avowTokenId : Token) (startingNonce : UInt64) :
    Except SignerError (Signer Key Token) := do
  if signingKeyHex.utf8ByteSize ≠ 64 then
    throw (.invalidSignerKey ("expected 64 hex chars, got " ++ toString signingKeyHex.utf8ByteSize))
  let keyBytes ← (sdk.hexDecode signingKeyHex).mapError fun e =>
    .invalidSignerKey ("hex decode: " ++ e)
  let privateKey ← (sdk.keyFromBytes keyBytes).mapError fun e =>
    .invalidSignerKey ("key shape: " ++ e)
  return { privateKey, chainRpcWithV1 := normaliseRpc chainRpc, chainHash, chainId, avowTokenId,
           nonce := startingNonce }

/-- `Signer::new_with_chain_seed`; `chainNonce` is the answer of `get_nonce_for_public_key`, asked
only when there is no override. -/
def newWithChainSeed (sdk : Sdk Key Addr) (signingKeyHex chainRpc : String) (chainId : UInt64)
    (chainHash : List UInt8) (avowTokenId : Token) (startingNonceOverride : Option UInt64)
    (chainNonce : Except SignerError UInt64) : Except SignerError (Signer Key Token × UInt64) := do
  let signer ← new sdk signingKeyHex chainRpc chainId chainHash avowTokenId 0
  let resolved ← match startingNonceOverride with
    | some n => pure n
    | none => chainNonce
  return ({ signer with nonce := resolved }, resolved)

/-- `Signer::drip` up to the unsigned transaction: the address is parsed before the nonce is taken
from the counter, so a bad address costs no nonce. -/
def begin (sdk : Sdk Key Addr) (signer : Signer Key Token) (recipient : String)
    (amountNano : Nat) : Except SignerError (UnsignedTransaction Addr Token × Signer Key Token) :=
  match sdk.parseAddress recipient with
  | .error e => .error (.invalidAddress (recipient ++ ": " ++ e))
  | .ok address =>
    .ok ({ recipient := address, amount := amountNano, tokenId := signer.avowTokenId,
           chainId := signer.chainId, maxPriorityFeeBips := 0, maxFee := defaultMaxFeeNano,
           nonce := signer.nonce, gasLimit := none },
         -- `fetch_add` wraps around
         { signer with nonce := signer.nonce + 1 })

end Signer

/-! ## Concurrent calls next to the chain -/

/-- Where a call of `Signer::drip` stands. -/
inductive CallPhase (Addr Token : Type)
  /-- Nonce reserved, transaction not yet at the chain. -/
  | submitting (tx : UnsignedTransaction Addr Token)
  /-- The chain accepted the transaction; `wait_for_inclusion` is polling. -/
  | polling (txHash : String)
  | returned (result : Except SignerError DripReceipt)

structure Call (Addr Token : Type) where
  amountNano : Nat
  phase : CallPhase Addr Token

/-- The shared signer, the account's next nonce on the chain, and the calls so far. -/
structure FaucetState (Key Addr Token : Type) where
  signer : Signer Key Token
  chainNonce : UInt64
  calls : List (Call Addr Token)

/-- What can happen to a running call. -/
inductive CallEvent
  /-- `borsh::to_vec` failed. -/
  | encodeError (msg : String)
  /-- The submission failed before it reached the chain. -/
  | submitError (msg : String)
  /-- The submission reached the chain, which answers with a hash or an error text. -/
  | arrive (reply : String)
  /-- `wait_for_inclusion` is over, by success or by time-out. -/
  | pollDone
  deriving DecidableEq, Repr

inductive FaucetEvent
  | drip (recipient : String) (amountNano : Nat)
  | call (i : Nat) (e : CallEvent)
  deriving DecidableEq, Repr

/-- One event of a call: the chain's next nonce and the call's phase after it. -/
def Call.advance (chainNonce : UInt64) (call : Call Addr Token) :
    CallEvent → Option (UInt64 × CallPhase Addr Token)
  | .encodeError e =>
    match call.phase with
    | .submitting _ =>
      some (chainNonce, .returned (.error (.submitFailed ("encoding signed tx: " ++ e))))
    | _ => none
  | .submitError e =>
    match call.phase with
    | .submitting _ => some (chainNonce, .returned (.error (.submitFailed ("submit: " ++ e))))
    | _ => none
  | .arrive reply =>
    match call.phase with
    | .submitting tx =>
      if tx.nonce = chainNonce then some (chainNonce + 1, .polling reply)
      else some (chainNonce, .returned (.error (.submitFailed ("submit: " ++ reply))))
    | _ => none
  | .pollDone =>
    match call.phase with
    | .polling txHash => some (chainNonce, .returned (.ok ⟨txHash, call.amountNano⟩))
    | _ => none

/-- One step of the faucet: a new call of `drip`, or an event of a call under way. -/
def faucetStep (sdk : Sdk Key Addr) (s : FaucetState Key Addr Token) :
    FaucetEvent → Option (FaucetState Key Addr Token)
  | .drip recipient amountNano =>
    match s.signer.begin sdk recipient amountNano with
    | .error e => some { s with calls := s.calls ++ [⟨amountNano, .returned (.error e)⟩] }
    | .ok (tx, signer) =>
      some { s with signer, calls := s.calls ++ [⟨amountNano, .submitting tx⟩] }
  | .call i e =>
    s.calls[i]?.bind fun call =>
      (call.advance s.chainNonce e).map fun (chainNonce, phase) =>
        { s with chainNonce, calls := s.calls.set i { call with phase } }

/-- The reserved nonce of a call whose transaction has not reached the chain. -/
def CallPhase.reserved : CallPhase Addr Token → Option UInt64
  | .submitting tx => some tx.nonce
  | _ => none

/-- The call has returned to the handler. -/
def CallPhase.isReturned : CallPhase Addr Token → Bool
  | .returned _ => true
  | _ => false

/-- No call of `drip` is in flight. -/
def FaucetState.Quiescent (s : FaucetState Key Addr Token) : Prop :=
  ∀ call ∈ s.calls, call.phase.isReturned = true

/-- The faucet right after `new_with_chain_seed`: nothing called yet, counter in step. -/
structure FaucetState.Seeded (s : FaucetState Key Addr Token) : Prop where
  calls_nil : s.calls = []
  nonce_eq : s.signer.nonce = s.chainNonce

/-- Seeding from the chain's answer puts the counter in step, without an override. -/
theorem newWithChainSeed_seeded {sdk : Sdk Key Addr} {key rpc : String} {chainId : UInt64}
    {chainHash : List UInt8} {token : Token} {c r : UInt64} {signer : Signer Key Token}
    (h : Signer.newWithChainSeed sdk key rpc chainId chainHash token none (.ok c) =
      .ok (signer, r)) :
    (FaucetState.mk signer c ([] : List (Call Addr Token))).Seeded := by
  unfold Signer.newWithChainSeed at h
  cases hn : Signer.new sdk key rpc chainId chainHash token 0 with
  | error e => simp [hn, bind, Except.bind] at h
  | ok s =>
    simp only [hn, bind, Except.bind, pure, Except.pure, Except.ok.injEq, Prod.mk.injEq] at h
    exact ⟨rfl, by rw [← h.1]⟩

end LigateApi.Drip
