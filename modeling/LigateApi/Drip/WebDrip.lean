import LigateApi.Drip.RateLimit
import LigateApi.Drip.Signer

/-!
# `POST /v1/drip`

The handler makes three calls: `RateLimiter::check`, `Signer::drip` and `RateLimiter::record`. Each
is atomic on the limiter, but other requests run between them, and `Signer::drip` itself takes any
amount of time: the submission reaches the chain somewhere inside it and the call returns later.
`webStep` is the system of any number of requests over one limiter and a clock that only moves
forward.
-/

namespace LigateApi.Drip

inductive StatusCode
  | tooManyRequests
  | badRequest
  | internalServerError
  | badGateway
  | unauthorized
  | serviceUnavailable
  deriving DecidableEq, Repr

structure ErrorResponse where
  error : String
  retryAfterSecs : Option Nat
  deriving DecidableEq, Repr

/-- `DripResponse`, without the amount repeated in AVOW. -/
structure DripResponse where
  address : String
  txHash : String
  amountNano : Nat
  deriving DecidableEq, Repr

/-- The 429 answer of the handler. -/
def rateLimitedResponse (retryAfter : Nat) : StatusCode × ErrorResponse :=
  (.tooManyRequests,
    { error := "address rate-limited; retry in " ++ toString (asSecs retryAfter) ++ " seconds",
      retryAfterSecs := some (asSecs retryAfter) })

/-- The handler's answer to a `SignerError`. -/
def signerErrorResponse : SignerError → StatusCode × ErrorResponse
  | .invalidAddress msg => (.badRequest, ⟨msg, none⟩)
  | .invalidSignerKey msg => (.internalServerError, ⟨"operator misconfig: " ++ msg, none⟩)
  | .submitFailed msg => (.badGateway, ⟨"chain submission failed: " ++ msg, none⟩)

/-- Where a request stands in the handler. -/
inductive WebPhase
  /-- Before `check`. -/
  | received
  /-- Past `check`, inside `Signer::drip`, nothing submitted yet. -/
  | signing
  /-- Inside `Signer::drip`, its transaction accepted by the chain at `time`. -/
  | submitted (time : Nat) (txHash : String)
  /-- `Signer::drip` returned `Ok`; `record` is next. -/
  | dripped (time : Nat) (receipt : DripReceipt)
  /-- Past `record`: answered with 200. -/
  | recorded (time : Nat) (response : DripResponse)
  /-- Answered with an error. -/
  | refused (response : StatusCode × ErrorResponse)
  deriving DecidableEq

structure WebRequest where
  address : String
  phase : WebPhase
  deriving DecidableEq

structure WebState where
  now : Nat
  limiter : RateLimiter
  requests : List WebRequest

/-- The steps of one request. -/
inductive WebAct
  | check
  /-- The chain accepts the submission inside `Signer::drip`. -/
  | submit (txHash : String)
  /-- `Signer::drip` returns `Err`. -/
  | dripErr (e : SignerError)
  /-- `Signer::drip` returns `Ok`. -/
  | dripOk
  | record
  deriving DecidableEq, Repr

inductive WebEvent
  | tick (elapsed : Nat)
  | receive (address : String)
  | act (i : Nat) (a : WebAct)
  deriving DecidableEq, Repr

/-- One step of the handler: the limiter and the request's phase after it. -/
def WebRequest.advance (dripAmount now : Nat) (limiter : RateLimiter) (r : WebRequest) :
    WebAct → Option (RateLimiter × WebPhase)
  | .check =>
    match r.phase with
    | .received =>
      match limiter.check r.address now with
      | .allowed => some (limiter, .signing)
      | .blocked retryAfter => some (limiter, .refused (rateLimitedResponse retryAfter))
    | _ => none
  | .submit txHash =>
    match r.phase with
    | .signing => some (limiter, .submitted now txHash)
    | _ => none
  | .dripErr e =>
    match r.phase with
    | .signing => some (limiter, .refused (signerErrorResponse e))
    -- the chain took the transaction and its answer was lost; the poll afterwards cannot fail
    | .submitted _ _ => some (limiter, .refused (signerErrorResponse e))
    | _ => none
  | .dripOk =>
    match r.phase with
    | .submitted time txHash => some (limiter, .dripped time ⟨txHash, dripAmount⟩)
    | _ => none
  | .record =>
    match r.phase with
    | .dripped time receipt =>
      some (limiter.record r.address now,
        .recorded time ⟨r.address, receipt.txHash, receipt.amountNano⟩)
    | _ => none

/-- One step of the web faucet. -/
def webStep (dripAmount : Nat) (s : WebState) : WebEvent → Option WebState
  | .tick elapsed => some { s with now := s.now + elapsed }
  | .receive address => some { s with requests := s.requests ++ [⟨address, .received⟩] }
  | .act i a =>
    s.requests[i]?.bind fun r =>
      (r.advance dripAmount s.now s.limiter a).map fun (limiter, phase) =>
        { s with limiter, requests := s.requests.set i { r with phase } }

/-- A faucet that has served nothing yet. -/
def WebState.start (window now : Nat) : WebState := ⟨now, RateLimiter.new window, []⟩

/-! ## What a phase says -/

/-- When the chain accepted the request's transaction. -/
def WebPhase.submission : WebPhase → Option Nat
  | .submitted t _ => some t
  | .dripped t _ => some t
  | .recorded t _ => some t
  | _ => none

/-- `Signer::drip` returned `Ok` for the request. -/
def WebPhase.dripOk : WebPhase → Bool
  | .dripped _ _ => true
  | .recorded _ _ => true
  | _ => false

/-- The request has passed `check` and has neither failed nor executed `record`. -/
def WebPhase.inFlight : WebPhase → Bool
  | .signing => true
  | .submitted _ _ => true
  | .dripped _ _ => true
  | _ => false

/-- The instant from which the request's own drip counts: its submission, or at the earliest now. -/
def WebPhase.since (now : Nat) (p : WebPhase) : Nat := p.submission.getD now

end LigateApi.Drip
