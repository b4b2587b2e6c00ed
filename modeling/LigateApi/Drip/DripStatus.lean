import LigateApi.Drip.WebDrip
import Mathlib.Data.UInt

/-!
# `GET /v1/drip/status`

Without an address the handler shows the configuration and how many addresses were served; with one
it peeks at the limiter and says when the address may come again, on the calendar. The calendar is
read after the limiter, some time later.
-/

namespace LigateApi.Drip

/-- `DripStatusResponse`, without the amount repeated in AVOW. -/
structure DripStatusResponse where
  dripAmountNano : Nat
  rateLimitSecs : UInt64
  addressesDripped : Nat
  faucetAddress : String
  deriving DecidableEq, Repr

structure AddressDripStatusResponse where
  canDrip : Bool
  nextDripAt : Option String
  deriving DecidableEq, Repr

inductive DripStatusBody
  | global (response : DripStatusResponse)
  | perAddress (response : AddressDripStatusResponse)
  deriving DecidableEq, Repr

/-- The configuration, the signer's address and the texts of instants. -/
structure StatusEnv where
  dripAmount : Nat
  dripRateLimitSecs : UInt64
  faucetAddress : String
  /-- `to_rfc3339_opts(SecondsFormat::Millis, true)` of a count of milliseconds. -/
  toRfc3339 : Int → String

/-- `chrono::Duration::from_std`: a duration has at most `i64::MAX` milliseconds. -/
def fromStd (duration : Nat) : Option Nat :=
  if duration ≤ (2 ^ 63 - 1) * 1000000 then some duration else none

/-- The last nanosecond of `chrono`'s calendar, in the year 262142. -/
def chronoMax : Int := 8210266876799999999999

/-- `drip_status`; none where the addition to `Utc::now()` panics. -/
def dripStatus (env : StatusEnv) (limiter : RateLimiter) (now : Nat) (utcNow : Int)
    (address : Option String) : Option DripStatusBody :=
  match address.filter fun s => s ≠ "" with
  | some addr =>
    match limiter.peek addr now with
    | .allowed => some (.perAddress { canDrip := true, nextDripAt := none })
    | .blocked retryAfter =>
      let next := utcNow + (fromStd retryAfter).getD 0
      if next ≤ chronoMax then
        some (.perAddress { canDrip := false, nextDripAt := some (env.toRfc3339 (next / 1000000)) })
      else none
  | none =>
    some (.global
      { dripAmountNano := env.dripAmount, rateLimitSecs := env.dripRateLimitSecs,
        addressesDripped := limiter.dripCount, faucetAddress := env.faucetAddress })

end LigateApi.Drip
