import LigateApi.Lib.Str
import LigateApi.Api.ActiveAddresses
import LigateApi.Api.Config

/-!
# Start-up

What `main` does between loading the configuration and serving: the text it logs for the database
URL, and the check that the signer's balance covers enough drips.
-/

namespace LigateApi.Api

open Stats Lib.Str

/-- `redact_pg_url`; no value where a slice would be off a character boundary. -/
def redactPgUrl (url : String) : Option String :=
  match findChar (· == '@') url.toList with
  | none => some url
  | some atSign =>
    match findStr "://".toList url.toList with
    | none => some url
    | some schemeEnd =>
      match splitAt schemeEnd url.toList, splitAt (atSign + 1) url.toList with
      | some (scheme, _), some (_, rest) =>
        some (String.ofList scheme ++ "://[redacted]@" ++ String.ofList rest)
      | _, _ => none

/-- `query_balance_with_retry`, the attempts from `attempt` on. -/
def retryBalance (query : Nat → Except String Nat) : Nat → Nat → String → Except String Nat
  | 0, _, lastErr => .error lastErr
  | left + 1, attempt, _ =>
    match query attempt with
    | .ok balance => .ok balance
    | .error e => retryBalance query left (attempt + 1) e

/-- `query_balance_with_retry`; `query` is what `query_self_balance` answers to each attempt. -/
def queryBalanceWithRetry (query : Nat → Except String Nat) (maxAttempts : Nat) :
    Except String Nat :=
  retryBalance query maxAttempts 0 "balance query failed with no error captured"

/-- The drip-budget check, on the balance that was read. -/
def checkDripBudget (cfg : Config) (balance : Except String Nat) : Computed Unit :=
  if 0 < cfg.dripMinBudget then
    match balance with
    | .ok balance =>
      if cfg.dripAmount = 0 then .panicked "attempt to divide by zero"
      else
        let budget := balance / cfg.dripAmount
        -- `budget as u64` keeps the low 64 bits
        if UInt64.ofNat budget < cfg.dripMinBudget then
          .err ("drip signer balance (" ++ toString balance ++ " nano-AVOW) covers only " ++
            toString budget ++ " drips at " ++ toString cfg.dripAmount ++
            " nano-AVOW/drip; minimum is " ++ toString cfg.dripMinBudget ++
            " (DRIP_MIN_BUDGET). Fund the signer or lower DRIP_AMOUNT before starting.")
        else .ok ()
    | .error e =>
      .err ("drip-budget check failed: " ++ e ++
        ". Set DRIP_MIN_BUDGET=0 to skip if the chain is intentionally unreachable at boot.")
  else .ok ()

/-- The check as `main` runs it, with five attempts at the balance. -/
def startupBudgetCheck (cfg : Config) (query : Nat → Except String Nat) : Computed Unit :=
  checkDripBudget cfg (queryBalanceWithRetry query 5)

end LigateApi.Api
