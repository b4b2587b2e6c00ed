import LigateApi.Api.Queries

/-!
# Active addresses

`GET /v1/stats/active-addresses` counts the addresses last seen within a window the caller spells,
such as `24h`. Three ranges follow on each other: the seconds have to fit in 64 bits, the window has
to be a `chrono::Duration` (at most `i64::MAX` milliseconds), and the instant it reaches back to has
to be a `DateTime`; the subtraction that makes the last one panics outside of it. Windows are counted
in seconds, instants in microseconds since the Unix epoch.
-/

namespace LigateApi.Api.Stats

open Queries Indexer

/-- How a computation ends: a value, an error that is reported, or a panic. -/
inductive Computed (α : Type)
  | ok (value : α)
  | err (message : String)
  | panicked (message : String)
  deriving DecidableEq, Repr

/-! ## The window -/

/-- `char::is_ascii_digit` -/
def isAsciiDigit (c : Char) : Bool := '0' ≤ c && c ≤ '9'

/-- `str::parse::<u64>` of decimal digits. -/
def parseU64 (digits : List Char) : Option Nat :=
  if digits ≠ [] ∧ digits.all isAsciiDigit = true then
    let n := digits.foldl (fun n c => 10 * n + (c.toNat - '0'.toNat)) 0
    if n < 2 ^ 64 then some n else none
  else none

/-- `n.checked_mul(k).context("overflow")` on 64 bits. -/
def checkedMul (n k : Nat) : Except String Nat :=
  if n * k < 2 ^ 64 then .ok (n * k) else .error "overflow"

/-- `parse_interval`, in seconds. -/
def parseInterval (s : String) : Except String Nat :=
  let num := s.toList.takeWhile isAsciiDigit
  let unit := s.toList.dropWhile isAsciiDigit
  if unit = [] then .error ("window '" ++ s ++ "' missing unit (h/d/m/s)")
  else
    match parseU64 num with
    | none => .error ("window '" ++ s ++ "': expected leading integer")
    | some n =>
      match String.ofList unit with
      | "s" => .ok n
      | "m" => checkedMul n 60
      | "h" => checkedMul n 3600
      | "d" => checkedMul n 86400
      | other => .error ("window '" ++ s ++ "': unknown unit '" ++ other ++ "' (expected s/m/h/d)")

/-! ## The count -/

/-- The first instant of `chrono`'s calendar, in the year -262143. -/
def chronoMin : Int := -8334601228800000000

/-- The first instant of a `TIMESTAMPTZ`, in the year -4713. -/
def timestamptzMin : Int := -210866803200000000

/-- A row counts from the instant `since` on; the column holds milliseconds. -/
def activeSince (since : Int) (r : AddressSummaryRow) : Bool :=
  r.lastSeenTimestamp.any fun t => since ≤ 1000 * t

/-- `SELECT COUNT(*) FROM address_summaries WHERE last_seen_timestamp >= $1` -/
def countActive (since : Int) (db : Db) : Nat := db.addressSummaries.countP (activeSince since)

structure ActiveAddressesResponse where
  window : String
  since : String
  count : Nat
  deriving DecidableEq, Repr

/-- `compute_active_addresses` at the instant `now`; `rfc3339` renders an instant to the second. -/
def computeActiveAddresses (rfc3339 : Int → String) (pg : PgPool) (windowLabel : String)
    (interval : Nat) (now : Int) : Computed ActiveAddressesResponse :=
  -- `chrono::Duration::from_std`
  if 2 ^ 63 ≤ interval * 1000 then .err "window too long"
  else
    let since := now - interval * 1000000
    -- `Utc::now() - duration`
    if since < chronoMin then .panicked "`DateTime - TimeDelta` overflowed"
    else if since < timestamptzMin then .err "count active addresses"
    else
      match pg with
      | .error _ => .err "count active addresses"
      | .ok db => .ok { window := windowLabel, since := rfc3339 since, count := countActive since db }

end LigateApi.Api.Stats
