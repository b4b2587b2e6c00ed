import LigateApi.Lib.Table

/-!
# The in-memory per-address rate limiter

`RateLimiter` maps an address string to the instant of its last recorded drip. A
`std::time::Instant` is a nanosecond count of the monotone clock, a `std::time::Duration` a number
of nanoseconds. `check` and `peek` have the same body,
`probe`; neither of them records anything, `record` does. What the rest of the development uses
of the limiter is `check_allowed_iff` and the two reads of a recorded limiter, `last_record_self`
and `last_record_other`.
-/

namespace LigateApi.Drip

/-- `Duration::as_secs` of a nanosecond count: whole seconds, the fraction dropped. -/
def asSecs (duration : Nat) : Nat := duration / 1000000000

inductive RateCheck
  | allowed
  | blocked (retryAfter : Nat)
  deriving DecidableEq, Repr

/-- The limiter's map and window; a map holds at most one entry per address. -/
structure RateLimiter where
  lastDrip : List (String × Nat)
  window : Nat
  unique : (lastDrip.map Prod.fst).Nodup

namespace RateLimiter

open Lib

/-- `RateLimiter::new` -/
def new (window : Nat) : RateLimiter := ⟨[], window, List.nodup_nil⟩

/-- The recorded instant of the last drip to `address`. -/
def last (l : RateLimiter) (address : String) : Option Nat :=
  (Table.lookup Prod.fst address l.lastDrip).map Prod.snd

/-- The common body of `peek` and `check`. -/
def probe (l : RateLimiter) (address : String) (now : Nat) : RateCheck :=
  match l.last address with
  | some last =>
    -- `duration_since` saturates at zero, as subtraction on `Nat` does
    let elapsed := now - last
    if l.window ≤ elapsed then .allowed else .blocked (l.window - elapsed)
  | none => .allowed

/-- `RateLimiter::peek` -/
def peek (l : RateLimiter) (address : String) (now : Nat) : RateCheck := l.probe address now

/-- `RateLimiter::check` -/
def check (l : RateLimiter) (address : String) (now : Nat) : RateCheck := l.probe address now

/-- `RateLimiter::record` -/
def record (l : RateLimiter) (address : String) (now : Nat) : RateLimiter where
  lastDrip := Table.upsert Prod.fst (address, now) (fun e => (e.1, now)) l.lastDrip
  window := l.window
  unique := Table.nodup_upsert (fun _ => rfl) l.unique

/-- `RateLimiter::drip_count` -/
def dripCount (l : RateLimiter) : Nat := l.lastDrip.length

@[simp] theorem last_new (window : Nat) (a : String) : (new window).last a = none := rfl

@[simp] theorem last_record_self (l : RateLimiter) (a : String) (now : Nat) :
    (l.record a now).last a = some now := by
  simp only [last, record]
  rw [Table.lookup_upsert (by intro r; rfl)]
  cases h : Table.lookup Prod.fst a l.lastDrip <;> simp

theorem last_record_other (l : RateLimiter) {a b : String} (h : b ≠ a) (now : Nat) :
    (l.record a now).last b = l.last b := by
  simp only [last, record]
  rw [Table.lookup_upsert (by intro r; rfl), if_neg h]

/-- When the clock has not run backwards since the last record, `check` lets an address through
exactly if a whole window has passed since. -/
theorem check_allowed_iff {l : RateLimiter} {a : String} {now : Nat}
    (hpast : ∀ t, l.last a = some t → t ≤ now) :
    l.check a now = .allowed ↔ ∀ t, l.last a = some t → t + l.window ≤ now := by
  unfold check probe
  cases h : l.last a with
  | none => simp
  | some t =>
    have := hpast t h
    simp only [Option.some.injEq, forall_eq']
    constructor
    · intro hc
      by_contra hlt
      rw [if_neg (by omega)] at hc
      cases hc
    · intro hle
      rw [if_pos (by omega)]

end RateLimiter

end LigateApi.Drip
