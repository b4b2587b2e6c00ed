import LigateApi.Drip.RateLimit
import Mathlib.Data.Finset.Card
import Mathlib.Data.List.Induction

/-!
# The limiter and its call history

The limiter keeps one instant for an address, the history of its calls is unbounded. `run` takes a
limiter through a list of calls and `answers` lists what they return. The map represents the
history: an address's entry is the last of its `recordTimes` (`last_run`), and the keys are the
addresses recorded (`mem_keys_run`).
-/

namespace LigateApi.Drip

/-! ## Calls -/

inductive LimiterCall
  | record (address : String)
  | check (address : String)
  | peek (address : String)
  deriving DecidableEq, Repr

/-- A call and the value of `Instant::now()` inside it. -/
structure TimedCall where
  call : LimiterCall
  time : Nat
  deriving DecidableEq, Repr

/-- The address a call records a drip to. -/
def LimiterCall.recorded : LimiterCall → Option String
  | .record address => some address
  | .check _ | .peek _ => none

/-- The instants at which a drip to `a` was recorded, in the order of the calls. -/
def recordTimes (a : String) (calls : List TimedCall) : List Nat :=
  (calls.filter fun c => c.call.recorded = some a).map TimedCall.time

/-- The addresses recorded, one for each call of `record`. -/
def recordedAddresses (calls : List TimedCall) : List String :=
  calls.filterMap fun c => c.call.recorded

/-- The answer at `t` that an address's record times ask for: allowed if none of them is later than
`t - window`, and otherwise blocked for what is left of the window of the last one. -/
def AnswerFrom (window : Nat) (times : List Nat) (t : Nat) (answer : RateCheck) : Prop :=
  (answer = .allowed ↔ ¬ ∃ r ∈ times, (r : Int) > (t : Int) - window) ∧
  (answer ≠ .allowed → ∃ last, times.getLast? = some last ∧ t ≤ last + window ∧
    answer = .blocked (last + window - t) ∧
    0 < last + window - t ∧ last + window - t ≤ window)

namespace RateLimiter

/-- What a call leaves behind. -/
def step (l : RateLimiter) (c : TimedCall) : RateLimiter :=
  match c.call with
  | .record address => l.record address c.time
  | .check _ | .peek _ => l

/-- What a call returns; `record` returns nothing. -/
def answer (l : RateLimiter) (c : TimedCall) : Option RateCheck :=
  match c.call with
  | .record _ => none
  | .check address => some (l.check address c.time)
  | .peek address => some (l.peek address c.time)

def run (l : RateLimiter) (calls : List TimedCall) : RateLimiter := calls.foldl step l

/-- The answers of a list of calls, each in the state the calls before it left. -/
def answers (l : RateLimiter) : List TimedCall → List (Option RateCheck)
  | [] => []
  | c :: calls => l.answer c :: answers (l.step c) calls

@[simp] theorem run_nil (l : RateLimiter) : l.run [] = l := rfl

@[simp] theorem run_append (l : RateLimiter) (calls calls' : List TimedCall) :
    l.run (calls ++ calls') = (l.run calls).run calls' := List.foldl_append

theorem run_cons (l : RateLimiter) (c : TimedCall) (calls : List TimedCall) :
    l.run (c :: calls) = (l.step c).run calls := rfl

theorem run_snoc (l : RateLimiter) (c : TimedCall) (calls : List TimedCall) :
    l.run (calls ++ [c]) = (l.run calls).step c := by
  rw [run_append, run_cons, run_nil]

@[simp] theorem length_answers (l : RateLimiter) (calls : List TimedCall) :
    (l.answers calls).length = calls.length := by
  induction calls generalizing l with
  | nil => rfl
  | cons c calls ih => simp [answers, ih]

theorem answers_append (l : RateLimiter) (calls calls' : List TimedCall) :
    l.answers (calls ++ calls') = l.answers calls ++ (l.run calls).answers calls' := by
  induction calls generalizing l with
  | nil => rfl
  | cons c calls ih => simp [answers, ih, run_cons]

/-- The answer in the middle of a list of calls is given by the state reached there. -/
theorem answers_at (l : RateLimiter) (before after : List TimedCall) (c : TimedCall) :
    (l.answers (before ++ c :: after))[before.length]? = some ((l.run before).answer c) := by
  rw [answers_append, List.getElem?_append_right (by simp)]
  simp [answers]

/-! ## One step -/

/-- A call that records nothing leaves the limiter as it is. -/
theorem step_of_recorded_none (l : RateLimiter) {c : TimedCall} (h : c.call.recorded = none) :
    l.step c = l := by
  obtain ⟨call, time⟩ := c
  cases call with
  | record address => cases h
  | check address => rfl
  | peek address => rfl

theorem step_of_recorded_some (l : RateLimiter) {c : TimedCall} {a : String}
    (h : c.call.recorded = some a) : l.step c = l.record a c.time := by
  obtain ⟨call, time⟩ := c
  cases call with
  | record address =>
    cases h
    rfl
  | check address => cases h
  | peek address => cases h

@[simp] theorem window_step (l : RateLimiter) (c : TimedCall) : (l.step c).window = l.window := by
  cases h : c.call.recorded with
  | none => rw [step_of_recorded_none l h]
  | some a =>
    rw [step_of_recorded_some l h]
    rfl

/-- A call touches the entry of the address it records, and no other. -/
theorem last_step (l : RateLimiter) (c : TimedCall) (a : String) :
    (l.step c).last a = if c.call.recorded = some a then some c.time else l.last a := by
  cases h : c.call.recorded with
  | none => rw [step_of_recorded_none l h, if_neg (by simp)]
  | some b =>
    rw [step_of_recorded_some l h]
    by_cases hba : b = a
    · subst hba
      rw [last_record_self, if_pos rfl]
    · rw [last_record_other l (Ne.symm hba), if_neg (by simpa using hba)]

theorem mem_keys_iff (l : RateLimiter) (a : String) :
    a ∈ l.lastDrip.map Prod.fst ↔ (l.last a).isSome := by
  rw [List.mem_map, last, Option.isSome_map]
  constructor
  · intro h
    obtain ⟨e, he, rfl⟩ := h
    exact Lib.Table.lookup_isSome_of_mem Prod.fst he
  · intro h
    obtain ⟨e, he⟩ := Option.isSome_iff_exists.1 h
    exact ⟨e, Lib.Table.lookup_mem he, Lib.Table.lookup_key he⟩

/-- The map has no two entries of one address, so its size counts its addresses. -/
theorem dripCount_eq_card {l : RateLimiter} {addresses : List String}
    (h : ∀ a, (l.last a).isSome ↔ a ∈ addresses) : l.dripCount = addresses.toFinset.card := by
  have hset : (l.lastDrip.map Prod.fst).toFinset = addresses.toFinset := by
    ext a
    rw [List.mem_toFinset, List.mem_toFinset, mem_keys_iff, h]
  rw [← hset, List.toFinset_card_of_nodup l.unique, List.length_map, dripCount]

theorem mem_keys_step (l : RateLimiter) (c : TimedCall) (a : String) :
    a ∈ (l.step c).lastDrip.map Prod.fst ↔
      c.call.recorded = some a ∨ a ∈ l.lastDrip.map Prod.fst := by
  rw [mem_keys_iff, mem_keys_iff, last_step]
  split
  · next h => simp [h]
  · next h => simp [h]

/-! ## Runs -/

variable (window : Nat) (calls : List TimedCall)

@[simp] theorem window_run (l : RateLimiter) : (l.run calls).window = l.window := by
  induction calls generalizing l with
  | nil => rfl
  | cons c calls ih => rw [run_cons, ih, window_step]

theorem last_run (a : String) :
    ((new window).run calls).last a = (recordTimes a calls).getLast? := by
  induction calls using List.reverseRecOn with
  | nil => rfl
  | append_singleton calls c ih =>
    rw [run_snoc, last_step, ih]
    by_cases hc : c.call.recorded = some a
    · simp [recordTimes, hc]
    · simp [recordTimes, hc]

theorem mem_keys_run (a : String) :
    a ∈ ((new window).run calls).lastDrip.map Prod.fst ↔ a ∈ recordedAddresses calls := by
  induction calls using List.reverseRecOn with
  | nil => simp [new, recordedAddresses]
  | append_singleton calls c ih =>
    rw [run_snoc, mem_keys_step, ih]
    simp only [recordedAddresses, List.filterMap_append, List.mem_append]
    constructor
    · intro h
      rcases h with h | h
      · exact .inr (by simp [h])
      · exact .inl h
    · intro h
      rcases h with h | h
      · exact .inr h
      · refine .inl ?_
        obtain ⟨d, hd, hda⟩ := List.mem_filterMap.1 h
        rw [List.mem_singleton] at hd
        exact hd ▸ hda

theorem dripCount_run :
    ((new window).run calls).dripCount = (recordedAddresses calls).toFinset.card :=
  dripCount_eq_card fun a => (mem_keys_iff _ a).symm.trans (mem_keys_run window calls a)

/-- Two limiters of one window that agree on an address answer alike about it. -/
theorem probe_congr {l l' : RateLimiter} {a : String} (hw : l.window = l'.window)
    (h : l.last a = l'.last a) (t : Nat) : l.probe a t = l'.probe a t := by
  unfold probe
  rw [h, hw]

variable {window calls}

/-- Times that do not run backwards end with the greatest of them. -/
theorem le_getLast_of_sorted {times : List Nat} (h : times.Pairwise (· ≤ ·)) {last : Nat}
    (hlast : times.getLast? = some last) : ∀ r ∈ times, r ≤ last := by
  intro r hr
  obtain ⟨init, rfl⟩ := List.getLast?_eq_some_iff.1 hlast
  rcases List.mem_append.1 hr with hr | hr
  · exact (List.pairwise_append.1 h).2.2 r hr last (by simp)
  · rw [List.mem_singleton] at hr
    omega

theorem recordTimes_sorted (h : calls.Pairwise fun c d => c.time ≤ d.time) (a : String) :
    (recordTimes a calls).Pairwise (· ≤ ·) := by
  rw [recordTimes, List.pairwise_map]
  exact h.filter _

/-- What a limiter answers whose entry for `a` is the last of a list of record times. -/
theorem probe_answerFrom {l : RateLimiter} {a : String} {times : List Nat} {t : Nat}
    (hlast : l.last a = times.getLast?) (hsorted : times.Pairwise (· ≤ ·))
    (hpast : ∀ r ∈ times, r ≤ t) : AnswerFrom l.window times t (l.probe a t) := by
  unfold probe
  cases h : times.getLast? with
  | none =>
    have hnil : times = [] := List.getLast?_eq_none_iff.1 h
    subst hnil
    rw [hlast, h]
    exact ⟨by simp, fun hne => absurd rfl hne⟩
  | some last =>
    have hmem : last ∈ times := List.mem_of_getLast? h
    have hle : last ≤ t := hpast last hmem
    have hgreatest := le_getLast_of_sorted hsorted h
    rw [hlast, h]
    dsimp only
    by_cases hw : l.window ≤ t - last
    · rw [if_pos hw]
      refine ⟨iff_of_true rfl ?_, fun hne => absurd rfl hne⟩
      intro hex
      obtain ⟨r, hr, hlate⟩ := hex
      have := hgreatest r hr
      omega
    · rw [if_neg hw]
      refine ⟨iff_of_false (by simp) ?_, fun _ => ⟨last, h, by omega, ?_, by omega, by omega⟩⟩
      · intro hnone
        exact hnone ⟨last, hmem, by omega⟩
      · congr 1
        omega

end RateLimiter

open RateLimiter

/-- The answer to a check or a peek inside a list of calls whose clock does not run backwards. -/
theorem answerFrom_before {window : Nat} {before after : List TimedCall} {c : TimedCall}
    (hclock : (before ++ c :: after).Pairwise fun c d => c.time ≤ d.time) (a : String) :
    AnswerFrom window (recordTimes a before) c.time
      (((RateLimiter.new window).run before).probe a c.time) := by
  obtain ⟨hbefore, -, hcross⟩ := List.pairwise_append.1 hclock
  have hpast : ∀ r ∈ recordTimes a before, r ≤ c.time := by
    intro r hr
    obtain ⟨d, hd, rfl⟩ := List.mem_map.1 hr
    exact hcross d (List.mem_of_mem_filter hd) c List.mem_cons_self
  have h := probe_answerFrom (last_run window before a) (recordTimes_sorted hbefore a) hpast
  rwa [window_run] at h

/-- Taking a read out of a list of calls takes its answer out, and no other answer changes. -/
theorem answers_erase_read {l : RateLimiter} {before after : List TimedCall} {c : TimedCall}
    (hc : c.call.recorded = none) :
    (l.answers (before ++ c :: after)).eraseIdx before.length = l.answers (before ++ after) := by
  rw [answers_append, answers_append, List.eraseIdx_append_of_length_le (by simp)]
  simp only [length_answers, Nat.sub_self, answers, List.eraseIdx_cons_zero]
  rw [step_of_recorded_none _ hc]

/-- A record of another address leaves what a limiter answers about `a`. -/
theorem check_erase_record {l : RateLimiter} {before after : List TimedCall} {c : TimedCall}
    {a : String} (hc : c.call.recorded ≠ some a) (t : Nat) :
    (l.run (before ++ c :: after)).check a t = (l.run (before ++ after)).check a t := by
  have hlast : ∀ l l' : RateLimiter, l.last a = l'.last a →
      (l.run after).last a = (l'.run after).last a := by
    induction after with
    | nil => exact fun _ _ h => h
    | cons d after ih =>
      intro l l' h
      apply ih
      rw [last_step, last_step, h]
  apply probe_congr
  · simp
  · simp only [run_append, run_cons]
    apply hlast
    rw [last_step, if_neg hc]

/-- Along any calls at times that do not run backwards, the limiter answers as the history of its
records asks. Reads leave no trace, the addresses do not interfere, and the counter counts the
addresses recorded. -/
theorem rateLimiter_refines_history (window : Nat) (calls : List TimedCall)
    (hclock : calls.Pairwise fun c d => c.time ≤ d.time) :
    (∀ before a t after,
      calls = before ++ ⟨.check a, t⟩ :: after ∨ calls = before ++ ⟨.peek a, t⟩ :: after →
      ∃ answer, ((RateLimiter.new window).answers calls)[before.length]? = some (some answer) ∧
        AnswerFrom window (recordTimes a before) t answer) ∧
    (∀ a t, ((RateLimiter.new window).run calls).peek a t =
      ((RateLimiter.new window).run calls).check a t) ∧
    (∀ before c after, calls = before ++ c :: after → c.call.recorded = none →
      ((RateLimiter.new window).answers calls).eraseIdx before.length =
        (RateLimiter.new window).answers (before ++ after)) ∧
    (∀ before b r after, calls = before ++ ⟨.record b, r⟩ :: after → ∀ a, a ≠ b → ∀ t,
      ((RateLimiter.new window).run calls).check a t =
        ((RateLimiter.new window).run (before ++ after)).check a t) ∧
    ((RateLimiter.new window).run calls).dripCount = (recordedAddresses calls).toFinset.card := by
  refine ⟨?_, fun _ _ => rfl, ?_, ?_, dripCount_run window calls⟩
  · intro before a t after hcalls
    rcases hcalls with rfl | rfl
    · exact ⟨_, answers_at _ before after _, answerFrom_before hclock a⟩
    · exact ⟨_, answers_at _ before after _, answerFrom_before hclock a⟩
  · intro before c after hcalls hc
    subst hcalls
    exact answers_erase_read hc
  · intro before b r after hcalls a hab t
    subst hcalls
    apply check_erase_record
    intro h
    exact hab (Option.some.inj h).symm

/-- Two addresses, the second of them dripped to twice: checked at 25 with a window of 10, it is
blocked until 28. -/
theorem rateLimiter_refines_history_two_addresses :
    let calls : List TimedCall := [⟨.record "lig1a", 3⟩, ⟨.record "lig1b", 7⟩, ⟨.peek "lig1b", 8⟩,
      ⟨.record "lig1b", 18⟩, ⟨.check "lig1b", 25⟩, ⟨.check "lig1a", 25⟩]
    calls.Pairwise (fun c d => c.time ≤ d.time) ∧
      ((RateLimiter.new 10).answers calls)[4]? = some (some (.blocked 3)) ∧
      (∃ answer, ((RateLimiter.new 10).answers calls)[4]? = some (some answer) ∧
        AnswerFrom 10 [7, 18] 25 answer) ∧
      ((RateLimiter.new 10).run calls).dripCount = 2 := by
  intro calls
  have hclock : calls.Pairwise (fun c d => c.time ≤ d.time) := by decide
  obtain ⟨hanswers, -, -, -, hcount⟩ := rateLimiter_refines_history 10 calls hclock
  refine ⟨hclock, rfl, hanswers (calls.take 4) "lig1b" 25 (calls.drop 5) (.inl rfl),
    hcount.trans ?_⟩
  decide

end LigateApi.Drip
