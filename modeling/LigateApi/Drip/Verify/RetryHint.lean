import LigateApi.Drip.Verify.Window
import LigateApi.Drip.Verify.Cooldown

/-!
# Retry hints

A 429 answer says in how many seconds to come back. The hint is sound if, once it has passed and
nothing was dripped meanwhile, the check that refused lets the request through. The bot's handler
takes the whole seconds since the last drip from the cooldown and so rounds the rest up. The web
handler drops the fraction of the rest, and its hint is early unless there is none.
-/

namespace LigateApi.Drip

open Lib.Run

/-! ## Sound hints -/

/-- The step records no drip to `address`. -/
def NoRecordOf (address : String) (s : WebState) : WebEvent → Prop
  | .act i .record => ∀ r, s.requests[i]? = some r → r.address ≠ address
  | _ => True

/-- The hint of a 429 answer to request `i` is at most the window, and whoever waits that long
without a further drip passes. -/
def WebState.HintSound (dripAmount : Nat) (s : WebState) (i : Nat) : Prop :=
  ∀ s' r response hint, webStep dripAmount s (.act i .check) = some s' →
    s'.requests[i]? = some r → r.phase = .refused (.tooManyRequests, response) →
    response.retryAfterSecs = some hint →
    hint * 1000000000 ≤ s.limiter.window ∧
      ∀ fs t, Along (webStep dripAmount) (NoRecordOf r.address) s' fs →
        exec (webStep dripAmount) s' fs = some t → s'.now + hint * 1000000000 ≤ t.now →
        t.limiter.check r.address t.now = .allowed

/-- If the address of request `i` is still inside its window, the rest of the window is a whole
number of seconds. -/
def WebState.WholeSeconds (s : WebState) (i : Nat) : Prop :=
  ∀ r last, s.requests[i]? = some r → r.phase = .received →
    s.limiter.last r.address = some last → s.now < last + s.limiter.window →
    (last + s.limiter.window - s.now) % 1000000000 = 0

/-- The step inserts no row under the key. -/
def NoInsertOf (column : CooldownColumn) (value : String) (s : BotState) : BotEvent → Prop
  | .act i .insert => ∀ r, s.requests[i]? = some r → r.req.key column ≠ value
  | _ => True

/-- The same of a 429 answer to a query of the bot's handler, for the key that was refused. -/
def BotState.HintSound (cfg : BotConfig) (s : BotState) (i : Nat) (column : CooldownColumn) :
    Prop :=
  ∀ s' r response hint, botStep cfg s (.act i (.query column)) = some s' →
    s'.requests[i]? = some r → r.phase = .refused (.tooManyRequests, response) →
    response.retryAfterSecs = some hint →
    hint.toInt ≤ cfg.botDripRateLimitSecs.toNat ∧
      ∀ fs t, Along (botStep cfg) (NoInsertOf column (r.req.key column)) s' fs →
        exec (botStep cfg) s' fs = some t → (s'.now : Int) + hint.toInt * 1000000 ≤ t.now →
        lastDripWithinWindow cfg t.rows column (r.req.key column) t.now = none

/-- `make_interval` yields fewer than 2^63 microseconds: with a longer cooldown every query of the
handler fails, and there is no 429 answer. -/
def BotConfig.IntervalFits (cfg : BotConfig) : Prop := cfg.window < 2 ^ 63

/-! ## The web faucet -/

section Web

variable {dripAmount : Nat} {s s' t : WebState} {i : Nat} {a : String}

/-- No drip is recorded for a later instant. -/
def WebState.Stamped (s : WebState) : Prop := ∀ a, ∀ last ∈ s.limiter.last a, last ≤ s.now

/-- What a step does to the clock and to the limiter. -/
theorem webStep_cases {e : WebEvent} (h : webStep dripAmount s e = some s') :
    s.now ≤ s'.now ∧ (s'.limiter = s.limiter ∨
      ∃ i r, e = .act i .record ∧ s.requests[i]? = some r ∧ s'.now = s.now ∧
        s'.limiter = s.limiter.record r.address s.now) := by
  cases e with
  | tick elapsed =>
    cases h
    exact ⟨Nat.le_add_right _ _, .inl rfl⟩
  | receive address =>
    cases h
    exact ⟨Nat.le_refl _, .inl rfl⟩
  | act i act =>
    simp only [webStep, Option.bind_eq_some_iff, Option.map_eq_some_iff, Prod.exists] at h
    obtain ⟨r, hi, l, p, hadv, rfl⟩ := h
    refine ⟨Nat.le_refl _, ?_⟩
    rcases WebRequest.advance_cases hadv with ⟨rfl, -⟩ | ⟨-, -, -, rfl, -⟩ | ⟨_, -, rfl, -⟩ |
      ⟨_, _, _, -, rfl, -⟩ | ⟨_, _, _, rfl, -, rfl, -⟩
    · exact .inl rfl
    · exact .inl rfl
    · exact .inl rfl
    · exact .inl rfl
    · exact .inr ⟨i, r, rfl, hi, rfl, rfl⟩

theorem stamped_step {e : WebEvent} (hs : s.Stamped) (h : webStep dripAmount s e = some s') :
    s'.Stamped := by
  intro a last hlast
  obtain ⟨hnow, hsame | ⟨i, r, -, -, hnow', hrec⟩⟩ := webStep_cases h
  · rw [hsame] at hlast
    exact (hs a last hlast).trans hnow
  · rw [hrec] at hlast
    by_cases ha : a = r.address
    · rw [ha, RateLimiter.last_record_self, Option.mem_some_iff] at hlast
      exact hlast ▸ hnow
    · rw [RateLimiter.last_record_other _ ha] at hlast
      exact (hs a last hlast).trans hnow

/-- A run without a drip to the address leaves its instant alone. -/
theorem last_of_noRecord {fs : List WebEvent} (hno : Along (webStep dripAmount) (NoRecordOf a) s fs)
    (hrun : exec (webStep dripAmount) s fs = some t) :
    t.limiter.last a = s.limiter.last a ∧ t.limiter.window = s.limiter.window ∧ s.now ≤ t.now := by
  refine exec_invariant_along (I := fun t => t.limiter.last a = s.limiter.last a ∧
    t.limiter.window = s.limiter.window ∧ s.now ≤ t.now) ?_ ⟨rfl, rfl, Nat.le_refl _⟩ hno hrun
  rintro u e u' ⟨hlast, hwindow, hle⟩ hquiet hu
  obtain ⟨hnow, hsame | ⟨i, r, rfl, hi, -, hrec⟩⟩ := webStep_cases hu
  · rw [hsame]
    exact ⟨hlast, hwindow, hle.trans hnow⟩
  · have hother : a ≠ r.address := (hquiet r hi).symm
    rw [hrec, RateLimiter.last_record_other _ hother]
    exact ⟨hlast, hwindow, hle.trans hnow⟩

theorem RateLimiter.check_blocked_iff {l : RateLimiter} {now n : Nat}
    (hpast : ∀ t, l.last a = some t → t ≤ now) :
    l.check a now = .blocked n ↔
      ∃ last, l.last a = some last ∧ now < last + l.window ∧ n = last + l.window - now := by
  unfold check probe
  cases h : l.last a with
  | none => simp
  | some last =>
    have hle := hpast last h
    simp only [Option.some.injEq, exists_eq_left']
    split
    · rename_i hopen
      simp only [reduceCtorEq, false_iff]
      omega
    · rename_i hclosed
      simp only [RateCheck.blocked.injEq]
      omega

/-- A 429 answer comes from a blocked address. -/
theorem webStep_check_refused {r : WebRequest} {response : ErrorResponse}
    (h : webStep dripAmount s (.act i .check) = some s') (hr : s'.requests[i]? = some r)
    (hphase : r.phase = .refused (.tooManyRequests, response)) :
    s'.limiter = s.limiter ∧ s'.now = s.now ∧ ∃ r₀ n, s.requests[i]? = some r₀ ∧
      r₀.phase = .received ∧ r₀.address = r.address ∧
      s.limiter.check r.address s.now = .blocked n ∧
      response.retryAfterSecs = some (asSecs n) := by
  simp only [webStep, Option.bind_eq_some_iff, Option.map_eq_some_iff, Prod.exists] at h
  obtain ⟨r₀, hi, l, p, hadv, rfl⟩ := h
  rcases getElem?_set_cases hr with ⟨-, rfl⟩ | ⟨hne, -⟩
  · dsimp only at hphase
    subst hphase
    cases hp : r₀.phase <;> simp only [WebRequest.advance, hp, reduceCtorEq] at hadv
    cases hc : s.limiter.check r₀.address s.now with
    | allowed => simp [hc] at hadv
    | blocked n =>
      simp only [hc, Option.some.injEq, Prod.mk.injEq, WebPhase.refused.injEq,
        rateLimitedResponse, true_and] at hadv
      obtain ⟨rfl, rfl⟩ := hadv
      exact ⟨rfl, rfl, r₀, n, hi, hp, rfl, rfl, rfl⟩
  · exact absurd rfl hne

/-- A blocked request gets a 429 answer. -/
theorem webStep_check_blocked {r : WebRequest} {n : Nat} (hi : s.requests[i]? = some r)
    (hp : r.phase = .received) (hc : s.limiter.check r.address s.now = .blocked n) :
    ∃ s', webStep dripAmount s (.act i .check) = some s' ∧ s'.limiter = s.limiter ∧
      s'.now = s.now ∧
      s'.requests[i]? = some { r with phase := .refused (rateLimitedResponse n) } := by
  refine ⟨{ s with requests := s.requests.set i { r with
    phase := .refused (rateLimitedResponse n) } }, ?_, rfl, rfl, ?_⟩
  · simp only [webStep, hi, Option.bind_some, WebRequest.advance, hp, hc, Option.map_some]
  · have hlt : i < s.requests.length := (List.getElem?_eq_some_iff.1 hi).1
    rw [List.getElem?_set_self hlt]

/-- Whole seconds make the hint exact. -/
theorem hintSound_of_wholeSeconds (hs : s.Stamped) (hwhole : s.WholeSeconds i) :
    s.HintSound dripAmount i := by
  intro s' r response hint h hr hphase hhint
  obtain ⟨hlimiter, hnow, r₀, n, hi, hp, ha, hblocked, hsecs⟩ := webStep_check_refused h hr hphase
  rw [hsecs, Option.some.injEq] at hhint
  obtain ⟨last, hlast, hinside, rfl⟩ :=
    (RateLimiter.check_blocked_iff fun t ht => hs _ t ht).1 hblocked
  have hmod := hwhole r₀ last hi hp (ha ▸ hlast) hinside
  have hpast := hs _ last hlast
  subst hhint
  unfold asSecs
  refine ⟨by omega, fun fs t hno hrun hwait => ?_⟩
  obtain ⟨hlast', hwindow, hle⟩ := last_of_noRecord hno hrun
  rw [hlimiter] at hlast' hwindow
  rw [hnow] at hwait hle
  have hsame : ∀ u, t.limiter.last r.address = some u → u = last := by
    intro u hu
    rw [hlast', hlast, Option.some.injEq] at hu
    exact hu.symm
  apply (RateLimiter.check_allowed_iff fun u hu => ?_).2
  · intro u hu
    rw [hsame u hu, hwindow]
    omega
  · rw [hsame u hu]
    omega

/-- A fraction makes it early: who waits exactly that long is refused again. -/
theorem wholeSeconds_of_hintSound (hs : s.Stamped) (hsound : s.HintSound dripAmount i) :
    s.WholeSeconds i := by
  intro r last hi hp hlast hinside
  have hpast := hs _ last hlast
  obtain ⟨s', h, hlimiter, hnow, hr⟩ := webStep_check_blocked hi hp
    ((RateLimiter.check_blocked_iff fun t ht => hs _ t ht).2 ⟨last, hlast, hinside, rfl⟩)
  obtain ⟨-, hpass⟩ := hsound s' _ _ _ h hr rfl rfl
  -- the clock moves on and nothing else happens
  have hpass := hpass [.tick (asSecs (last + s.limiter.window - s.now) * 1000000000)] _
    ⟨trivial, fun _ _ => trivial⟩ rfl (Nat.le_refl _)
  dsimp only at hpass
  rw [hlimiter, hnow] at hpass
  have hopen := (RateLimiter.check_allowed_iff fun u hu =>
    (hs _ u hu).trans (Nat.le_add_right _ _)).1 hpass last hlast
  unfold asSecs at hopen
  omega

end Web

/-! ## The bot's faucet -/

section Bot

variable {cfg : BotConfig} {s s' t : BotState} {i : Nat} {column : CooldownColumn} {value : String}

/-- No row is stamped later than now. -/
def BotState.Stamped (s : BotState) : Prop := ∀ row ∈ s.rows, row.drippedAt ≤ s.now

/-- What a step does to the clock and to the table. -/
theorem botStep_cases {e : BotEvent} (h : botStep cfg s e = some s') :
    s.now ≤ s'.now ∧ (s'.rows = s.rows ∨
      ∃ i r receipt, e = .act i .insert ∧ s.requests[i]? = some r ∧
        s'.rows = s.rows ++ [botDripRow r.req receipt s.now]) := by
  cases e with
  | tick elapsed =>
    cases h
    exact ⟨Nat.le_add_right _ _, .inl rfl⟩
  | receive secret req =>
    cases h
    exact ⟨Nat.le_refl _, .inl rfl⟩
  | act i act =>
    simp only [botStep, Option.bind_eq_some_iff, Option.map_eq_some_iff, Prod.exists] at h
    obtain ⟨r, hi, rows, p, hadv, rfl⟩ := h
    refine ⟨Nat.le_refl _, ?_⟩
    rcases BotRequest.advance_cases hadv with ⟨rfl, -⟩ | ⟨receipt, rfl, -, rfl, -⟩
    · exact .inl rfl
    · exact .inr ⟨i, r, receipt, rfl, hi, rfl⟩

theorem botStamped_step {e : BotEvent} (hs : s.Stamped) (h : botStep cfg s e = some s') :
    s'.Stamped := by
  intro row hrow
  obtain ⟨hnow, hsame | ⟨i, r, receipt, -, -, hrows⟩⟩ := botStep_cases h
  · rw [hsame] at hrow
    exact (hs row hrow).trans hnow
  · rw [hrows, List.mem_append, List.mem_singleton] at hrow
    rcases hrow with hrow | rfl
    · exact (hs row hrow).trans hnow
    · exact hnow

/-- A run without an insert under the key adds no row of it. -/
theorem rows_of_noInsert {fs : List BotEvent}
    (hno : Along (botStep cfg) (NoInsertOf column value) s fs)
    (hrun : exec (botStep cfg) s fs = some t) :
    ∀ row ∈ t.rows, row.key column = value → row ∈ s.rows := by
  refine exec_invariant_along (I := fun t => ∀ row ∈ t.rows, row.key column = value → row ∈ s.rows)
    ?_ (fun _ h _ => h) hno hrun
  intro u e u' hu hquiet hstep row hrow hkey
  obtain ⟨-, hsame | ⟨i, r, receipt, rfl, hi, hrows⟩⟩ := botStep_cases hstep
  · rw [hsame] at hrow
    exact hu row hrow hkey
  · rw [hrows, List.mem_append, List.mem_singleton] at hrow
    rcases hrow with hrow | rfl
    · exact hu row hrow hkey
    · refine absurd ?_ (hquiet r hi)
      rw [← hkey]
      cases column <;> rfl

/-- The latest drip under the key is the last to leave the window. -/
theorem lastDripWithinWindow_eq_some {rows : List BotDripRow} {now last : Nat}
    (h : lastDripWithinWindow cfg rows column value now = some last) :
    (∃ row ∈ rows, row.drippedAt = last) ∧ now < last + cfg.window ∧
      ∀ row ∈ rows, row.key column = value →
        row.drippedAt ≤ last ∨ row.drippedAt + cfg.window ≤ now := by
  obtain ⟨hmem, hmax⟩ := List.max?_eq_some_iff.1 h
  obtain ⟨row, hrow, rfl⟩ := List.mem_map.1 hmem
  rw [List.mem_filter, decide_eq_true_eq] at hrow
  refine ⟨⟨row, hrow.1, rfl⟩, hrow.2.2, fun x hx hkey => ?_⟩
  by_cases hin : now < x.drippedAt + cfg.window
  · exact .inl (hmax _ (List.mem_map_of_mem
      (List.mem_filter.2 ⟨hx, decide_eq_true ⟨hkey, hin⟩⟩)))
  · exact .inr (Nat.le_of_not_lt hin)

theorem afterQuery_refused {r : BotRequest} {next : BotPhase} {now : Nat} {rows : List BotDripRow}
    {response : StatusCode × BotErrorResponse} (hnext : next ≠ .refused response)
    (h : r.afterQuery cfg now rows column next = .refused response) :
    ∃ last, lastDripWithinWindow cfg rows column (r.req.key column) now = some last ∧
      response = cooldownResponse cfg column last now := by
  unfold BotRequest.afterQuery at h
  split at h
  · rename_i last hlast
    exact ⟨last, hlast, (BotPhase.refused.inj h).symm⟩
  · exact absurd h hnext

/-- A 429 answer comes from a drip inside the window. -/
theorem botStep_query_refused {r : BotRequest} {response : StatusCode × BotErrorResponse}
    (h : botStep cfg s (.act i (.query column)) = some s') (hr : s'.requests[i]? = some r)
    (hphase : r.phase = .refused response) :
    s'.rows = s.rows ∧ s'.now = s.now ∧
      ∃ last, lastDripWithinWindow cfg s.rows column (r.req.key column) s.now = some last ∧
        response = cooldownResponse cfg column last s.now := by
  simp only [botStep, Option.bind_eq_some_iff, Option.map_eq_some_iff, Prod.exists] at h
  obtain ⟨r₀, hi, rows, p, hadv, rfl⟩ := h
  rcases getElem?_set_cases hr with ⟨-, rfl⟩ | ⟨hne, -⟩
  · dsimp only at hphase
    subst hphase
    cases column with
    | address =>
      cases hp : r₀.phase <;> simp only [BotRequest.advance, hp, reduceCtorEq] at hadv
      obtain ⟨rfl, hquery⟩ := Prod.mk.inj (Option.some.inj hadv)
      exact ⟨rfl, rfl, afterQuery_refused (fun h => BotPhase.noConfusion h) hquery⟩
    | discordUserId =>
      cases hp : r₀.phase <;> simp only [BotRequest.advance, hp, reduceCtorEq] at hadv
      obtain ⟨rfl, hquery⟩ := Prod.mk.inj (Option.some.inj hadv)
      exact ⟨rfl, rfl, afterQuery_refused (fun h => BotPhase.noConfusion h) hquery⟩
  · exact absurd rfl hne

/-- The bot's hint is sound: taking whole seconds from the cooldown rounds up. -/
theorem bot_hintSound (hfits : cfg.IntervalFits) (hs : s.Stamped) : s.HintSound cfg i column := by
  intro s' r response hint h hr hphase hhint
  obtain ⟨hrows, hnow, last, hlast, hresponse⟩ := botStep_query_refused h hr hphase
  obtain ⟨⟨newest, hnewest, hstamp⟩, hinside, hlatest⟩ := lastDripWithinWindow_eq_some hlast
  have hpast : last ≤ s.now := hstamp ▸ hs newest hnewest
  rw [(Prod.mk.inj hresponse).2] at hhint
  have hint_eq : hint.toInt =
      ((cfg.botDripRateLimitSecs.toNat - (s.now - last) / 1000000 : Nat) : Int) := by
    rw [← Option.some.inj hhint, UInt64.toInt64_ofNat', Int64.toInt_ofNat_of_lt]
    unfold BotConfig.IntervalFits BotConfig.window at hfits
    omega
  rw [hint_eq]
  refine ⟨by omega, fun fs t hno hrun hwait => ?_⟩
  apply lastDripWithinWindow_eq_none.2
  intro row hrow hkey
  have hold : row ∈ s.rows := hrows ▸ rows_of_noInsert hno hrun row hrow hkey
  rw [hnow] at hwait
  have hwindow : cfg.window = cfg.botDripRateLimitSecs.toNat * 1000000 := rfl
  rcases hlatest row hold hkey with hle | hout
  · omega
  · omega

end Bot

/-! ## Both -/

/-- **Retry hints.** -/
theorem retry_hints_sound_iff {dripAmount window start : Nat} {es : List WebEvent} {s : WebState}
    (hweb : exec (webStep dripAmount) (WebState.start window start) es = some s)
    {cfg : BotConfig} (hfits : cfg.IntervalFits) {b₀ b : BotState} (hpast : b₀.Stamped)
    {fs : List BotEvent} (hbot : exec (botStep cfg) b₀ fs = some b) :
    (∀ i, s.HintSound dripAmount i ↔ s.WholeSeconds i) ∧
      ∀ i column, b.HintSound cfg i column := by
  have hs : s.Stamped := by
    refine exec_invariant (fun _ _ _ h he => stamped_step h he) ?_ hweb
    intro a last hlast
    cases hlast
  have hb : b.Stamped := exec_invariant (fun _ _ _ h he => botStamped_step h he) hpast hbot
  refine ⟨fun i => ⟨wholeSeconds_of_hintSound hs, hintSound_of_wholeSeconds hs⟩, ?_⟩
  intro i column
  exact bot_hintSound hfits hb

/-- A drip at instant 0, and a second request that is checked after `wait` nanoseconds. -/
def dripAndReturn (wait : Nat) : List WebEvent :=
  [.receive "lig1a", .act 0 .check, .act 0 (.submit "ltx1x"), .act 0 .dripOk, .act 0 .record,
    .tick wait, .receive "lig1a"]

/-- A bot's drip at instant 0, and a second request for the same address and user, admitted after
half an hour. -/
def impatientRun : List BotEvent :=
  [.receive (some "s3cret") (newcomerRequest "lig1a" "42"),
    .act 0 .gate, .act 0 (.query .address), .act 0 (.query .discordUserId),
    .act 0 (.dripOk "ltx1x"), .act 0 .insert, .tick 1800000000,
    .receive (some "s3cret") (newcomerRequest "lig1a" "42"), .act 1 .gate]

/-- After half an hour the hint is half an hour of the hour, and half an hour less than the bot's
five days. -/
theorem return_after_half_an_hour :
    ∃ s, exec (webStep 5) (WebState.start 3600000000000 0) (dripAndReturn 1800000000000) = some s ∧
      s.HintSound 5 1 ∧ ∃ b, exec (botStep botConfig) emptyBotState impatientRun = some b ∧
        (∃ b' r response, botStep botConfig b (.act 1 (.query .address)) = some b' ∧
          b'.requests[1]? = some r ∧ r.phase = .refused (.tooManyRequests, response) ∧
          response.retryAfterSecs = some 430200) ∧
        b.HintSound botConfig 1 .address := by
  obtain ⟨s, hs⟩ : ∃ s, exec (webStep 5) (WebState.start 3600000000000 0)
      (dripAndReturn 1800000000000) = some s := ⟨_, rfl⟩
  obtain ⟨b, hb⟩ : ∃ b, exec (botStep botConfig) emptyBotState impatientRun = some b := ⟨_, rfl⟩
  have hfits : botConfig.IntervalFits := by
    unfold BotConfig.IntervalFits
    decide
  have hpast : emptyBotState.Stamped := by
    intro row hrow
    cases hrow
  obtain ⟨hiff, hbot⟩ := retry_hints_sound_iff hs hfits hpast hb
  refine ⟨s, hs, (hiff 1).2 ?_, b, hb, ?_, hbot 1 .address⟩
  · intro r last hi hp hlast _
    cases hs
    cases hi
    cases hlast
    rfl
  · cases hb
    exact ⟨_, _, _, rfl, rfl, rfl, rfl⟩

/-- Half a second before the hour is over the hint is zero seconds, and the address is still
blocked. -/
theorem return_half_a_second_early :
    ∃ s, exec (webStep 5) (WebState.start 3600000000000 0) (dripAndReturn 3599500000000) = some s ∧
      (∃ s' r response, webStep 5 s (.act 1 .check) = some s' ∧ s'.requests[1]? = some r ∧
        r.phase = .refused (.tooManyRequests, response) ∧ response.retryAfterSecs = some 0 ∧
        s'.limiter.check r.address s'.now = .blocked 500000000) ∧
      ¬ s.HintSound 5 1 := by
  refine ⟨_, rfl, ⟨_, _, _, rfl, rfl, rfl, rfl, rfl⟩, fun hsound => ?_⟩
  have hpass := (hsound _ _ _ _ rfl rfl rfl rfl).2 [] _ trivial rfl (Nat.le_refl _)
  exact absurd hpass (by decide)

end LigateApi.Drip
