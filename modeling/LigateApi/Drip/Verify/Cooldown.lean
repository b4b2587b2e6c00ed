import LigateApi.Drip.BotDrip

/-!
# One bot drip per address and user

The two cooldown queries and the `INSERT` they guard are separate statements with `Signer::drip` in
between. For each of the two keys the table bounds the drips as long as no query on the key is run
while another request with the same key is past its own query and not answered yet
(`NoOverlappingQuery`). The invariant speaks of one key at a time, and the step lemma is proved for
both at once.
-/

namespace LigateApi.Drip

open Lib.Run

variable {cfg : BotConfig} {s s' t : BotState} {r : BotRequest} {c : CooldownColumn}

/-! ## The property -/

/-- Any two Ok answers with the same address or the same user have left stamps a window apart. -/
def BotState.Spaced (cfg : BotConfig) (s : BotState) : Prop :=
  ∀ (c : CooldownColumn) (i j : Nat) (r r' : BotRequest), i ≠ j →
    s.requests[i]? = some r → s.requests[j]? = some r' → r.req.key c = r'.req.key c →
    ∀ t ∈ r.phase.drippedAt, ∀ t' ∈ r'.phase.drippedAt,
      t + cfg.window ≤ t' ∨ t' + cfg.window ≤ t

/-- A query runs only while no other request with the same key is past its own. -/
def NoOverlappingQuery (s : BotState) : BotEvent → Prop
  | .act i (.query c) =>
    ∀ r ∈ s.requests[i]?, ∀ r' ∈ s.requests, r'.req.key c = r.req.key c →
      r'.phase.inFlight c = false
  | _ => True

instance (s : BotState) : ∀ e, Decidable (NoOverlappingQuery s e)
  | .act i (.query c) => inferInstanceAs (Decidable (∀ r ∈ s.requests[i]?, ∀ r' ∈ s.requests,
      r'.req.key c = r.req.key c → r'.phase.inFlight c = false))
  | .act _ .gate => .isTrue trivial
  | .act _ .queryFailed => .isTrue trivial
  | .act _ (.dripErr _) => .isTrue trivial
  | .act _ (.dripOk _) => .isTrue trivial
  | .act _ .insert => .isTrue trivial
  | .act _ .insertFailed => .isTrue trivial
  | .tick _ => .isTrue trivial
  | .receive _ _ => .isTrue trivial

/-! ## The invariant -/

/-- The rows under the key of a request are all a window old. -/
def Clear (cfg : BotConfig) (c : CooldownColumn) (s : BotState) (r : BotRequest) : Prop :=
  ∀ row ∈ s.rows, row.key c = r.req.key c → row.drippedAt + cfg.window ≤ s.now

/-- What two requests with the same key have to do with each other. -/
structure KeptApart (cfg : BotConfig) (c : CooldownColumn) (r r' : BotRequest) : Prop where
  exclusive : r.req.key c = r'.req.key c →
    ¬ (r.phase.inFlight c = true ∧ r'.phase.inFlight c = true)
  spaced : r.req.key c = r'.req.key c → ∀ t ∈ r.phase.drippedAt, ∀ t' ∈ r'.phase.drippedAt,
    t + cfg.window ≤ t' ∨ t' + cfg.window ≤ t

/-- What the table says about the requests, for one of the keys. -/
structure CooldownInv (cfg : BotConfig) (c : CooldownColumn) (s : BotState) : Prop where
  clear : ∀ (i : Nat) (r : BotRequest), s.requests[i]? = some r → r.phase.inFlight c = true →
    Clear cfg c s r
  recorded : ∀ (i : Nat) (r : BotRequest), s.requests[i]? = some r → ∀ t ∈ r.phase.drippedAt,
    ∃ row ∈ s.rows, row.key c = r.req.key c ∧ row.drippedAt = t
  apart : Pairs (KeptApart cfg c) s.requests

theorem KeptApart.symm {r' : BotRequest} (h : KeptApart cfg c r r') : KeptApart cfg c r' r where
  exclusive e hb := h.exclusive e.symm hb.symm
  spaced e t ht t' ht' := (h.spaced e.symm t' ht' t ht).symm

theorem cooldownInv_of_no_requests (h : s.requests = []) : CooldownInv cfg c s where
  clear i r hi := by simp [h] at hi
  recorded i r hi := by simp [h] at hi
  apart i j r r' _ hi := by simp [h] at hi

theorem spaced_of_cooldownInv (h : ∀ c, CooldownInv cfg c s) : s.Spaced cfg :=
  fun c i j r r' hij hi hj hkey => ((h c).apart i j r r' hij hi hj).spaced hkey

/-! ## One step -/

theorem afterQuery_inFlight {c' : CooldownColumn} {next : BotPhase}
    (h : (r.afterQuery cfg s.now s.rows c next).inFlight c' = true) :
    Clear cfg c s r ∧ next.inFlight c' = true := by
  unfold BotRequest.afterQuery at h
  split at h
  · cases h
  · rename_i hnone
    exact ⟨lastDripWithinWindow_eq_none.1 hnone, h⟩

theorem afterQuery_drippedAt {next : BotPhase} (h : next.drippedAt = none) :
    (r.afterQuery cfg s.now s.rows c next).drippedAt = none := by
  unfold BotRequest.afterQuery
  split
  · rfl
  · exact h

/-- Everything a step of a request can do. Without a row it leaves no stamp, and it is past a query
only if it was before or has just found the key clear; with a row it was past both queries. -/
theorem BotRequest.advance_cases {a : BotAct} {rows : List BotDripRow} {p : BotPhase}
    (h : r.advance cfg s.now s.rows a = some (rows, p)) :
    (rows = s.rows ∧ p.drippedAt = none ∧ ∀ c, p.inFlight c = true →
      r.phase.inFlight c = true ∨ a = .query c ∧ Clear cfg c s r) ∨
    (∃ receipt, a = .insert ∧ r.phase = .dripped receipt ∧
      rows = s.rows ++ [botDripRow r.req receipt s.now] ∧
      p.drippedAt = some s.now ∧ ∀ c, p.inFlight c = false) := by
  cases a with
  | gate =>
    cases hp : r.phase <;> simp only [advance, hp, reduceCtorEq] at h
    split at h <;> cases h <;> exact .inl ⟨rfl, rfl, nofun⟩
  | query column =>
    cases column with
    | address =>
      cases hp : r.phase <;> simp only [advance, hp, reduceCtorEq] at h
      cases h
      refine .inl ⟨rfl, afterQuery_drippedAt rfl, fun c hc => ?_⟩
      obtain ⟨hclear, hnext⟩ := afterQuery_inFlight hc
      cases c with
      | address => exact .inr ⟨rfl, hclear⟩
      | discordUserId => cases hnext
    | discordUserId =>
      cases hp : r.phase <;> simp only [advance, hp, reduceCtorEq] at h
      cases h
      refine .inl ⟨rfl, afterQuery_drippedAt rfl, fun c hc => ?_⟩
      obtain ⟨hclear, hnext⟩ := afterQuery_inFlight hc
      cases c with
      | address => exact .inl rfl
      | discordUserId => exact .inr ⟨rfl, hclear⟩
  | queryFailed =>
    cases hp : r.phase <;> simp only [advance, hp, reduceCtorEq] at h <;> cases h <;>
      exact .inl ⟨rfl, rfl, nofun⟩
  | dripErr e =>
    cases hp : r.phase <;> simp only [advance, hp, reduceCtorEq] at h
    cases h
    exact .inl ⟨rfl, rfl, nofun⟩
  | dripOk txHash =>
    cases hp : r.phase <;> simp only [advance, hp, reduceCtorEq] at h
    cases h
    exact .inl ⟨rfl, rfl, fun c _ => .inl (by cases c <;> rfl)⟩
  | insert =>
    cases hp : r.phase <;> simp only [advance, hp, reduceCtorEq] at h
    cases h
    exact .inr ⟨_, rfl, rfl, rfl, rfl, fun _ => rfl⟩
  | insertFailed =>
    cases hp : r.phase <;> simp only [advance, hp, reduceCtorEq] at h
    cases h
    exact .inl ⟨rfl, rfl, nofun⟩

theorem Clear.tick {elapsed : Nat} (h : Clear cfg c s r) :
    Clear cfg c { s with now := s.now + elapsed } r :=
  fun row hrow hkey => (h row hrow hkey).trans (Nat.le_add_right ..)

/-- Next to a request that is past its query the others with the key are not. -/
theorem CooldownInv.others_idle (h : CooldownInv cfg c s) {i : Nat} (hi : s.requests[i]? = some r)
    (hr : r.phase.inFlight c = true) (j : Nat) (x : BotRequest) (hj : j ≠ i)
    (hx : s.requests[j]? = some x) (hkey : x.req.key c = r.req.key c) :
    x.phase.inFlight c = false := by
  by_contra hf
  rw [Bool.not_eq_false] at hf
  exact (h.apart i j r x hj.symm hi hx).exclusive hkey.symm ⟨hr, hf⟩

/-- A step of one request that inserts nothing. -/
theorem CooldownInv.advance (h : CooldownInv cfg c s) {i : Nat} {p : BotPhase}
    (hi : s.requests[i]? = some r) (hstamp : p.drippedAt = none)
    (hflight : p.inFlight c = true → Clear cfg c s r ∧
      ∀ (j : Nat) (x : BotRequest), j ≠ i → s.requests[j]? = some x → x.req.key c = r.req.key c →
        x.phase.inFlight c = false) :
    CooldownInv cfg c { s with requests := s.requests.set i { r with phase := p } } where
  clear j x hx hf := by
    rcases getElem?_set_cases hx with ⟨rfl, rfl⟩ | ⟨-, hx⟩
    · exact (hflight hf).1
    · exact h.clear j x hx hf
  recorded j x hx t ht := by
    rcases getElem?_set_cases hx with ⟨rfl, rfl⟩ | ⟨-, hx⟩
    · simp [hstamp] at ht
    · exact h.recorded j x hx t ht
  apart := by
    refine Pairs.set (fun _ _ => KeptApart.symm) h.apart fun j x hj hx => ⟨?_, ?_⟩
    · rintro hkey ⟨hf, hfx⟩
      rw [(hflight hf).2 j x hj hx hkey.symm] at hfx
      cases hfx
    · intro _ t ht
      simp [hstamp] at ht

/-- The `INSERT` of a request that is past its query. -/
theorem CooldownInv.insert (h : CooldownInv cfg c s) {i : Nat} {p : BotPhase} {row : BotDripRow}
    (hi : s.requests[i]? = some r) (hr : r.phase.inFlight c = true) (hkey : row.key c = r.req.key c)
    (hrow : row.drippedAt = s.now) (hstamp : p.drippedAt = some s.now)
    (hp : p.inFlight c = false) :
    CooldownInv cfg c
      { s with rows := s.rows ++ [row], requests := s.requests.set i { r with phase := p } } := by
  have hother := h.others_idle hi hr
  refine ⟨fun j x hx hf => ?_, fun j x hx t ht => ?_, ?_⟩
  · -- the new row is under no key that another request is past its query with
    rcases getElem?_set_cases hx with ⟨rfl, rfl⟩ | ⟨hj, hx⟩
    · rw [hp] at hf
      cases hf
    · intro y hy hykey
      rcases List.mem_append.1 hy with hy | hy
      · exact h.clear j x hx hf y hy hykey
      · rw [List.mem_singleton.1 hy, hkey] at hykey
        rw [hother j x hj hx hykey.symm] at hf
        cases hf
  · rcases getElem?_set_cases hx with ⟨rfl, rfl⟩ | ⟨-, hx⟩
    · rw [hstamp] at ht
      cases ht
      exact ⟨row, List.mem_append_right _ (List.mem_singleton.2 rfl), hkey, hrow⟩
    · obtain ⟨y, hy, hykey, hyt⟩ := h.recorded j x hx t ht
      exact ⟨y, List.mem_append_left _ hy, hykey, hyt⟩
  · refine Pairs.set (fun _ _ => KeptApart.symm) h.apart fun j x hj hx => ⟨?_, ?_⟩
    · rintro - ⟨hf, -⟩
      rw [hp] at hf
      cases hf
    · -- an earlier stamp is in the table, which was clear when the request looked
      intro hkeyx t ht t' ht'
      rw [hstamp] at ht
      cases ht
      obtain ⟨y, hy, hykey, rfl⟩ := h.recorded j x hx t' ht'
      exact .inr (h.clear i r hi hr y hy (hykey.trans hkeyx.symm))

/-- **Step lemma**, for either key. -/
theorem cooldownInv_step {e : BotEvent} (h : CooldownInv cfg c s) (hn : NoOverlappingQuery s e)
    (he : botStep cfg s e = some s') : CooldownInv cfg c s' := by
  cases e with
  | tick elapsed =>
    cases he
    exact ⟨fun i r hi hf => (h.clear i r hi hf).tick, h.recorded, h.apart⟩
  | receive secret req =>
    cases he
    refine ⟨fun i r hi hf => ?_, fun i r hi t ht => ?_, ?_⟩
    · rcases getElem?_snoc_cases hi with hi | ⟨-, rfl⟩
      · exact h.clear i r hi hf
      · cases hf
    · rcases getElem?_snoc_cases hi with hi | ⟨-, rfl⟩
      · exact h.recorded i r hi t ht
      · cases ht
    · refine Pairs.snoc (fun _ _ => KeptApart.symm) h.apart fun _ => ⟨?_, ?_⟩
      · rintro - ⟨hf, -⟩
        cases hf
      · intro _ t ht
        cases ht
  | act i a =>
    simp only [botStep, Option.bind_eq_some_iff, Option.map_eq_some_iff, Prod.exists] at he
    obtain ⟨r, hi, rows, p, hadv, rfl⟩ := he
    rcases BotRequest.advance_cases hadv with ⟨rfl, hstamp, hflight⟩ |
      ⟨receipt, -, hphase, rfl, hstamp, hp⟩
    · apply h.advance hi hstamp
      intro hf
      rcases hflight c hf with hr | ⟨rfl, hclear⟩
      · exact ⟨h.clear i r hi hr, h.others_idle hi hr⟩
      · exact ⟨hclear, fun j x _ hx hkey => hn r hi x (List.mem_of_getElem? hx) hkey⟩
    · refine h.insert hi ?_ ?_ rfl hstamp (hp c)
      · rw [hphase]
        cases c <;> rfl
      · cases c <;> rfl

/-! ## Whole runs -/

/-- **One drip per window and key.** Whatever the table holds at the start, along a run whose
queries do not overlap the stamps of any two Ok answers with the same address, and of any two with
the same user, are a window apart. -/
theorem stamps_spaced_of_no_overlapping_query (hs : s.requests = []) {es : List BotEvent}
    (hn : Along (botStep cfg) NoOverlappingQuery s es) (hrun : exec (botStep cfg) s es = some t) :
    t.Spaced cfg := by
  apply spaced_of_cooldownInv
  intro c
  exact exec_invariant_along (fun _ _ _ h hn he => cooldownInv_step h hn he)
    (cooldownInv_of_no_requests hs) hn hrun

/-- A cooldown of five days and a newcomer's amount of 100 AVOW. -/
def botConfig : BotConfig where
  faucetBotSecret := some "s3cret"
  botDripRateLimitSecs := 432000
  botDripAmountNewcomer := 100000000000
  botDripAmountRegular := 250000000000
  botDripAmountVeteran := 500000000000
  botDripAmountElder := 1000000000000

def newcomerRequest (address user : String) : DripBotRequest :=
  ⟨address, user, .newcomer, 100000000000, none⟩

def emptyBotState : BotState := ⟨0, [], []⟩

/-- One user's drip of today, and one after the five days. -/
def patientRun : List BotEvent :=
  [.receive (some "s3cret") (newcomerRequest "lig1a" "42"),
    .receive (some "s3cret") (newcomerRequest "lig1a" "42"),
    .act 0 .gate, .act 0 (.query .address), .act 0 (.query .discordUserId),
    .act 0 (.dripOk "ltx1x"), .act 0 .insert, .tick 432000000000,
    .act 1 .gate, .act 1 (.query .address), .act 1 (.query .discordUserId),
    .act 1 (.dripOk "ltx1y"), .act 1 .insert]

theorem patientRun_spaced :
    ∃ t, exec (botStep botConfig) emptyBotState patientRun = some t ∧
      t.rows.map BotDripRow.drippedAt = [0, 432000000000] ∧ t.Spaced botConfig := by
  have hpatient : Along (botStep botConfig) NoOverlappingQuery emptyBotState patientRun := by
    decide
  obtain ⟨t, hrun⟩ : ∃ t, exec (botStep botConfig) emptyBotState patientRun = some t := ⟨_, rfl⟩
  refine ⟨t, hrun, ?_, stamps_spaced_of_no_overlapping_query rfl hpatient hrun⟩
  cases hrun
  rfl

/-- Two requests that both look before either writes. -/
def hastyRun (req req' : DripBotRequest) : List BotEvent :=
  [.receive (some "s3cret") req, .receive (some "s3cret") req', .act 0 .gate, .act 1 .gate,
    .act 0 (.query .address), .act 0 (.query .discordUserId),
    .act 1 (.query .address), .act 1 (.query .discordUserId),
    .act 0 (.dripOk "ltx1x"), .act 1 (.dripOk "ltx1y"), .act 0 .insert, .act 1 .insert]

/-- One address for two users, and one user for two addresses: both drip twice at once. -/
theorem hastyRuns_drip_twice :
    (∃ t, exec (botStep botConfig) emptyBotState
        (hastyRun (newcomerRequest "lig1a" "42") (newcomerRequest "lig1a" "43")) = some t ∧
      ¬ t.Spaced botConfig) ∧
    ∃ t, exec (botStep botConfig) emptyBotState
        (hastyRun (newcomerRequest "lig1a" "42") (newcomerRequest "lig1b" "42")) = some t ∧
      ¬ t.Spaced botConfig := by
  refine ⟨⟨_, rfl, fun h => ?_⟩, ⟨_, rfl, fun h => ?_⟩⟩
  · have := h .address 0 1 _ _ (by decide) rfl rfl rfl 0 rfl 0 rfl
    exact absurd this (by decide)
  · have := h .discordUserId 0 1 _ _ (by decide) rfl rfl rfl 0 rfl 0 rfl
    exact absurd this (by decide)

end LigateApi.Drip
