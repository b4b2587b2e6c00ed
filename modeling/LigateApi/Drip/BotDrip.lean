import LigateApi.Drip.WebDrip

/-!
# `POST /v1/drip-bot`

The Discord bot's faucet. A request is admitted if it carries the shared secret and claims the
amount of its tier; then `last_drip_within_window` is asked for its address and for its Discord
user, `Signer::drip` is called, and a row of `bot_drips` is inserted. The table is shared and each
statement is a transaction of its own, so other requests run in between: `botStep` is the system of
any number of requests over the table and a clock that only moves forward. `TIMESTAMPTZ` counts
microseconds.
-/

namespace LigateApi.Drip

inductive Tier
  | newcomer
  | regular
  | veteran
  | elder
  deriving DecidableEq, Repr

/-- `Tier::as_str` -/
def Tier.asStr : Tier → String
  | .newcomer => "newcomer"
  | .regular => "regular"
  | .veteran => "veteran"
  | .elder => "elder"

/-- The part of `Config` the endpoint reads. -/
structure BotConfig where
  faucetBotSecret : Option String
  botDripRateLimitSecs : UInt64
  botDripAmountNewcomer : Nat
  botDripAmountRegular : Nat
  botDripAmountVeteran : Nat
  botDripAmountElder : Nat

/-- Instants in microseconds. -/
structure TierEvidence where
  joinedAt : Option Int
  accountCreatedAt : Option Int
  deriving DecidableEq, Repr

structure DripBotRequest where
  address : String
  discordUserId : String
  tier : Tier
  amountNano : Nat
  tierEvidence : Option TierEvidence
  deriving DecidableEq, Repr

/-- `DripBotResponse`, without the amount repeated in AVOW; the instant is kept as such, not as its
text. -/
structure DripBotResponse where
  address : String
  discordUserId : String
  txHash : String
  amountNano : Nat
  tier : Tier
  nextDripAvailableAt : Nat
  deriving DecidableEq, Repr

structure BotErrorResponse where
  error : String
  retryAfterSecs : Option Int64
  deriving DecidableEq, Repr

/-! ## Authentication and amount -/

/-- `constant_time_eq` -/
def constantTimeEq (a b : List UInt8) : Bool :=
  if a.length ≠ b.length then false
  else (a.zip b).foldl (fun diff p => diff ||| (p.1 ^^^ p.2)) 0 = 0

/-- The configured amount of a tier. -/
def BotConfig.tierAmount (cfg : BotConfig) : Tier → Nat
  | .newcomer => cfg.botDripAmountNewcomer
  | .regular => cfg.botDripAmountRegular
  | .veteran => cfg.botDripAmountVeteran
  | .elder => cfg.botDripAmountElder

/-- The first two parts of `drip_bot`; `secret` is the `X-Bot-Secret` header as text. -/
def botGate (cfg : BotConfig) (secret : Option String) (req : DripBotRequest) :
    Except (StatusCode × BotErrorResponse) Unit :=
  match cfg.faucetBotSecret with
  | none => .error (.serviceUnavailable,
      ⟨"bot endpoint disabled (FAUCET_BOT_SECRET unset)", none⟩)
  | some configured =>
    let provided := secret.getD ""
    if ¬ constantTimeEq provided.toUTF8.data.toList configured.toUTF8.data.toList then
      .error (.unauthorized, ⟨"unauthorized", none⟩)
    else
      let expected := cfg.tierAmount req.tier
      if req.amountNano ≠ expected then
        .error (.badRequest, ⟨"amount " ++ toString req.amountNano ++ " doesn't match tier '" ++
          req.tier.asStr ++ "' configured amount " ++ toString expected, none⟩)
      else .ok ()

/-! ## Cooldown -/

structure BotDripRow where
  address : String
  discordUserId : String
  amountNano : Nat
  txHash : String
  tier : String
  serverTenureDays : Option Int32
  accountAgeDays : Option Int32
  drippedAt : Nat
  deriving DecidableEq, Repr

/-- The two keys of the cooldown. -/
inductive CooldownColumn
  | address
  | discordUserId
  deriving DecidableEq, Repr

def BotDripRow.key (row : BotDripRow) : CooldownColumn → String
  | .address => row.address
  | .discordUserId => row.discordUserId

def DripBotRequest.key (req : DripBotRequest) : CooldownColumn → String
  | .address => req.address
  | .discordUserId => req.discordUserId

def CooldownColumn.label : CooldownColumn → String
  | .address => "address"
  | .discordUserId => "Discord user"

/-- The cooldown in microseconds. -/
def BotConfig.window (cfg : BotConfig) : Nat := cfg.botDripRateLimitSecs.toNat * 1000000

/-- `last_drip_within_window`: the latest `dripped_at` under the key that is after
`NOW() - window`. -/
def lastDripWithinWindow (cfg : BotConfig) (rows : List BotDripRow) (column : CooldownColumn)
    (value : String) (now : Nat) : Option Nat :=
  ((rows.filter fun row => row.key column = value ∧ now < row.drippedAt + cfg.window).map
    BotDripRow.drippedAt).max?

/-- The 429 answer: seconds since the last drip, truncated, taken from the cooldown. -/
def cooldownResponse (cfg : BotConfig) (column : CooldownColumn) (last now : Nat) :
    StatusCode × BotErrorResponse :=
  let retryAfter := cfg.botDripRateLimitSecs.toNat - (now - last) / 1000000
  (.tooManyRequests,
    { error := column.label ++ " rate-limited; retry in " ++ toString retryAfter ++ " seconds",
      retryAfterSecs := some (UInt64.ofNat retryAfter).toInt64 })

/-- The handler's answer to a `SignerError`: the texts of the web faucet. -/
def botSignerErrorResponse (e : SignerError) : StatusCode × BotErrorResponse :=
  ((signerErrorResponse e).1, ⟨(signerErrorResponse e).2.error, none⟩)

/-- `(Utc::now() - t).num_days() as i32` -/
def daysSince (now : Nat) (t : Int) : Int32 := Int32.ofInt (((now : Int) - t).tdiv 86400000000)

/-- The row of an accepted drip. -/
def botDripRow (req : DripBotRequest) (receipt : DripReceipt) (now : Nat) : BotDripRow where
  address := req.address
  discordUserId := req.discordUserId
  amountNano := req.amountNano
  txHash := receipt.txHash
  tier := req.tier.asStr
  serverTenureDays := (req.tierEvidence.bind TierEvidence.joinedAt).map (daysSince now)
  accountAgeDays := (req.tierEvidence.bind TierEvidence.accountCreatedAt).map (daysSince now)
  drippedAt := now

/-- The 200 answer. -/
def dripBotResponse (cfg : BotConfig) (req : DripBotRequest) (receipt : DripReceipt) (now : Nat) :
    DripBotResponse :=
  { address := req.address, discordUserId := req.discordUserId, txHash := receipt.txHash,
    amountNano := receipt.amountNano, tier := req.tier, nextDripAvailableAt := now + cfg.window }

/-! ## Concurrent requests over the table -/

/-- Where a request stands in the handler. -/
inductive BotPhase
  | received (secret : Option String)
  /-- Authenticated, with the amount of its tier; the query by address is next. -/
  | admitted
  /-- The query by address found nothing; the query by user is next. -/
  | addressClear
  /-- Past both queries, inside `Signer::drip`. -/
  | signing
  /-- `Signer::drip` returned `Ok`; the `INSERT` is next. -/
  | dripped (receipt : DripReceipt)
  /-- Answered with 200; `drippedAt` is the stamp of its row, if the `INSERT` went through. -/
  | answered (drippedAt : Option Nat) (response : DripBotResponse)
  | refused (response : StatusCode × BotErrorResponse)
  deriving DecidableEq

structure BotRequest where
  req : DripBotRequest
  phase : BotPhase
  deriving DecidableEq

structure BotState where
  now : Nat
  rows : List BotDripRow
  requests : List BotRequest

/-- The steps of one request. -/
inductive BotAct
  | gate
  | query (column : CooldownColumn)
  /-- A cooldown query fails. -/
  | queryFailed
  | dripErr (e : SignerError)
  | dripOk (txHash : String)
  | insert
  /-- The `INSERT` fails, which is only logged. -/
  | insertFailed
  deriving DecidableEq, Repr

inductive BotEvent
  | tick (elapsed : Nat)
  | receive (secret : Option String) (req : DripBotRequest)
  | act (i : Nat) (a : BotAct)
  deriving DecidableEq, Repr

/-- What a cooldown query leads to. -/
def BotRequest.afterQuery (cfg : BotConfig) (now : Nat) (rows : List BotDripRow) (r : BotRequest)
    (column : CooldownColumn) (next : BotPhase) : BotPhase :=
  match lastDripWithinWindow cfg rows column (r.req.key column) now with
  | some last => .refused (cooldownResponse cfg column last now)
  | none => next

/-- One step of the handler: the table and the request's phase after it. -/
def BotRequest.advance (cfg : BotConfig) (now : Nat) (rows : List BotDripRow) (r : BotRequest) :
    BotAct → Option (List BotDripRow × BotPhase)
  | .gate =>
    match r.phase with
    | .received secret =>
      match botGate cfg secret r.req with
      | .ok () => some (rows, .admitted)
      | .error response => some (rows, .refused response)
    | _ => none
  | .query .address =>
    match r.phase with
    | .admitted => some (rows, r.afterQuery cfg now rows .address .addressClear)
    | _ => none
  | .query .discordUserId =>
    match r.phase with
    | .addressClear => some (rows, r.afterQuery cfg now rows .discordUserId .signing)
    | _ => none
  | .queryFailed =>
    match r.phase with
    | .admitted | .addressClear =>
      some (rows, .refused (.internalServerError, ⟨"internal error during cooldown check", none⟩))
    | _ => none
  | .dripErr e =>
    match r.phase with
    | .signing => some (rows, .refused (botSignerErrorResponse e))
    | _ => none
  | .dripOk txHash =>
    match r.phase with
    | .signing => some (rows, .dripped ⟨txHash, r.req.amountNano⟩)
    | _ => none
  | .insert =>
    match r.phase with
    | .dripped receipt =>
      some (rows ++ [botDripRow r.req receipt now],
        .answered (some now) (dripBotResponse cfg r.req receipt now))
    | _ => none
  | .insertFailed =>
    match r.phase with
    | .dripped receipt => some (rows, .answered none (dripBotResponse cfg r.req receipt now))
    | _ => none

/-- One step of the bot's faucet. -/
def botStep (cfg : BotConfig) (s : BotState) : BotEvent → Option BotState
  | .tick elapsed => some { s with now := s.now + elapsed }
  | .receive secret req => some { s with requests := s.requests ++ [⟨req, .received secret⟩] }
  | .act i a =>
    s.requests[i]?.bind fun r =>
      (r.advance cfg s.now s.rows a).map fun (rows, phase) =>
        { s with rows, requests := s.requests.set i { r with phase } }

/-! ## What a phase says -/

/-- The stamp of the row an Ok answer has left. -/
def BotPhase.drippedAt : BotPhase → Option Nat
  | .answered t _ => t
  | _ => none

/-- The request has passed its query on the column and is not answered yet. -/
def BotPhase.inFlight : BotPhase → CooldownColumn → Bool
  | .addressClear, .address => true
  | .signing, _ => true
  | .dripped _, _ => true
  | _, _ => false

theorem lastDripWithinWindow_eq_none {cfg : BotConfig} {rows : List BotDripRow}
    {column : CooldownColumn} {value : String} {now : Nat} :
    lastDripWithinWindow cfg rows column value now = none ↔
      ∀ row ∈ rows, row.key column = value → row.drippedAt + cfg.window ≤ now := by
  simp [lastDripWithinWindow, List.max?_eq_none_iff, List.filter_eq_nil_iff]

theorem foldl_diff_eq_zero {l : List (UInt8 × UInt8)} {d : UInt8} :
    l.foldl (fun diff p => diff ||| (p.1 ^^^ p.2)) d = 0 ↔ d = 0 ∧ ∀ p ∈ l, p.1 = p.2 := by
  induction l generalizing d with
  | nil => simp
  | cons p l ih =>
    rw [List.foldl_cons, ih, UInt8.or_eq_zero_iff, UInt8.xor_eq_zero_iff, List.forall_mem_cons,
      and_assoc]

theorem constantTimeEq_iff {a b : List UInt8} : constantTimeEq a b = true ↔ a = b := by
  unfold constantTimeEq
  by_cases hlen : a.length = b.length
  · rw [if_neg (not_not.2 hlen), decide_eq_true_eq, foldl_diff_eq_zero, and_iff_right rfl]
    induction a generalizing b with
    | nil => simp [List.eq_nil_of_length_eq_zero hlen.symm]
    | cons x a ih =>
      cases b with
      | nil => cases hlen
      | cons y b =>
        rw [List.zip_cons_cons, List.forall_mem_cons, ih (Nat.succ.inj hlen), List.cons.injEq]
  · rw [if_pos hlen]
    simp only [Bool.false_eq_true, false_iff]
    exact fun h => hlen (congrArg List.length h)

/-- Past the gate is exactly who carries the configured secret and claims the amount of the tier. -/
theorem botGate_eq_ok {cfg : BotConfig} {secret : Option String} {req : DripBotRequest} :
    botGate cfg secret req = .ok () ↔
      cfg.faucetBotSecret = some (secret.getD "") ∧ req.amountNano = cfg.tierAmount req.tier := by
  unfold botGate
  cases cfg.faucetBotSecret with
  | none => simp
  | some configured =>
    have hsecret : constantTimeEq (secret.getD "").toUTF8.data.toList
        configured.toUTF8.data.toList = true ↔ configured = secret.getD "" := by
      rw [constantTimeEq_iff, Array.toList_inj]
      constructor
      · intro h
        exact (String.toByteArray_inj.1 (ByteArray.ext h)).symm
      · rintro rfl
        rfl
    simp only [Option.some.injEq]
    rw [← hsecret]
    split
    · rename_i hs
      simp only [hs, false_and, reduceCtorEq]
    · rename_i hs
      rw [not_not] at hs
      by_cases hamount : req.amountNano = cfg.tierAmount req.tier
      · simp only [hamount, ne_eq, not_true_eq_false, if_false, hs, and_self]
      · simp only [hamount, ne_eq, not_false_eq_true, if_true, hs, and_false, reduceCtorEq]

end LigateApi.Drip
