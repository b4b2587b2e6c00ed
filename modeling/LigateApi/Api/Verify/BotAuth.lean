import LigateApi.Api.Config

/-!
# Who gets past the bot's authentication

`drip_bot` compares the `X-Bot-Secret` header with the configured secret, and takes a header that is
missing or unreadable for the empty text. That fails safe because `Config::from_env` never
configures the empty secret. `HeaderValue::to_str` is the parameter `toStr`; all that is used of it
is that the text it returns has the bytes of the header.
-/

namespace LigateApi.Api

open Drip

/-- `str::as_bytes` -/
def asBytes (s : String) : List UInt8 := s.toUTF8.data.toList

/-- `HeaderValue::to_str`, with its error dropped. -/
abbrev ToStr := List UInt8 → Option String

/-- The first part of `drip_bot`; `header` is the value under `x-bot-secret`. -/
def dripBotAuth (cfg : BotConfig) (toStr : ToStr) (header : Option (List UInt8)) :
    Except (StatusCode × BotErrorResponse) Unit :=
  match cfg.faucetBotSecret with
  | none => .error (.serviceUnavailable,
      ⟨"bot endpoint disabled (FAUCET_BOT_SECRET unset)", none⟩)
  | some configured =>
    let provided := (header.bind toStr).getD ""
    if ¬ constantTimeEq (asBytes provided) (asBytes configured) then
      .error (.unauthorized, ⟨"unauthorized", none⟩)
    else .ok ()

/-- The second part of `drip_bot`. -/
def dripBotAmount (cfg : BotConfig) (req : DripBotRequest) :
    Except (StatusCode × BotErrorResponse) Unit :=
  let expected := cfg.tierAmount req.tier
  if req.amountNano ≠ expected then
    .error (.badRequest, ⟨"amount " ++ toString req.amountNano ++ " doesn't match tier '" ++
      req.tier.asStr ++ "' configured amount " ++ toString expected, none⟩)
  else .ok ()

/-- The gate of the handler is the authentication and then the amount. -/
theorem botGate_eq_auth (cfg : BotConfig) (toStr : ToStr) (header : Option (List UInt8))
    (req : DripBotRequest) : botGate cfg (header.bind toStr) req =
      (dripBotAuth cfg toStr header).bind fun _ => dripBotAmount cfg req := by
  unfold botGate dripBotAuth
  cases cfg.faucetBotSecret with
  | none => rfl
  | some configured =>
    dsimp only
    by_cases h : constantTimeEq (asBytes ((header.bind toStr).getD "")) (asBytes configured) = true
    · rw [if_neg (not_not.2 h : ¬ ¬ constantTimeEq (asBytes _) (asBytes _) = true)]
      exact if_neg (not_not.2 h)
    · rw [if_pos (h : ¬ constantTimeEq (asBytes _) (asBytes _) = true)]
      exact if_pos h

theorem asBytes_inj {s t : String} : asBytes s = asBytes t ↔ s = t := by
  constructor
  · intro h
    exact String.toByteArray_inj.1 (ByteArray.ext (Array.toList_inj.1 h))
  · intro h
    rw [h]

/-- The secret `Config::from_env` configures is the variable's text, unless that is empty. -/
theorem nonEmptyVar_eq_some {env : EnvVars} {name secret : String} :
    nonEmptyVar env name = some secret ↔ env name = .ok secret ∧ secret ≠ "" := by
  unfold nonEmptyVar
  cases env name with
  | error e => simp [Except.toOption]
  | ok s =>
    simp only [Except.toOption, Option.filter_eq_some_iff, Option.some.injEq, Except.ok.injEq]
    constructor
    · intro h
      obtain ⟨rfl, hne⟩ := h
      exact ⟨rfl, by simpa using hne⟩
    · intro h
      obtain ⟨rfl, hne⟩ := h
      exact ⟨rfl, by simpa using hne⟩

/-- Past the authentication is who provides the configured secret, the empty text standing for no
readable header. -/
theorem dripBotAuth_eq_ok {cfg : BotConfig} {toStr : ToStr} {header : Option (List UInt8)} :
    dripBotAuth cfg toStr header = .ok () ↔
      cfg.faucetBotSecret = some ((header.bind toStr).getD "") := by
  unfold dripBotAuth
  cases cfg.faucetBotSecret with
  | none => simp
  | some configured =>
    dsimp only
    rw [Option.some.injEq]
    by_cases h : (header.bind toStr).getD "" = configured
    · rw [if_neg (not_not.2 (constantTimeEq_iff.2 (asBytes_inj.2 h)))]
      exact iff_of_true rfl h.symm
    · rw [if_pos fun heq => h (asBytes_inj.1 (constantTimeEq_iff.1 heq))]
      exact iff_of_false (by simp) fun h' => h h'.symm

section FromEnv

variable {toStr : ToStr} {hexDecode : HexDecode} {env : EnvVars} {cfg : Config}
  {header : Option (List UInt8)}

/-- Without a readable header the empty text is compared, which is never the secret. -/
theorem dripBotAuth_unreadable (hcfg : Config.fromEnv hexDecode env = .ok cfg)
    (h : header.bind toStr = none) : dripBotAuth cfg.bot toStr header ≠ .ok () := by
  intro hok
  have hsecret := dripBotAuth_eq_ok.1 hok
  rw [h, Option.getD_none] at hsecret
  change cfg.faucetBotSecret = some "" at hsecret
  rw [(Config.fromEnv_eq_ok hcfg).2.2] at hsecret
  exact (nonEmptyVar_eq_some.1 hsecret).2 rfl

theorem dripBotAuth_readable (htext : ∀ value text, toStr value = some text → asBytes text = value)
    (hcfg : Config.fromEnv hexDecode env = .ok cfg) {value : List UInt8} {text : String}
    (h : toStr value = some text) : dripBotAuth cfg.bot toStr (some value) = .ok () ↔
      ∃ secret, env "FAUCET_BOT_SECRET" = .ok secret ∧ secret ≠ "" ∧ value = asBytes secret := by
  rw [dripBotAuth_eq_ok, Option.bind_some, h, Option.getD_some, ← htext value text h]
  change cfg.faucetBotSecret = some text ↔ _
  rw [(Config.fromEnv_eq_ok hcfg).2.2, nonEmptyVar_eq_some]
  constructor
  · intro hsecret
    exact ⟨text, hsecret.1, hsecret.2, rfl⟩
  · intro hsecret
    obtain ⟨secret, hset, hne, hbytes⟩ := hsecret
    rw [asBytes_inj.1 hbytes]
    exact ⟨hset, hne⟩

end FromEnv

/-- The comparison is equality of bytes, so under a configuration from the environment a request
gets past the authentication if and only if `FAUCET_BOT_SECRET` is set to a text that is not empty
and the header is there, readable and has its bytes. -/
theorem dripBot_authenticates_exactly_the_secret {toStr : ToStr} {hexDecode : HexDecode} {env : EnvVars}
    {cfg : Config} (htext : ∀ value text, toStr value = some text → asBytes text = value)
    (hcfg : Config.fromEnv hexDecode env = .ok cfg) :
    (∀ a b, constantTimeEq a b = true ↔ a = b) ∧
    (∀ header req, botGate cfg.bot (header.bind toStr) req =
      (dripBotAuth cfg.bot toStr header).bind fun _ => dripBotAmount cfg.bot req) ∧
    (∀ header, dripBotAuth cfg.bot toStr header = .ok () ↔
      ∃ secret value, env "FAUCET_BOT_SECRET" = .ok secret ∧ secret ≠ "" ∧ header = some value ∧
        (toStr value).isSome ∧ value = asBytes secret) ∧
    (∀ header, header.bind toStr = none → dripBotAuth cfg.bot toStr header ≠ .ok ()) := by
  refine ⟨fun _ _ => constantTimeEq_iff, fun _ _ => botGate_eq_auth _ _ _ _, ?_,
    fun _ h => dripBotAuth_unreadable hcfg h⟩
  intro header
  constructor
  · intro hok
    cases hread : header.bind toStr with
    | none => exact absurd hok (dripBotAuth_unreadable hcfg hread)
    | some text =>
      obtain ⟨value, rfl, hvalue⟩ := Option.bind_eq_some_iff.1 hread
      obtain ⟨secret, hset, hne, hbytes⟩ := (dripBotAuth_readable htext hcfg hvalue).1 hok
      exact ⟨secret, value, hset, hne, rfl, by simp [hvalue], hbytes⟩
  · intro h
    obtain ⟨secret, value, hset, hne, rfl, hread, hbytes⟩ := h
    obtain ⟨text, hvalue⟩ := Option.isSome_iff_exists.1 hread
    exact (dripBotAuth_readable htext hcfg hvalue).2 ⟨secret, hset, hne, hbytes⟩

/-- A header of visible ASCII reads as the text of its bytes. -/
def visibleAsciiToStr : ToStr := fun value =>
  if value.all fun b => (32 ≤ b && b < 127) || b == 9 then
    String.fromUTF8? ⟨value.toArray⟩
  else none

theorem asBytes_of_visibleAsciiToStr (value : List UInt8) (text : String)
    (h : visibleAsciiToStr value = some text) : asBytes text = value := by
  unfold visibleAsciiToStr at h
  split at h
  · unfold String.fromUTF8? at h
    split at h
    · cases h
      rfl
    · cases h
  · cases h

theorem dripBot_authenticates_exactly_the_secret_hunter2 :
    ∃ cfg, Config.fromEnv decodeZeros (localEnv [("FAUCET_BOT_SECRET", "hunter2")]) = .ok cfg ∧
      (∀ value text, visibleAsciiToStr value = some text → asBytes text = value) ∧
      dripBotAuth cfg.bot visibleAsciiToStr (some (asBytes "hunter2")) = .ok () ∧
      dripBotAuth cfg.bot visibleAsciiToStr none ≠ .ok () := by
  obtain ⟨cfg, hcfg⟩ : ∃ cfg, Config.fromEnv decodeZeros
      (localEnv [("FAUCET_BOT_SECRET", "hunter2")]) = .ok cfg := ⟨_, rfl⟩
  obtain ⟨-, -, hpass, hnone⟩ :=
    dripBot_authenticates_exactly_the_secret asBytes_of_visibleAsciiToStr hcfg
  refine ⟨cfg, hcfg, asBytes_of_visibleAsciiToStr, (hpass _).2 ?_, hnone none rfl⟩
  exact ⟨"hunter2", asBytes "hunter2", rfl, by decide, rfl, by decide, rfl⟩

end LigateApi.Api
