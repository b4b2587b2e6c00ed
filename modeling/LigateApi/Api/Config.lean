import LigateApi.Drip.BotDrip
import LigateApi.Indexer.Parser
import LigateApi.Lib.Run

/-!
# Configuration from the environment

`Config::from_env` reads every setting once, at start-up. A variable that is not set, or holds no
Unicode text, takes its default if it has one; a number that does not parse is an error. The numbers
are bounded by their width only: nothing keeps an amount from being zero. `hex::decode` is a
parameter.
-/

namespace LigateApi.Api

open Indexer (parseU128)
open Lib.Run

/-- `std::env::VarError` -/
inductive VarError
  | notPresent
  | notUnicode
  deriving DecidableEq, Repr

/-- `std::env::var` -/
abbrev EnvVars := String → Except VarError String

/-- `hex::decode` -/
abbrev HexDecode := String → Except String (List UInt8)

structure Config where
  bind : String
  databaseUrl : String
  pgPoolSize : UInt32
  chainRpc : String
  chainClusterAuthToken : Option String
  chainId : UInt64
  chainHash : List UInt8
  avowTokenIdHex : String
  dripSignerKey : String
  dripAmount : Nat
  dripRateLimitSecs : UInt64
  dripMinBudget : UInt64
  dripStartingNonce : Option UInt64
  indexerStartHeight : Option UInt64
  avowTreasuryAddr : Option String
  faucetBotSecret : Option String
  botDripRateLimitSecs : UInt64
  botDripAmountNewcomer : Nat
  botDripAmountRegular : Nat
  botDripAmountVeteran : Nat
  botDripAmountElder : Nat
  deriving DecidableEq, Repr

/-- The part of the configuration `drip_bot` reads. -/
def Config.bot (cfg : Config) : Drip.BotConfig where
  faucetBotSecret := cfg.faucetBotSecret
  botDripRateLimitSecs := cfg.botDripRateLimitSecs
  botDripAmountNewcomer := cfg.botDripAmountNewcomer
  botDripAmountRegular := cfg.botDripAmountRegular
  botDripAmountVeteran := cfg.botDripAmountVeteran
  botDripAmountElder := cfg.botDripAmountElder

/-! ## Defaults -/

def defaultBind : String := "0.0.0.0:8080"
def defaultDripAmount : Nat := 100000000000
def defaultDripRateLimitSecs : Nat := 24 * 60 * 60
def defaultDripMinBudget : Nat := 100
def defaultPgPoolSize : Nat := 10
def defaultBotDripRateLimitSecs : Nat := 5 * 24 * 60 * 60
def defaultBotDripAmountNewcomer : Nat := 100000000000
def defaultBotDripAmountRegular : Nat := 250000000000
def defaultBotDripAmountVeteran : Nat := 500000000000
def defaultBotDripAmountElder : Nat := 1000000000000

/-! ## Reading a variable -/

/-- `str::parse` at an unsigned type of at most 128 bits; the widths differ in the bound only. -/
def parseUnsigned (bits : Nat) (s : String) : Option Nat :=
  (parseU128 s).filter (· < 2 ^ bits)

/-- The common body of `parse_env_u32`, `parse_env_u64` and `parse_env_u128`. -/
def parseEnv (bits : Nat) (env : EnvVars) (name : String) (default : Nat) : Except String Nat :=
  match env name with
  | .error _ => .ok default
  | .ok s =>
    match parseUnsigned bits s with
    | some n => .ok n
    | none => .error (name ++ " must be u" ++ toString bits)

/-- `parse_env_u32` -/
def parseEnvU32 (env : EnvVars) (name : String) (default : Nat) : Except String UInt32 :=
  (parseEnv 32 env name default).map UInt32.ofNat

/-- `parse_env_u64` -/
def parseEnvU64 (env : EnvVars) (name : String) (default : Nat) : Except String UInt64 :=
  (parseEnv 64 env name default).map UInt64.ofNat

/-- `parse_env_u128` -/
def parseEnvU128 (env : EnvVars) (name : String) (default : Nat) : Except String Nat :=
  parseEnv 128 env name default

/-- `std::env::var(name).context(message)` -/
def requiredVar (env : EnvVars) (name message : String) : Except String String :=
  (env name).mapError fun _ => message

/-- `s.parse::<u64>().context(message)` -/
def parseU64Var (s message : String) : Except String UInt64 :=
  match parseUnsigned 64 s with
  | some n => .ok (UInt64.ofNat n)
  | none => .error message

/-- A `u64` that may be left out. -/
def optionalU64 (env : EnvVars) (name : String) : Except String (Option UInt64) :=
  match env name with
  | .error _ => .ok none
  | .ok s => (parseU64Var s (name ++ " must be u64")).map some

/-- An early return with an error unless `p`. -/
def ensure (p : Prop) [Decidable p] (message : String) : Except String Unit :=
  if p then .ok () else .error message

/-- A text that counts as left out when it is empty. -/
def nonEmptyVar (env : EnvVars) (name : String) : Option String :=
  (env name).toOption.filter (· ≠ "")

/-- `Config::from_env`; an error is the outermost context. -/
def Config.fromEnv (hexDecode : HexDecode) (env : EnvVars) : Except String Config := do
  let bind := ((env "API_BIND").toOption.or
    ((env "PORT").toOption.map ("0.0.0.0:" ++ ·))).getD defaultBind
  let databaseUrl ← requiredVar env "DATABASE_URL"
    "DATABASE_URL is required (Postgres connection string)"
  let pgPoolSize ← parseEnvU32 env "PG_POOL_SIZE" defaultPgPoolSize
  let chainRpc := (env "CHAIN_RPC").toOption.getD "http://127.0.0.1:12346"
  let chainClusterAuthToken := nonEmptyVar env "CHAIN_CLUSTER_AUTH_TOKEN"
  let chainIdText ← requiredVar env "CHAIN_ID"
    "CHAIN_ID is required (numeric, from chain_state.json)"
  let chainId ← parseU64Var chainIdText "CHAIN_ID must be u64"
  let chainHashHex ← requiredVar env "CHAIN_HASH" "CHAIN_HASH is required (64-char hex)"
  ensure (chainHashHex.utf8ByteSize = 64)
    ("CHAIN_HASH must be 64 hex chars, got " ++ toString chainHashHex.utf8ByteSize)
  let chainHash ← (hexDecode chainHashHex).mapError fun _ => "CHAIN_HASH must be valid hex"
  let avowTokenIdHex ← requiredVar env "AVOW_TOKEN_ID"
    "AVOW_TOKEN_ID is required (64-char hex from bank.json)"
  let dripSignerKey ← requiredVar env "DRIP_SIGNER_KEY"
    "DRIP_SIGNER_KEY is required (64-char hex private key)"
  ensure (dripSignerKey.utf8ByteSize = 64)
    ("DRIP_SIGNER_KEY must be 64 hex chars (32 bytes), got " ++ toString dripSignerKey.utf8ByteSize)
  let _ ← (hexDecode dripSignerKey).mapError fun _ => "DRIP_SIGNER_KEY must be valid hex"
  let dripAmount ← parseEnvU128 env "DRIP_AMOUNT" defaultDripAmount
  let dripRateLimitSecs ← parseEnvU64 env "DRIP_RATE_LIMIT_SECS" defaultDripRateLimitSecs
  let dripMinBudget ← parseEnvU64 env "DRIP_MIN_BUDGET" defaultDripMinBudget
  let dripStartingNonce ← optionalU64 env "DRIP_STARTING_NONCE"
  let indexerStartHeight ← optionalU64 env "INDEXER_START_HEIGHT"
  let avowTreasuryAddr := (env "AVOW_TREASURY_ADDR").toOption
  -- an emptied variable disables the bot endpoint like an unset one
  let faucetBotSecret := nonEmptyVar env "FAUCET_BOT_SECRET"
  let botDripRateLimitSecs ← parseEnvU64 env "BOT_DRIP_RATE_LIMIT_SECS" defaultBotDripRateLimitSecs
  let botDripAmountNewcomer ←
    parseEnvU128 env "BOT_DRIP_AMOUNT_NEWCOMER" defaultBotDripAmountNewcomer
  let botDripAmountRegular ←
    parseEnvU128 env "BOT_DRIP_AMOUNT_REGULAR" defaultBotDripAmountRegular
  let botDripAmountVeteran ←
    parseEnvU128 env "BOT_DRIP_AMOUNT_VETERAN" defaultBotDripAmountVeteran
  let botDripAmountElder ← parseEnvU128 env "BOT_DRIP_AMOUNT_ELDER" defaultBotDripAmountElder
  return { bind, databaseUrl, pgPoolSize, chainRpc, chainClusterAuthToken, chainId, chainHash,
           avowTokenIdHex, dripSignerKey, dripAmount, dripRateLimitSecs, dripMinBudget,
           dripStartingNonce, indexerStartHeight, avowTreasuryAddr, faucetBotSecret,
           botDripRateLimitSecs, botDripAmountNewcomer, botDripAmountRegular,
           botDripAmountVeteran, botDripAmountElder }

/-! ## What an accepted configuration holds -/

/-- The two settings of the start-up check and the bot's secret, traced back to their variables. -/
theorem Config.fromEnv_eq_ok {hexDecode : HexDecode} {env : EnvVars} {cfg : Config}
    (h : Config.fromEnv hexDecode env = .ok cfg) :
    parseEnvU128 env "DRIP_AMOUNT" defaultDripAmount = .ok cfg.dripAmount ∧
      parseEnvU64 env "DRIP_MIN_BUDGET" defaultDripMinBudget = .ok cfg.dripMinBudget ∧
      cfg.faucetBotSecret = nonEmptyVar env "FAUCET_BOT_SECRET" := by
  unfold Config.fromEnv at h
  -- everything in front of the amount
  iterate 11 obtain ⟨_, -, h⟩ := bind_eq_ok.1 h
  obtain ⟨amount, hamount, h⟩ := bind_eq_ok.1 h
  obtain ⟨_, -, h⟩ := bind_eq_ok.1 h
  obtain ⟨budget, hbudget, h⟩ := bind_eq_ok.1 h
  -- and everything behind the budget
  iterate 7 obtain ⟨_, -, h⟩ := bind_eq_ok.1 h
  cases h
  exact ⟨hamount, hbudget, rfl⟩

/-- The required variables of a local node, and those of `overrides`. -/
def localEnv (overrides : List (String × String)) : EnvVars := fun name =>
  match (overrides ++ [("DATABASE_URL", "postgres://localhost/ligate"), ("CHAIN_ID", "1"),
      ("CHAIN_HASH", String.ofList (List.replicate 64 '0')),
      ("AVOW_TOKEN_ID", String.ofList (List.replicate 64 '0')),
      ("DRIP_SIGNER_KEY", String.ofList (List.replicate 64 '0'))]).lookup name with
  | some value => .ok value
  | none => .error .notPresent

/-- `hex::decode` of a text of zeros. -/
def decodeZeros : HexDecode := fun s => .ok (List.replicate (s.length / 2) 0)

end LigateApi.Api
