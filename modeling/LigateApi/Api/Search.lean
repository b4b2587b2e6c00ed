import LigateApi.Api.ActiveAddresses
import LigateApi.Api.Details
import LigateApi.Indexer.Decode

/-!
# Search

`GET /v1/search` resolves a text to the resource it names: a height first, and then by the prefix of
the text in lower case. Each branch asks the database once; what is not there is an answer too.
-/

namespace LigateApi.Api

open Indexer hiding TxRow SchemaRow
open Queries

inductive SearchResponse
  | block (blockHeight : UInt64)
  | tx (txHash : String)
  | address (address : String)
  | schema (schemaId : String)
  | attestorSet (attestorSetId : String)
  | attestation (id : String)
  | notFound (query : String)
  deriving DecidableEq, Repr

inductive SearchReply
  | json (body : SearchResponse)
  | badRequest (error : String)
  | internalError
  deriving DecidableEq, Repr

/-- The value of decimal digits; at least one is asked for. -/
def parseDigits (digits : List Char) : Option Nat :=
  if digits ≠ [] ∧ digits.all Stats.isAsciiDigit = true then
    some (digits.foldl (fun n c => 10 * n + (c.toNat - '0'.toNat)) 0)
  else none

/-- `str::parse::<i64>`: an optional sign, then decimal digits in range. -/
def parseI64 (s : String) : Option Int64 :=
  match s.toList with
  | '-' :: digits =>
    (parseDigits digits).bind fun n => if n ≤ 2 ^ 63 then some (Int64.ofInt (-n)) else none
  | '+' :: digits =>
    (parseDigits digits).bind fun n => if n < 2 ^ 63 then some (Int64.ofNat n) else none
  | digits =>
    (parseDigits digits).bind fun n => if n < 2 ^ 63 then some (Int64.ofNat n) else none

/-- `str::starts_with` -/
def startsWith (s p : String) : Bool := p.toList.isPrefixOf s.toList

/-- One lookup: what it finds is the answer, and otherwise the next one is. -/
def resolved {A : Type} (query : Except SqlxError (Option A)) (found : A → SearchResponse)
    (next : SearchReply) : SearchReply :=
  match query with
  | .ok (some a) => .json (found a)
  | .ok none => next
  | .error _ => .internalError

/-- A lookup by `SELECT EXISTS`. -/
def resolvedIf (query : Except SqlxError Bool) (found : SearchResponse) (next : SearchReply) :
    SearchReply :=
  resolved (query.map fun b => if b then some () else none) (fun _ => found) next

variable (postgres : Postgres) (pg : PgPool)

/-- The dispatch on the prefix. -/
def searchPrefix (q lowered : String) : SearchReply :=
  let missing := SearchReply.json (.notFound q)
  if startsWith lowered "lblk1" then
    resolved (slotHeightForBlockHash pg lowered) (fun h => .block h.toUInt64) missing
  else if startsWith lowered "ltx1" then
    resolved (Queries.txByHash pg lowered) (fun _ => .tx lowered) missing
  else if startsWith lowered "lig1" then
    resolvedIf (addressExists pg lowered) (.address lowered) missing
  else if startsWith lowered "lsc1" then
    resolvedIf (schemaExists pg lowered) (.schema lowered) missing
  else if startsWith lowered "las1" then
    resolvedIf (attestorSetExists pg lowered) (.attestorSet lowered) missing
  else if startsWith lowered "lat1" then
    resolvedIf (attestationIdExists pg lowered) (.attestation lowered) missing
  else if startsWith lowered "lph1" then
    resolved (attestationIdByPayloadHash postgres pg lowered) .attestation missing
  else missing

/-- `GET /v1/search` -/
def search (env : DetailEnv) (query : String) : SearchReply :=
  let q := trim query
  if q = "" then .badRequest "q is required"
  else
    match parseI64 q with
    | some h =>
      resolved (Queries.slotByHeight pg h) (fun _ => .block h.toUInt64)
        (searchPrefix postgres pg q (env.toLowercase q))
    | none => searchPrefix postgres pg q (env.toLowercase q)

end LigateApi.Api
