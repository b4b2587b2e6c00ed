import Mathlib.Data.UInt

/-!
# Pagination cursors and pages

A cursor is the JSON of its shape in base64url. `serde_json` and `base64` are parameters: what the
code relies on is that they read back what they wrote (`ReadsBack`).
-/

namespace LigateApi.Api

/-! ## Page size -/

def defaultLimit : UInt32 := 20

def maxLimit : UInt32 := 100

/-- `resolve_limit` -/
def resolveLimit : Option UInt32 → UInt32
  | none => defaultLimit
  | some n => if n = 0 then defaultLimit else min n maxLimit

theorem resolveLimit_pos (requested : Option UInt32) : 0 < (resolveLimit requested).toNat := by
  cases requested with
  | none => decide
  | some n =>
    by_cases hn : n = 0
    · rw [resolveLimit, if_pos hn]
      decide
    · have hpos : n.toNat ≠ 0 := fun h => hn (UInt32.toNat_inj.1 h)
      rw [resolveLimit, if_neg hn]
      change 0 < (if n ≤ maxLimit then n else maxLimit).toNat
      split
      · omega
      · decide

/-! ## Cursors -/

/-- `URL_SAFE_NO_PAD` -/
structure Base64 where
  encode : List UInt8 → String
  decode : String → Option (List UInt8)

/-- `serde_json::to_vec` and `from_slice` at the type of a cursor. -/
structure CursorJson (C : Type) where
  toVec : C → Option (List UInt8)
  fromSlice : List UInt8 → Option C

section Codec

variable {C : Type} (base64 : Base64) (json : CursorJson C)

def encode (cursor : C) : Option String := (json.toVec cursor).map base64.encode

/-- Whatever does not decode counts as no cursor. -/
def decode (cursor : String) : Option C := (base64.decode cursor).bind json.fromSlice

/-- The two libraries read back what they wrote for a cursor. -/
structure ReadsBack (cursor : C) : Prop where
  slice : ∃ bytes, json.toVec cursor = some bytes ∧ json.fromSlice bytes = some cursor
  text : ∀ bytes, json.toVec cursor = some bytes → base64.decode (base64.encode bytes) = some bytes

variable {base64 json}

theorem decode_encode {cursor : C} (h : ReadsBack base64 json cursor) :
    ∃ s, encode base64 json cursor = some s ∧ decode base64 json s = some cursor := by
  obtain ⟨bytes, hvec, hslice⟩ := h.slice
  refine ⟨base64.encode bytes, ?_, ?_⟩
  · rw [encode, hvec]
    rfl
  · rw [decode, h.text bytes hvec]
    exact hslice

end Codec

/-! ## Responses -/

structure Pagination where
  next : Option String
  limit : UInt32
  deriving DecidableEq, Repr

/-- The envelope of a list endpoint. -/
structure Page (R : Type) where
  data : List R
  pagination : Pagination

/-- What a list endpoint answers: a page that may be cached for a while, a 400 or a 500. -/
inductive Reply (R : Type)
  | page (page : Page R) (maxAgeSecs : UInt32)
  | badRequest (error detail : String)
  | internalError

/-- `Pagination` query parameters. -/
structure PaginationParams where
  limit : Option UInt32
  before : Option String

end LigateApi.Api
