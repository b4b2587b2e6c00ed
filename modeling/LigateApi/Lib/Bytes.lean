import Mathlib.Data.List.Basic
import Mathlib.Data.List.DropRight
import Mathlib.Data.UInt

/-!
# Byte strings

Little-endian integers (`leBytes`, `leValue`, `u64OfLe`), reads near the end of a byte string, where
a reader that counts back from the end sees only the suffix (`getElem?_suffix`,
`take_drop_suffix`), accesses that fail out of range (`indexAt`, `slice`, `subChecked`), and the
standard Base64 text of a byte string (`base64Encode`).
-/

namespace Lib.Bytes

/-- The `k` low bytes of `n`, least significant first. -/
def leBytes : Nat → Nat → List UInt8
  | 0, _ => []
  | k + 1, n => UInt8.ofNat n :: leBytes k (n / 256)

def leValue : List UInt8 → Nat
  | [] => 0
  | b :: bs => b.toNat + 256 * leValue bs

/-- `u64::from_le_bytes` on a slice of any length: only eight bytes convert. -/
def u64OfLe (bs : List UInt8) : Option UInt64 :=
  if bs.length = 8 then some (UInt64.ofNat (leValue bs)) else none

@[simp] theorem length_leBytes (k n : Nat) : (leBytes k n).length = k := by
  induction k generalizing n with
  | zero => rfl
  | succ k ih => rw [leBytes, List.length_cons, ih]

theorem leValue_leBytes (k n : Nat) : leValue (leBytes k n) = n % 256 ^ k := by
  induction k generalizing n with
  | zero => simp [leBytes, leValue, Nat.mod_one]
  | succ k ih =>
    rw [leBytes, leValue, ih, Nat.pow_succ', Nat.mod_mul, UInt8.toNat_ofNat']

theorem u64OfLe_leBytes (n : Nat) : u64OfLe (leBytes 8 n) = some (UInt64.ofNat n) := by
  rw [u64OfLe, if_pos (length_leBytes 8 n), leValue_leBytes, Option.some.injEq]
  apply UInt64.toNat.inj
  simp

theorem u64OfLe_eq_some {bs : List UInt8} (h : bs.length = 8) : ∃ x, u64OfLe bs = some x :=
  ⟨_, if_pos h⟩

/-! ## Reading from the end -/

variable {α : Type} (pre suf : List α) {k n : Nat}

theorem getElem?_suffix (h : k ≤ suf.length) :
    (pre ++ suf)[(pre ++ suf).length - k]? = suf[suf.length - k]? := by
  have hlen : (pre ++ suf).length - k = pre.length + (suf.length - k) := by
    rw [List.length_append]
    omega
  rw [hlen, List.getElem?_append_right (by omega)]
  congr 1
  omega

theorem take_drop_suffix (h : k ≤ suf.length) :
    ((pre ++ suf).drop ((pre ++ suf).length - k)).take n = (suf.drop (suf.length - k)).take n := by
  have hlen : (pre ++ suf).length - k = pre.length + (suf.length - k) := by
    rw [List.length_append]
    omega
  rw [hlen, ← List.drop_drop, List.drop_left]

/-! ## Accesses that fail -/

/-- How an access leaves its range. -/
inductive OutOfRange
  | index
  | slice
  | subtraction
  deriving DecidableEq, Repr

/-- The element at `i`. -/
def indexAt (l : List α) (i : Nat) : Except OutOfRange α :=
  match l[i]? with
  | some x => .ok x
  | none => .error .index

/-- The elements from `start` up to `stop`. -/
def slice (l : List α) (start stop : Nat) : Except OutOfRange (List α) :=
  if start ≤ stop ∧ stop ≤ l.length then .ok ((l.drop start).take (stop - start))
  else .error .slice

/-- Subtraction of unsigned numbers. -/
def subChecked (m n : Nat) : Except OutOfRange Nat :=
  if n ≤ m then .ok (m - n) else .error .subtraction

theorem indexAt_eq {l : List α} {i : Nat} {x : α} (h : l[i]? = some x) : indexAt l i = .ok x := by
  rw [indexAt, h]

theorem slice_eq {l : List α} {start stop : Nat} (h : start ≤ stop) (h' : stop ≤ l.length) :
    slice l start stop = .ok ((l.drop start).take (stop - start)) := if_pos ⟨h, h'⟩

/-- A slice up to the end. -/
theorem slice_to_end {l : List α} {start : Nat} (h : start ≤ l.length) :
    slice l start l.length = .ok (l.drop start) := by
  rw [slice_eq h (Nat.le_refl _), List.take_of_length_le (by rw [List.length_drop])]

theorem subChecked_eq {m n : Nat} (h : n ≤ m) : subChecked m n = .ok (m - n) := if_pos h

/-! ## Base64 -/

/-- The standard alphabet, in the order of the six-bit values. -/
def base64Alphabet : List Char :=
  "ABCDEFGHIJKLMNOPQRSTUVWXYZabcdefghijklmnopqrstuvwxyz0123456789+/".toList

def base64Char (n : Nat) : Char := base64Alphabet.getD n '='

/-- Three bytes make four characters; a shorter last group is padded with `=`. -/
def base64Chars : List UInt8 → List Char
  | [] => []
  | [a] => [base64Char (a.toNat / 4), base64Char (a.toNat % 4 * 16), '=', '=']
  | [a, b] => [base64Char (a.toNat / 4), base64Char (a.toNat % 4 * 16 + b.toNat / 16),
      base64Char (b.toNat % 16 * 4), '=']
  | a :: b :: c :: rest =>
    base64Char (a.toNat / 4) :: base64Char (a.toNat % 4 * 16 + b.toNat / 16) ::
      base64Char (b.toNat % 16 * 4 + c.toNat / 64) :: base64Char (c.toNat % 64) ::
        base64Chars rest

def base64Encode (bytes : List UInt8) : String := String.ofList (base64Chars bytes)

theorem base64Char_mem (n : Nat) : base64Char n ∈ '=' :: base64Alphabet := by
  unfold base64Char
  rw [List.getD_eq_getElem?_getD]
  cases h : base64Alphabet[n]? with
  | none => exact List.mem_cons_self
  | some c => exact List.mem_cons_of_mem _ (List.mem_of_getElem? h)

/-- Base64 text has no character outside the alphabet and the padding. -/
theorem mem_base64Chars {bytes : List UInt8} :
    ∀ c ∈ base64Chars bytes, c ∈ '=' :: base64Alphabet := by
  have hpad : '=' ∈ '=' :: base64Alphabet := List.mem_cons_self
  fun_induction base64Chars bytes with
  | case1 => exact List.forall_mem_nil _
  | case2 a =>
    simp only [List.forall_mem_cons, base64Char_mem, hpad, true_and]
    exact List.forall_mem_nil _
  | case3 a b =>
    simp only [List.forall_mem_cons, base64Char_mem, hpad, true_and]
    exact List.forall_mem_nil _
  | case4 a b c rest ih =>
    simp only [List.forall_mem_cons, base64Char_mem, true_and]
    exact ih

theorem base64Chars_ne_nil {bytes : List UInt8} (h : bytes ≠ []) : base64Chars bytes ≠ [] := by
  fun_cases base64Chars bytes with
  | case1 => exact absurd rfl h
  | case2 => exact List.cons_ne_nil _ _
  | case3 => exact List.cons_ne_nil _ _
  | case4 => exact List.cons_ne_nil _ _

end Lib.Bytes
