import Mathlib.Data.List.Basic
import Mathlib.Data.List.TakeWhile

/-!
# Text by byte offsets

A UTF-8 text as the list of its characters, with searches that return byte offsets and a split at a
byte offset that fails inside a character or past the end. `splitAt_append` says which offsets
split, `findChar_eq` and `findStr_append` where the offset of a search lies.
-/

namespace Lib.Str

/-- The bytes the text takes. -/
def utf8Len : List Char → Nat
  | [] => 0
  | c :: s => c.utf8Size + utf8Len s

/-- The offset of the first character that meets `p`. -/
def findChar (p : Char → Bool) : List Char → Option Nat
  | [] => none
  | c :: s => if p c then some 0 else (findChar p s).map (c.utf8Size + ·)

/-- The offset of the first occurrence of `pattern`. -/
def findStr (pattern : List Char) : List Char → Option Nat
  | [] => if pattern = [] then some 0 else none
  | c :: s =>
    if pattern.isPrefixOf (c :: s) then some 0 else (findStr pattern s).map (c.utf8Size + ·)

/-- The text before and from the offset `mid`, which has to be a character boundary. -/
def splitAt : Nat → List Char → Option (List Char × List Char)
  | 0, s => some ([], s)
  | _ + 1, [] => none
  | mid + 1, c :: s =>
    if c.utf8Size ≤ mid + 1 then
      (splitAt (mid + 1 - c.utf8Size) s).map fun parts => (c :: parts.1, parts.2)
    else none

variable {s a b : List Char} {c : Char} {p : Char → Bool} {pattern : List Char} {mid : Nat}

@[simp] theorem utf8Len_append : utf8Len (a ++ b) = utf8Len a + utf8Len b := by
  induction a with
  | nil => simp [utf8Len]
  | cons c a ih =>
    rw [List.cons_append, utf8Len, utf8Len, ih]
    omega

/-- The offset behind a part of the text splits it there. -/
theorem splitAt_append : splitAt (utf8Len a) (a ++ b) = some (a, b) := by
  induction a with
  | nil => rw [utf8Len, List.nil_append, splitAt]
  | cons c a ih =>
    have hpos := c.utf8Size_pos
    obtain ⟨n, hn⟩ := Nat.exists_eq_add_of_le' hpos
    have hlen : utf8Len (c :: a) = n + utf8Len a + 1 := by
      rw [utf8Len]
      omega
    rw [hlen, List.cons_append, splitAt, if_pos (by omega),
      show n + utf8Len a + 1 - c.utf8Size = utf8Len a by omega, ih]
    rfl

/-! ## Searches -/

theorem findChar_append (ha : ∀ x ∈ a, p x = false) (hc : p c = true) :
    findChar p (a ++ c :: b) = some (utf8Len a) := by
  induction a with
  | nil => simp [findChar, hc, utf8Len]
  | cons x a ih =>
    have hx : p x = false := ha x List.mem_cons_self
    rw [List.cons_append, findChar, if_neg (by simp [hx]),
      ih fun y hy => ha y (List.mem_cons_of_mem x hy)]
    rfl

/-- The text in front of the first character that meets `p` is the longest one without such a
character. -/
theorem findChar_eq : findChar p s =
    if s.dropWhile (fun x => !p x) = [] then none
    else some (utf8Len (s.takeWhile fun x => !p x)) := by
  induction s with
  | nil => rfl
  | cons x s ih =>
    rw [findChar, List.dropWhile_cons, List.takeWhile_cons, ih]
    cases hx : p x with
    | true => simp [utf8Len]
    | false =>
      simp only [Bool.false_eq_true, if_false, Bool.not_false, if_true]
      split
      · rfl
      · rfl

theorem isPrefixOf_append_right (h : pattern.length ≤ a.length) :
    pattern.isPrefixOf (a ++ b) = pattern.isPrefixOf a := by
  rw [Bool.eq_iff_iff, List.isPrefixOf_iff_prefix, List.isPrefixOf_iff_prefix]
  constructor
  · intro hpre
    exact List.prefix_of_prefix_length_le hpre (List.prefix_append a b) h
  · intro hpre
    exact hpre.trans (List.prefix_append a b)

/-- Where a pattern first occurs is settled by the text up to any of its occurrences. -/
theorem findStr_append (pattern a : List Char) : ∃ front, front <+: a ∧
    ∀ b, findStr pattern (a ++ (pattern ++ b)) = some (utf8Len front) := by
  induction a with
  | nil =>
    refine ⟨[], List.prefix_rfl, fun b => ?_⟩
    rw [List.nil_append]
    cases hs : pattern ++ b with
    | nil =>
      have hp : pattern = [] := (List.append_eq_nil_iff.1 hs).1
      simp [findStr, hp, utf8Len]
    | cons c s =>
      have hp : pattern.isPrefixOf (c :: s) = true := by
        rw [← hs, List.isPrefixOf_iff_prefix]
        exact List.prefix_append pattern b
      rw [findStr, if_pos hp, utf8Len]
  | cons c a ih =>
    obtain ⟨front, hfront, hfind⟩ := ih
    have hlocal : ∀ b, pattern.isPrefixOf (c :: (a ++ (pattern ++ b))) =
        pattern.isPrefixOf (c :: (a ++ pattern)) := by
      intro b
      rw [← List.append_assoc, ← List.cons_append]
      apply isPrefixOf_append_right
      simp only [List.length_cons, List.length_append]
      omega
    by_cases hp : pattern.isPrefixOf (c :: (a ++ pattern)) = true
    · refine ⟨[], List.nil_prefix, fun b => ?_⟩
      rw [List.cons_append, findStr, hlocal, if_pos hp, utf8Len]
    · refine ⟨c :: front, List.cons_prefix_cons.2 ⟨rfl, hfront⟩, fun b => ?_⟩
      rw [List.cons_append, findStr, hlocal, if_neg hp, hfind, utf8Len]
      rfl

end Lib.Str
