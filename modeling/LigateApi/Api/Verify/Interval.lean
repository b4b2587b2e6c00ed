import LigateApi.Lib.Str
import LigateApi.Api.ActiveAddresses
import Mathlib.Data.Nat.Digits.Defs

/-!
# The grammar of a window

`parse_interval` accepts digits followed by one unit and nothing else. The source splits the text at
the byte offset of its first character that is no digit. `parseIntervalSplit` keeps that offset,
with the panic `split_at` has inside a character, and agrees with `parseInterval`.
-/

namespace LigateApi.Api.Stats

open Lib.Str

/-! ## The split -/

/-- `parse_interval` behind the split. -/
def intervalOf (s : String) (num unit : List Char) : Except String Nat :=
  match parseU64 num with
  | none => .error ("window '" ++ s ++ "': expected leading integer")
  | some n =>
    match String.ofList unit with
    | "s" => .ok n
    | "m" => checkedMul n 60
    | "h" => checkedMul n 3600
    | "d" => checkedMul n 86400
    | other => .error ("window '" ++ s ++ "': unknown unit '" ++ other ++ "' (expected s/m/h/d)")

def Computed.ofExcept {α : Type} : Except String α → Computed α
  | .ok value => .ok value
  | .error message => .err message

/-- `parse_interval` with the byte offset at which it splits. -/
def parseIntervalSplit (s : String) : Computed Nat :=
  match findChar (fun c => !isAsciiDigit c) s.toList with
  | none => .err ("window '" ++ s ++ "' missing unit (h/d/m/s)")
  | some mid =>
    match splitAt mid s.toList with
    | none => .panicked "failed to slice string"
    | some (num, unit) => Computed.ofExcept (intervalOf s num unit)

theorem parseInterval_eq (s : String) : parseInterval s =
    if s.toList.dropWhile isAsciiDigit = [] then
      .error ("window '" ++ s ++ "' missing unit (h/d/m/s)")
    else intervalOf s (s.toList.takeWhile isAsciiDigit) (s.toList.dropWhile isAsciiDigit) := rfl

/-- The offset of the first character that is no digit is a character boundary. -/
theorem parseIntervalSplit_eq (s : String) :
    parseIntervalSplit s = Computed.ofExcept (parseInterval s) := by
  have hsplit : splitAt (utf8Len (s.toList.takeWhile isAsciiDigit)) s.toList =
      some (s.toList.takeWhile isAsciiDigit, s.toList.dropWhile isAsciiDigit) := by
    conv_lhs => arg 2; rw [← List.takeWhile_append_dropWhile (p := isAsciiDigit) (l := s.toList)]
    exact splitAt_append
  rw [parseIntervalSplit, parseInterval_eq, findChar_eq]
  simp only [Bool.not_not]
  by_cases hunit : s.toList.dropWhile isAsciiDigit = []
  · rw [if_pos hunit, if_pos hunit]
    rfl
  · rw [if_neg hunit, if_neg hunit]
    simp only [hsplit]

/-! ## The grammar -/

/-- The units and their seconds. -/
def intervalUnits : List (String × Nat) := [("s", 1), ("m", 60), ("h", 3600), ("d", 86400)]

/-- The value of decimal digits. -/
def decimalValue (ds : List Char) : Nat :=
  Nat.ofDigits 10 (ds.reverse.map fun c => c.toNat - '0'.toNat)

/-- The text `s` spells a window of `d` seconds. -/
def SpellsInterval (s : String) (d : Nat) : Prop :=
  ∃ ds u k n, s = ds ++ u ∧ ds ≠ "" ∧ (∀ c ∈ ds.toList, isAsciiDigit c = true) ∧
    decimalValue ds.toList = n ∧ (u, k) ∈ intervalUnits ∧ n < 2 ^ 64 ∧ n * k < 2 ^ 64 ∧ d = n * k

theorem foldl_eq_decimalValue (ds : List Char) :
    ds.foldl (fun n c => 10 * n + (c.toNat - '0'.toNat)) 0 = decimalValue ds := by
  rw [decimalValue, Nat.ofDigits_eq_foldr, List.foldr_map, List.foldr_reverse]
  congr 1
  funext n c
  exact Nat.add_comm _ _

theorem parseU64_eq_some {ds : List Char} {n : Nat} : parseU64 ds = some n ↔
    ds ≠ [] ∧ (∀ c ∈ ds, isAsciiDigit c = true) ∧ decimalValue ds = n ∧ n < 2 ^ 64 := by
  rw [parseU64, foldl_eq_decimalValue]
  constructor
  · intro h
    split at h
    · next hds =>
      dsimp only at h
      split at h
      · next hlt =>
        cases h
        exact ⟨hds.1, List.all_eq_true.1 hds.2, rfl, hlt⟩
      · cases h
    · cases h
  · intro h
    obtain ⟨hne, hall, rfl, hlt⟩ := h
    rw [if_pos ⟨hne, List.all_eq_true.2 hall⟩]
    exact if_pos hlt

theorem checkedMul_eq_ok {n k d : Nat} :
    checkedMul n k = .ok d ↔ n * k < 2 ^ 64 ∧ d = n * k := by
  unfold checkedMul
  constructor
  · intro h
    split at h
    · next hlt =>
      cases h
      exact ⟨hlt, rfl⟩
    · cases h
  · intro h
    obtain ⟨hlt, rfl⟩ := h
    exact if_pos hlt

/-- What the source accepts behind the split. -/
theorem intervalOf_eq_ok {s : String} {num unit : List Char} {d : Nat} :
    intervalOf s num unit = .ok d ↔ ∃ n k, parseU64 num = some n ∧
      (String.ofList unit, k) ∈ intervalUnits ∧ n * k < 2 ^ 64 ∧ d = n * k := by
  unfold intervalOf
  cases hn : parseU64 num with
  | none => simp
  | some n =>
    have hlt : n < 2 ^ 64 := (parseU64_eq_some.1 hn).2.2.2
    dsimp only
    constructor
    · intro h
      split at h
      · next hu =>
        rw [Except.ok.injEq] at h
        exact ⟨n, 1, rfl, by simp [intervalUnits, hu], by omega, by omega⟩
      · next hu =>
        exact ⟨n, 60, rfl, by simp [intervalUnits, hu], checkedMul_eq_ok.1 h⟩
      · next hu =>
        exact ⟨n, 3600, rfl, by simp [intervalUnits, hu], checkedMul_eq_ok.1 h⟩
      · next hu =>
        exact ⟨n, 86400, rfl, by simp [intervalUnits, hu], checkedMul_eq_ok.1 h⟩
      · cases h
    · intro h
      obtain ⟨n', k, hn', hk, hmul, rfl⟩ := h
      cases hn'
      simp only [intervalUnits, List.mem_cons, Prod.mk.injEq, List.not_mem_nil, or_false] at hk
      rcases hk with ⟨hu, rfl⟩ | ⟨hu, rfl⟩ | ⟨hu, rfl⟩ | ⟨hu, rfl⟩
      · simp only [hu, Nat.mul_one]
      · simp only [hu]
        exact checkedMul_eq_ok.2 ⟨hmul, rfl⟩
      · simp only [hu]
        exact checkedMul_eq_ok.2 ⟨hmul, rfl⟩
      · simp only [hu]
        exact checkedMul_eq_ok.2 ⟨hmul, rfl⟩

/-- A unit starts with a character that is no digit. -/
theorem unit_not_digit {u : String} {k : Nat} (h : (u, k) ∈ intervalUnits) :
    ∃ c rest, u.toList = c :: rest ∧ isAsciiDigit c = false := by
  simp only [intervalUnits, List.mem_cons, Prod.mk.injEq, List.not_mem_nil, or_false] at h
  rcases h with ⟨rfl, -⟩ | ⟨rfl, -⟩ | ⟨rfl, -⟩ | ⟨rfl, -⟩
  · exact ⟨'s', [], rfl, by decide⟩
  · exact ⟨'m', [], rfl, by decide⟩
  · exact ⟨'h', [], rfl, by decide⟩
  · exact ⟨'d', [], rfl, by decide⟩

theorem parseInterval_eq_ok {s : String} {d : Nat} :
    parseInterval s = .ok d ↔ SpellsInterval s d := by
  rw [parseInterval_eq]
  constructor
  · intro h
    split at h
    · cases h
    · obtain ⟨n, k, hn, hk, hmul, rfl⟩ := intervalOf_eq_ok.1 h
      obtain ⟨hne, hall, hval, hlt⟩ := parseU64_eq_some.1 hn
      refine ⟨String.ofList (s.toList.takeWhile isAsciiDigit),
        String.ofList (s.toList.dropWhile isAsciiDigit), k, n, ?_, ?_, ?_, ?_, hk, hlt, hmul, rfl⟩
      · rw [← String.ofList_append, List.takeWhile_append_dropWhile, String.ofList_toList]
      · intro hempty
        apply hne
        rw [← String.toList_ofList (l := s.toList.takeWhile isAsciiDigit), hempty]
        rfl
      · rwa [String.toList_ofList]
      · rwa [String.toList_ofList]
  · intro h
    obtain ⟨ds, u, k, n, rfl, hne, hall, hval, hk, hlt, hmul, rfl⟩ := h
    obtain ⟨c, rest, hu, hc⟩ := unit_not_digit hk
    have hds : ds.toList ≠ [] := by
      intro hnil
      exact hne (String.toList_eq_nil_iff.1 hnil)
    have htake : (ds ++ u).toList.takeWhile isAsciiDigit = ds.toList := by
      rw [String.toList_append, List.takeWhile_append_of_pos hall, hu,
        List.takeWhile_cons_of_neg (by simp [hc]), List.append_nil]
    have hdrop : (ds ++ u).toList.dropWhile isAsciiDigit = u.toList := by
      rw [String.toList_append, List.dropWhile_append_of_pos hall, hu,
        List.dropWhile_cons_of_neg (by simp [hc])]
    rw [htake, hdrop, if_neg (by simp [hu])]
    apply intervalOf_eq_ok.2
    refine ⟨n, k, parseU64_eq_some.2 ⟨hds, hall, hval, hlt⟩, ?_, hmul, rfl⟩
    rwa [String.ofList_toList]

/-- `parse_interval` returns `d` on the spellings of `d` seconds, an error on every other text, and
never panics. -/
theorem parseInterval_accepts_its_grammar (s : String) :
    (∀ d, parseIntervalSplit s = .ok d ↔ SpellsInterval s d) ∧
    ((¬ ∃ d, SpellsInterval s d) → ∃ message, parseIntervalSplit s = .err message) ∧
    ∀ message, parseIntervalSplit s ≠ .panicked message := by
  rw [parseIntervalSplit_eq]
  cases h : parseInterval s with
  | ok d =>
    refine ⟨fun d' => ?_, fun hnone => ?_, fun message hp => ?_⟩
    · rw [← parseInterval_eq_ok, h, Computed.ofExcept, Computed.ok.injEq, Except.ok.injEq]
    · exact absurd ⟨d, parseInterval_eq_ok.1 h⟩ hnone
    · cases hp
  | error m =>
    refine ⟨fun d' => ?_, fun _ => ⟨m, rfl⟩, fun message hp => ?_⟩
    · rw [← parseInterval_eq_ok, h, Computed.ofExcept]
      simp
    · cases hp

/-- Zeros in front are read, a sign is not. -/
example : parseIntervalSplit "007m" = .ok 420 ∧
    parseIntervalSplit "+7m" = .err "window '+7m': expected leading integer" := by decide

end LigateApi.Api.Stats
