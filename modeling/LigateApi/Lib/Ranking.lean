import Mathlib.Data.Prod.Lex
import LigateApi.Lib.Keyset

/-!
# Rankings

The first rows in descending order of a key: they are the ones above all others (`Ranks`). Where
the rows are numbers under names, equal numbers are in ascending order of their names (`groupKey`).
-/

namespace Lib.Ranking

variable {R K : Type} [LinearOrder K] {key : R → K} {rows top : List R} {n : Nat}

/-- `top` are the first `n` of the rows. -/
structure Ranks (key : R → K) (rows : List R) (n : Nat) (top : List R) : Prop where
  descending : top.Pairwise fun a b => key b < key a
  mem : ∀ r ∈ top, r ∈ rows
  short : top.length ≤ n
  /-- A row is left out only for lack of room, and below all that are not. -/
  rest : ∀ r ∈ rows, r ∉ top → top.length = n ∧ ∀ t ∈ top, key r < key t

/-- `SELECT … ORDER BY key DESC LIMIT n` -/
def best (key : R → K) (rows : List R) (n : Nat) : List R :=
  (Keyset.remaining key rows none).take n

theorem ranks_best (huniq : (rows.map key).Nodup) : Ranks key rows n (best key rows n) := by
  have hsorted : (Keyset.remaining key rows none).Pairwise fun a b => key b < key a :=
    Keyset.pairwise_remaining huniq
  have hmem : ∀ r, r ∈ Keyset.remaining key rows none ↔ r ∈ rows := by
    intro r
    rw [Keyset.mem_remaining]
    exact and_iff_left nofun
  refine ⟨hsorted.sublist (List.take_sublist _ _), ?_, List.length_take_le _ _, ?_⟩
  · exact fun r hr => (hmem r).1 (List.mem_of_mem_take hr)
  · intro r hr hnot
    rw [← hmem, ← List.take_append_drop n (Keyset.remaining key rows none), List.mem_append] at hr
    have hdrop : r ∈ (Keyset.remaining key rows none).drop n := hr.resolve_left hnot
    have hroom : n < (Keyset.remaining key rows none).length := by
      have hpos := List.length_pos_of_mem hdrop
      rw [List.length_drop] at hpos
      omega
    refine ⟨by rw [best, List.length_take, min_eq_left hroom.le], fun t ht => ?_⟩
    rw [← List.take_append_drop n (Keyset.remaining key rows none), List.pairwise_append] at hsorted
    exact hsorted.2.2 t ht r hdrop

/-! ## Numbers under names -/

variable {κ ν N : Type} [LinearOrder ν] [LinearOrder N]

/-- Larger numbers come first, and of two equal ones the one with the smaller name. -/
def groupKey (name : κ → ν) (g : κ × N) : N ×ₗ νᵒᵈ := toLex (g.2, OrderDual.toDual (name g.1))

theorem groupKey_lt {name : κ → ν} {g g' : κ × N} : groupKey name g < groupKey name g' ↔
    g.2 < g'.2 ∨ g.2 = g'.2 ∧ name g'.1 < name g.1 := by
  simp only [groupKey, Prod.Lex.toLex_lt_toLex, OrderDual.toDual_lt_toDual]

theorem ranks_named {name : κ → ν} {groups : List (κ × N)}
    (hnames : (groups.map fun g => name g.1).Nodup) :
    Ranks (groupKey name) groups n (best (groupKey name) groups n) := by
  apply ranks_best
  apply List.Nodup.of_map fun k => OrderDual.ofDual (ofLex k).2
  rwa [List.map_map]

end Lib.Ranking
