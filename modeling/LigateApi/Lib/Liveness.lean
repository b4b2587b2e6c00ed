import Mathlib.Order.WellFounded
import LigateApi.Lib.Run

/-!
# Fair infinite runs

A `Trace` is an infinite run: the states it passes through and the events between them. It is
`Fair` to a kind of events if these keep coming, whatever comes in between. `Trace.eventually` is
the ranking rule: a rank that no step raises and the fair ones lower, until the goal is reached.
-/

namespace Lib.Run

variable {σ ε : Type} {step : σ → ε → Option σ}

/-- An infinite run. -/
structure Trace (step : σ → ε → Option σ) where
  state : Nat → σ
  event : Nat → ε
  next : ∀ n, step (state n) (event n) = some (state (n + 1))

namespace Trace

/-- The infinite run all of whose finite beginnings are runs. -/
def ofEvents (s : σ) (event : Nat → ε)
    (h : ∀ n, (exec step s ((List.range n).map event)).isSome) : Trace step where
  state n := (exec step s ((List.range n).map event)).get (h n)
  event := event
  next n := by
    obtain ⟨m, hm⟩ := Option.isSome_iff_exists.1 (h n)
    obtain ⟨m', hm'⟩ := Option.isSome_iff_exists.1 (h (n + 1))
    simp only [hm, hm', Option.get_some]
    rw [List.range_succ, List.map_append, List.map_singleton, exec_cut] at hm'
    obtain ⟨x, hx, hlast⟩ := hm'
    rw [hm, Option.some.injEq] at hx
    subst hx
    obtain ⟨y, hy, hend⟩ := exec_cons_eq_some.1 hlast
    rw [exec_nil, Option.some.injEq] at hend
    exact hend ▸ hy

variable {t : Trace step} {F : ε → Prop} {I G : σ → Prop}

/-- Events of the kind keep coming. -/
def Fair (t : Trace step) (F : ε → Prop) : Prop := ∀ n, ∃ m, n ≤ m ∧ F (t.event m)

/-- **Invariant rule.** -/
theorem keeps (h₀ : I (t.state 0)) (hstep : ∀ n, I (t.state n) → I (t.state (n + 1))) (n : Nat) :
    I (t.state n) := by
  induction n with
  | zero => exact h₀
  | succ n ih => exact hstep n ih

/-- **Ranking rule.** -/
theorem eventually {W : Type} [Preorder W] [WellFoundedLT W] (rank : σ → W) (hfair : t.Fair F)
    (hI : ∀ n, I (t.state n))
    (hle : ∀ n, I (t.state n) → ¬ G (t.state n) → ¬ G (t.state (n + 1)) →
      rank (t.state (n + 1)) ≤ rank (t.state n))
    (hlt : ∀ n, I (t.state n) → ¬ G (t.state n) → ¬ G (t.state (n + 1)) → F (t.event n) →
      rank (t.state (n + 1)) < rank (t.state n)) : ∃ n, G (t.state n) := by
  by_contra hnever
  simp only [not_exists] at hnever
  have hdown : ∀ n d, rank (t.state (n + d)) ≤ rank (t.state n) := by
    intro n d
    induction d with
    | zero => exact le_refl _
    | succ d ih => exact (hle (n + d) (hI _) (hnever _) (hnever _)).trans ih
  have hbelow : ∀ w, ∀ n, rank (t.state n) = w → False := by
    intro w
    induction w using WellFoundedLT.induction with
    | ind w ih =>
      intro n hn
      obtain ⟨m, hnm, hF⟩ := hfair n
      obtain ⟨d, rfl⟩ := Nat.exists_eq_add_of_le hnm
      have hless : rank (t.state (n + d + 1)) < w :=
        ((hlt (n + d) (hI _) (hnever _) (hnever _) hF).trans_le (hdown n d)).trans_eq hn
      exact ih _ hless (n + d + 1) rfl
  exact hbelow _ 0 rfl

end Trace

end Lib.Run
