import Mathlib.Data.List.Induction
import Mathlib.Data.List.ReduceOption

/-!
# Runs of a partial step function

A system is a step function `σ → ε → Option σ`: `none` when the event is not enabled in the
state. `exec` folds it over a list of events, `Along P` says that every event of a run meets `P`
in the state it is taken from. The induction rules are `exec_invariant` (an invariant every step
keeps), `exec_invariant_along` (an invariant the steps meeting `P` keep) and `exec_history` (an
invariant that speaks of the events so far, at every prefix of a run); `exec_cut` breaks a run at
any of its states. A pool is a list of processes that are added at the end and replaced in place;
`Pairs` is what any two of them have to do with each other. `observe` puts a reader beside the
system: it steps in between, and keeps what it sees of the state. A computation that may fail
with an error is taken apart by `bind_eq_ok`.
-/

namespace Lib.Run

variable {σ ε : Type}

/-- The state a list of events leads to, if each is enabled in its turn. -/
def exec (step : σ → ε → Option σ) : σ → List ε → Option σ
  | s, [] => some s
  | s, e :: es => (step s e).bind fun s' => exec step s' es

/-- Every event of the run meets `P` in the state it is taken from. -/
def Along (step : σ → ε → Option σ) (P : σ → ε → Prop) : σ → List ε → Prop
  | _, [] => True
  | s, e :: es => P s e ∧ ∀ s', step s e = some s' → Along step P s' es

variable {step : σ → ε → Option σ}

instance decidableAlong {P : σ → ε → Prop} [∀ s e, Decidable (P s e)] :
    ∀ (s : σ) (es : List ε), Decidable (Along step P s es)
  | _, [] => .isTrue trivial
  | s, e :: es =>
    match h : step s e with
    | none => decidable_of_iff (P s e) (by simp [Along, h])
    | some s' =>
      have := decidableAlong (P := P) s' es
      decidable_of_iff (P s e ∧ Along step P s' es) (by simp [Along, h])

@[simp] theorem exec_nil (s : σ) : exec step s [] = some s := rfl

theorem exec_cons_eq_some {s t : σ} {e : ε} {es : List ε} :
    exec step s (e :: es) = some t ↔ ∃ s', step s e = some s' ∧ exec step s' es = some t := by
  simp only [exec, Option.bind_eq_some_iff]

/-- A run over `es ++ fs` passes through the state `es` leads to. -/
theorem exec_cut {s t : σ} {es fs : List ε} :
    exec step s (es ++ fs) = some t ↔ ∃ m, exec step s es = some m ∧ exec step m fs = some t := by
  induction es generalizing s with
  | nil => simp
  | cons e es ih =>
    simp only [List.cons_append, exec_cons_eq_some, ih]
    constructor
    · rintro ⟨s', hs', m, hm, ht⟩
      exact ⟨m, ⟨s', hs', hm⟩, ht⟩
    · rintro ⟨m, ⟨s', hs', hm⟩, ht⟩
      exact ⟨s', hs', m, hm, ht⟩

/-- **Invariant rule.** -/
theorem exec_invariant {I : σ → Prop} (hstep : ∀ s e s', I s → step s e = some s' → I s')
    {s t : σ} {es : List ε} (hs : I s) (h : exec step s es = some t) : I t := by
  induction es generalizing s with
  | nil =>
    rw [exec_nil, Option.some.injEq] at h
    exact h ▸ hs
  | cons e es ih =>
    obtain ⟨s', hs', ht⟩ := exec_cons_eq_some.1 h
    exact ih (hstep s e s' hs hs') ht

/-- **Conditional invariant rule**: only the steps that meet `P` need to keep the invariant. -/
theorem exec_invariant_along {I : σ → Prop} {P : σ → ε → Prop}
    (hstep : ∀ s e s', I s → P s e → step s e = some s' → I s')
    {s t : σ} {es : List ε} (hs : I s) (hP : Along step P s es)
    (h : exec step s es = some t) : I t := by
  induction es generalizing s with
  | nil =>
    rw [exec_nil, Option.some.injEq] at h
    exact h ▸ hs
  | cons e es ih =>
    obtain ⟨s', hs', ht⟩ := exec_cons_eq_some.1 h
    exact ih (hstep s e s' hs hP.1 hs') (hP.2 s' hs') ht

/-- **History rule**: an invariant of the events so far and the state they lead to holds at every
prefix of a list if each event of the list extends it. -/
theorem exec_history {I : List ε → σ → Prop} {s : σ} {all : List ε} (h0 : I [] s)
    (hstep : ∀ es e m t, es ++ [e] <+: all → exec step s es = some m → I es m →
      step m e = some t → I (es ++ [e]) t)
    {es : List ε} {t : σ} (hes : es <+: all) (h : exec step s es = some t) : I es t := by
  induction es using List.reverseRecOn generalizing t with
  | nil =>
    rw [exec_nil, Option.some.injEq] at h
    exact h ▸ h0
  | append_singleton es e ih =>
    obtain ⟨m, hm, he⟩ := exec_cut.1 h
    obtain ⟨t', ht', hend⟩ := exec_cons_eq_some.1 he
    rw [exec_nil, Option.some.injEq] at hend
    subst hend
    exact hstep es e m t' hes hm (ih ((List.prefix_append es [e]).trans hes) hm) ht'

/-- What some event of a history has, one event later. -/
theorem exists_mem_snoc_iff {p : ε → Prop} {es : List ε} {e : ε} :
    (∃ x ∈ es ++ [e], p x) ↔ (∃ x ∈ es, p x) ∨ p e := by
  simp only [List.mem_append, List.mem_singleton, or_and_right, exists_or, exists_eq_left]

/-- The condition on a run splits at the state where the run is cut. -/
theorem along_append {P : σ → ε → Prop} {s m : σ} {es fs : List ε}
    (h : exec step s es = some m) :
    Along step P s (es ++ fs) ↔ Along step P s es ∧ Along step P m fs := by
  induction es generalizing s with
  | nil =>
    rw [exec_nil, Option.some.injEq] at h
    simp [Along, h]
  | cons e es ih =>
    obtain ⟨s', hs', hm⟩ := exec_cons_eq_some.1 h
    have hall : (∀ x, step s e = some x → Along step P x (es ++ fs)) ↔
        (∀ x, step s e = some x → Along step P x es) ∧ Along step P m fs := by
      simp only [hs', Option.some.injEq, forall_eq', ih hm]
    simp only [List.cons_append, Along, hall, and_assoc]

/-- The condition at a state the run passes through. -/
theorem Along.at_prefix {P : σ → ε → Prop} {s m : σ} {e : ε} {es all : List ε}
    (h : Along step P s all) (hpre : es ++ [e] <+: all) (hm : exec step s es = some m) : P m e := by
  obtain ⟨rest, rfl⟩ := hpre
  rw [List.append_assoc, along_append hm] at h
  exact h.2.1

theorem Along.and {P Q : σ → ε → Prop} {s : σ} {es : List ε} (hP : Along step P s es)
    (hQ : Along step Q s es) : Along step (fun s e => P s e ∧ Q s e) s es := by
  induction es generalizing s with
  | nil => trivial
  | cons e es ih => exact ⟨⟨hP.1, hQ.1⟩, fun s' hs' => ih (hP.2 s' hs') (hQ.2 s' hs')⟩

theorem Along.imp {P Q : σ → ε → Prop} {s : σ} {es : List ε} (h : Along step P s es)
    (hPQ : ∀ s e, P s e → Q s e) : Along step Q s es := by
  induction es generalizing s with
  | nil => trivial
  | cons e es ih => exact ⟨hPQ s e h.1, fun s' hs' => ih (h.2 s' hs')⟩

/-- The condition holds along a run if it holds at each of its cuts. -/
theorem along_of_forall {P : σ → ε → Prop} {s : σ} {es : List ε}
    (h : ∀ ds e fs m, es = ds ++ e :: fs → exec step s ds = some m → P m e) :
    Along step P s es := by
  induction es generalizing s with
  | nil => trivial
  | cons e es ih =>
    refine ⟨h [] e es s rfl rfl, fun s' hs' => ih fun ds f fs m hes hm => ?_⟩
    exact h (e :: ds) f fs m (by rw [hes, List.cons_append])
      (exec_cons_eq_some.2 ⟨s', hs', hm⟩)

/-- A condition on the events alone. -/
theorem along_of_mem {P : σ → ε → Prop} {s : σ} {es : List ε} (h : ∀ e ∈ es, ∀ s, P s e) :
    Along step P s es := by
  refine along_of_forall fun ds e fs m hes _ => h e ?_ m
  rw [hes]
  simp

/-! ## Pools of processes -/

section Pool

variable {α : Type} {l : List α} {i j : Nat} {a x : α}

theorem getElem?_set_cases (h : (l.set i a)[j]? = some x) :
    (j = i ∧ x = a) ∨ (j ≠ i ∧ l[j]? = some x) := by
  rw [List.getElem?_set] at h
  by_cases hij : i = j
  · subst hij
    by_cases hlt : i < l.length
    · simp only [if_true, hlt, Option.some.injEq] at h
      exact .inl ⟨rfl, h.symm⟩
    · simp [hlt] at h
  · rw [if_neg hij] at h
    exact .inr ⟨fun e => hij e.symm, h⟩

theorem getElem?_snoc_cases (h : (l ++ [a])[j]? = some x) :
    l[j]? = some x ∨ (j = l.length ∧ x = a) := by
  rw [List.getElem?_append] at h
  split at h
  · exact .inl h
  · rw [List.getElem?_singleton] at h
    split at h
    · exact .inr ⟨by omega, (Option.some.inj h).symm⟩
    · cases h

/-- `Q` holds of any two processes of the pool. -/
def Pairs (Q : α → α → Prop) (l : List α) : Prop :=
  ∀ (i j : Nat) (r r' : α), i ≠ j → l[i]? = some r → l[j]? = some r' → Q r r'

variable {Q : α → α → Prop}

/-- A process replaced by one that fits the others. -/
theorem Pairs.set (hsymm : ∀ r r', Q r r' → Q r' r) (h : Pairs Q l)
    (hnew : ∀ j x, j ≠ i → l[j]? = some x → Q a x) : Pairs Q (l.set i a) := by
  intro j k x y hjk hx hy
  rcases getElem?_set_cases hx with ⟨rfl, rfl⟩ | ⟨hj, hx'⟩ <;>
    rcases getElem?_set_cases hy with ⟨rfl, rfl⟩ | ⟨hk, hy'⟩
  · exact absurd rfl hjk
  · exact hnew k y hk hy'
  · exact hsymm _ _ (hnew j x hj hx')
  · exact h j k x y hjk hx' hy'

/-- A process added that fits every other. -/
theorem Pairs.snoc (hsymm : ∀ r r', Q r r' → Q r' r) (h : Pairs Q l) (hnew : ∀ x, Q a x) :
    Pairs Q (l ++ [a]) := by
  intro j k x y hjk hx hy
  rcases getElem?_snoc_cases hx with hx' | ⟨-, rfl⟩
  · rcases getElem?_snoc_cases hy with hy' | ⟨-, rfl⟩
    · exact h j k x y hjk hx' hy'
    · exact hsymm _ _ (hnew x)
  · exact hnew y

end Pool

/-! ## A reader beside the system -/

section Observe

variable {β : Type} {view : σ → β}

/-- A step of the system (`some`), or a read that keeps what it sees (`none`). -/
def observe (step : σ → ε → Option σ) (view : σ → β) : σ × List β → Option ε → Option (σ × List β)
  | (s, seen), some e => (step s e).map fun s' => (s', seen)
  | (s, seen), none => some (s, seen ++ [view s])

/-- **Reads of a growing system**: what is read later is related to what was read before, and the
state at the end to all of it. -/
theorem observe_pairwise {I : σ → Prop} {R : β → β → Prop} (hrefl : ∀ b, R b b)
    (htrans : ∀ a b c, R a b → R b c → R a c)
    (hkeeps : ∀ s e s', I s → step s e = some s' → I s')
    (hgrows : ∀ s e s', I s → step s e = some s' → R (view s) (view s'))
    {s t : σ} {seen : List β} {es : List (Option ε)} (hs : I s)
    (h : exec (observe step view) (s, []) es = some (t, seen)) :
    I t ∧ (seen ++ [view t]).Pairwise R := by
  refine exec_invariant (I := fun m => I m.1 ∧ (m.2 ++ [view m.1]).Pairwise R) ?_
    ⟨hs, List.pairwise_singleton R _⟩ h
  rintro ⟨m, seen⟩ e ⟨m', seen'⟩ ⟨hm, hpair⟩ hstep
  obtain ⟨hpast, -, hnow⟩ := List.pairwise_append.1 hpair
  cases e with
  | some e =>
    simp only [observe, Option.map_eq_some_iff, Prod.mk.injEq] at hstep
    obtain ⟨n, hn, rfl, rfl⟩ := hstep
    refine ⟨hkeeps m e n hm hn, List.pairwise_append.2 ⟨hpast, List.pairwise_singleton R _, ?_⟩⟩
    intro a ha b hb
    rw [List.mem_singleton.1 hb]
    exact htrans _ _ _ (hnow a ha _ (List.mem_singleton.2 rfl)) (hgrows m e n hm hn)
  | none =>
    simp only [observe, Option.some.injEq, Prod.mk.injEq] at hstep
    obtain ⟨rfl, rfl⟩ := hstep
    refine ⟨hm, List.pairwise_append.2 ⟨hpair, List.pairwise_singleton R _, ?_⟩⟩
    intro a ha b hb
    rw [List.mem_singleton.1 hb]
    rcases List.mem_append.1 ha with ha | ha
    · exact hnow a ha _ (List.mem_singleton.2 rfl)
    · rw [List.mem_singleton.1 ha]
      exact hrefl _

/-- **Reads of reachable states**: what holds of every state the system passes through, every read
finds. -/
theorem observe_holds {I : σ → Prop} (hkeeps : ∀ s e s', I s → step s e = some s' → I s')
    {s t : σ} {seen : List β} {es : List (Option ε)} (hs : I s)
    (h : exec (observe step view) (s, []) es = some (t, seen)) :
    I t ∧ ∀ b ∈ seen, ∃ m, I m ∧ view m = b := by
  refine exec_invariant (I := fun m => I m.1 ∧ ∀ b ∈ m.2, ∃ n, I n ∧ view n = b) ?_
    ⟨hs, List.forall_mem_nil _⟩ h
  rintro ⟨m, seen⟩ e ⟨m', seen'⟩ ⟨hm, hseen⟩ hstep
  cases e with
  | some e =>
    simp only [observe, Option.map_eq_some_iff, Prod.mk.injEq] at hstep
    obtain ⟨n, hn, rfl, rfl⟩ := hstep
    exact ⟨hkeeps m e n hm hn, hseen⟩
  | none =>
    simp only [observe, Option.some.injEq, Prod.mk.injEq] at hstep
    obtain ⟨rfl, rfl⟩ := hstep
    refine ⟨hm, fun b hb => ?_⟩
    rcases List.mem_append.1 hb with hb | hb
    · exact hseen b hb
    · exact ⟨m, hm, (List.mem_singleton.1 hb).symm⟩

/-- Reads do not count for a condition on the steps. -/
theorem along_observe {P : σ → ε → Prop} {s : σ} {seen : List β} {es : List (Option ε)}
    (h : Along step P s es.reduceOption) :
    Along (observe step view) (fun m e => ∀ x ∈ e, P m.1 x) (s, seen) es := by
  induction es generalizing s seen with
  | nil => trivial
  | cons e es ih =>
    cases e with
    | none =>
      refine ⟨nofun, ?_⟩
      rintro _ ⟨⟩
      exact ih h
    | some e =>
      rw [List.reduceOption_cons_of_some] at h
      refine ⟨fun x hx => ?_, fun m hm => ?_⟩
      · cases hx
        exact h.1
      · simp only [observe, Option.map_eq_some_iff] at hm
        obtain ⟨s', hs', rfl⟩ := hm
        exact ih (h.2 s' hs')

/-- **Reads along a condition**: the states a reader meets in a run whose steps meet `P`. -/
theorem observe_along {I : σ → Prop} {P : σ → ε → Prop} {R : σ → σ → Prop} (hrefl : ∀ s, R s s)
    (htrans : ∀ a b c, R a b → R b c → R a c)
    (hstep : ∀ s e s', I s → P s e → step s e = some s' → I s' ∧ R s s')
    {s t : σ} {seen : List σ} {es : List (Option ε)} (hs : I s)
    (hP : Along step P s es.reduceOption)
    (h : exec (observe step id) (s, []) es = some (t, seen)) :
    (∀ m ∈ seen, I m) ∧ seen.Pairwise R := by
  have hinv : I t ∧ (∀ m ∈ seen, I m ∧ R m t) ∧ seen.Pairwise R := by
    refine exec_invariant_along
      (I := fun m => I m.1 ∧ (∀ x ∈ m.2, I x ∧ R x m.1) ∧ m.2.Pairwise R) ?_
      ⟨hs, List.forall_mem_nil _, .nil⟩ (along_observe hP) h
    rintro ⟨m, seen⟩ e ⟨m', seen'⟩ ⟨hm, hseen, hpair⟩ he hobs
    cases e with
    | some e =>
      simp only [observe, Option.map_eq_some_iff, Prod.mk.injEq] at hobs
      obtain ⟨n, hn, rfl, rfl⟩ := hobs
      obtain ⟨hn, hmn⟩ := hstep m e n hm (he e rfl) hn
      exact ⟨hn, fun x hx => ⟨(hseen x hx).1, htrans _ _ _ (hseen x hx).2 hmn⟩, hpair⟩
    | none =>
      simp only [observe, Option.some.injEq, Prod.mk.injEq] at hobs
      obtain ⟨rfl, rfl⟩ := hobs
      refine ⟨hm, fun x hx => ?_, List.pairwise_append.2 ⟨hpair, List.pairwise_singleton R _, ?_⟩⟩
      · rcases List.mem_append.1 hx with hx | hx
        · exact hseen x hx
        · rw [List.mem_singleton.1 hx]
          exact ⟨hm, hrefl _⟩
      · intro a ha b hb
        rw [List.mem_singleton.1 hb]
        exact (hseen a ha).2
  exact ⟨fun m hm => (hinv.2.1 m hm).1, hinv.2.2⟩

/-- Two reads, the earlier one first. -/
theorem reads_related {R : β → β → Prop} {seen : List β} {last : β} {i j : Nat} {a b : β}
    (h : (seen ++ [last]).Pairwise R) (hij : i < j) (hi : seen[i]? = some a)
    (hj : seen[j]? = some b) : R a b := by
  obtain ⟨hi', rfl⟩ := List.getElem?_eq_some_iff.1 hi
  obtain ⟨hj', rfl⟩ := List.getElem?_eq_some_iff.1 hj
  exact List.pairwise_iff_getElem.1 (List.pairwise_append.1 h).1 i j hi' hj' hij

end Observe

/-! ## Computations that may fail -/

theorem bind_eq_ok {err α β : Type} {x : Except err α} {f : α → Except err β} {b : β} :
    (x >>= f) = .ok b ↔ ∃ a, x = .ok a ∧ f a = .ok b := by
  cases x <;> simp [bind, Except.bind]

end Lib.Run
