import Mathlib.Algebra.BigOperators.Group.List.Lemmas
import Mathlib.Algebra.GroupWithZero.Nat
import Mathlib.Data.List.Dedup
import Mathlib.Data.List.Sort
import Std.Data.TreeMap.Lemmas
import LigateApi.Lib.Table

/-!
# Grouped counts

`ascending` lists the distinct keys that occur, in order, and is the only strictly ascending list of
them (`ascending_unique`). `groupCount` is `SELECT key, COUNT(*) … GROUP BY key ORDER BY key`.
`getElem?_foldl_alter` reads an ordered map off the rows it was filled from.
-/

namespace Lib.Buckets

variable {α κ : Type} [LinearOrder κ] {l l' : List κ} {k : κ}

/-! ## Ascending lists -/

/-- The distinct elements in ascending order. -/
def ascending (l : List κ) : List κ := l.dedup.insertionSort (· ≤ ·)

@[simp] theorem mem_ascending : k ∈ ascending l ↔ k ∈ l := by
  rw [ascending, List.mem_insertionSort, List.mem_dedup]

theorem pairwise_ascending (l : List κ) : (ascending l).Pairwise (· < ·) := by
  have hle : (ascending l).Pairwise (· ≤ ·) := List.pairwise_insertionSort _ _
  have hne : (ascending l).Pairwise (· ≠ ·) :=
    (List.perm_insertionSort _ _).nodup_iff.2 (List.nodup_dedup l)
  exact (hle.and hne).imp fun h => lt_of_le_of_ne h.1 h.2

omit [LinearOrder κ] in
/-- Two lists in the same strict order with the same elements are equal. -/
theorem eq_of_pairwise {r : κ → κ → Prop} (hasymm : ∀ a b, r a b → ¬ r b a) (hl : l.Pairwise r)
    (hl' : l'.Pairwise r) (hmem : ∀ k, k ∈ l ↔ k ∈ l') : l = l' := by
  have hnodup : ∀ {m : List κ}, m.Pairwise r → m.Nodup := by
    intro m hm
    refine hm.imp fun {a b} hab he => ?_
    subst he
    exact hasymm a a hab hab
  have hperm : l.Perm l' := (List.perm_ext_iff_of_nodup (hnodup hl) (hnodup hl')).2 hmem
  exact hperm.eq_of_pairwise (fun a b _ _ hab hba => absurd hba (hasymm a b hab)) hl hl'

theorem ascending_congr (hmem : ∀ k, k ∈ l ↔ k ∈ l') : ascending l = ascending l' := by
  refine eq_of_pairwise (fun _ _ => lt_asymm) (pairwise_ascending l) (pairwise_ascending l') ?_
  intro k
  rw [mem_ascending, mem_ascending, hmem]

/-! ## Groups -/

/-- `SELECT key, COUNT(*) FROM rows GROUP BY key ORDER BY key ASC` -/
def groupCount (key : α → κ) (rows : List α) : List (κ × Nat) :=
  (ascending (rows.map key)).map fun k => (k, rows.countP fun r => key r = k)

variable {key : α → κ} {rows : List α}

theorem mem_groupCount {e : κ × Nat} :
    e ∈ groupCount key rows ↔ e.1 ∈ rows.map key ∧ e.2 = rows.countP fun r => key r = e.1 := by
  unfold groupCount
  rw [List.mem_map]
  constructor
  · rintro ⟨k, hk, rfl⟩
    exact ⟨mem_ascending.1 hk, rfl⟩
  · rintro ⟨hk, hn⟩
    exact ⟨e.1, mem_ascending.2 hk, by rw [← hn]⟩

/-- Under another name for the keys, the names of the groups are distinct. -/
theorem nodup_groupCount {ι : Type} {f : κ → ι} (hf : Set.InjOn f {k | k ∈ rows.map key}) :
    ((groupCount key rows).map fun e => f e.1).Nodup := by
  rw [groupCount, List.map_map]
  have hnodup : (ascending (rows.map key)).Nodup :=
    (pairwise_ascending _).imp fun hab he => absurd he hab.ne
  apply hnodup.map_on
  intro a ha b hb hab
  exact hf (mem_ascending.1 ha) (mem_ascending.1 hb) hab

/-- The groups share the rows out by a key: each has the number of its rows, and each row a
group. -/
structure Splits {κ : Type} [DecidableEq κ] (key : α → κ) (rows : List α)
    (groups : List (κ × Nat)) : Prop where
  counts : ∀ g ∈ groups, g.2 = (rows.countP fun r => key r = g.1) ∧ 0 < g.2
  covers : ∀ r ∈ rows, ∃ g ∈ groups, g.1 = key r
  total : (groups.map Prod.snd).sum = rows.length

/-- One group for each key. -/
theorem splits_of_keys {κ : Type} [DecidableEq κ] {key : α → κ} {ks : List κ}
    (hks : ks.Perm (rows.map key).dedup) :
    Splits key rows (ks.map fun k => (k, rows.countP fun r => key r = k)) where
  counts g hg := by
    obtain ⟨k, hk, rfl⟩ := List.mem_map.1 hg
    refine ⟨rfl, List.countP_pos_iff.2 ?_⟩
    obtain ⟨r, hr, hrk⟩ := List.mem_map.1 (List.mem_dedup.1 (hks.mem_iff.1 hk))
    exact ⟨r, hr, decide_eq_true hrk⟩
  covers r hr := by
    have hkey : key r ∈ ks := hks.mem_iff.2 (List.mem_dedup.2 (List.mem_map_of_mem hr))
    exact ⟨_, List.mem_map_of_mem hkey, rfl⟩
  total := by
    have hcount : ∀ k, (rows.countP fun r => key r = k) = (rows.map key).count k := by
      intro k
      rw [List.count, List.countP_map]
      apply List.countP_congr
      intro r _
      simp
    calc ((ks.map fun k => (k, rows.countP fun r => key r = k)).map Prod.snd).sum
        = (ks.map fun k => (rows.map key).count k).sum := by
          rw [List.map_map]
          exact congrArg List.sum (List.map_congr_left fun k _ => hcount k)
      _ = ((rows.map key).dedup.map fun k => (rows.map key).count k).sum := (hks.map _).sum_nat
      _ = rows.length := by rw [List.sum_map_count_dedup_eq_length, List.length_map]

theorem splits_groupCount : Splits key rows (groupCount key rows) :=
  splits_of_keys (List.perm_insertionSort _ _)

/-- The order of the groups does not matter. -/
theorem Splits.perm {κ : Type} [DecidableEq κ] {key : α → κ} {groups groups' : List (κ × Nat)}
    (h : Splits key rows groups) (hp : groups'.Perm groups) : Splits key rows groups' where
  counts g hg := h.counts g (hp.mem_iff.1 hg)
  covers r hr := by
    obtain ⟨g, hg, hk⟩ := h.covers r hr
    exact ⟨g, hp.mem_iff.2 hg, hk⟩
  total := by rw [(hp.map Prod.snd).sum_nat, h.total]

/-- What is shared out is a column of the rows. -/
theorem Splits.of_map {κ β : Type} [DecidableEq κ] {key : α → κ} {groups : List (κ × Nat)}
    {f : β → α} {rows : List β} (h : Splits key (rows.map f) groups) :
    Splits (fun r => key (f r)) rows groups where
  counts e he := by
    obtain ⟨hcount, hpos⟩ := h.counts e he
    rw [List.countP_map] at hcount
    exact ⟨hcount, hpos⟩
  covers r hr := h.covers (f r) (List.mem_map_of_mem hr)
  total := by rw [h.total, List.length_map]

/-! ## Ordered maps -/

/-- A map filled row by row: an entry is the row's under that key, put over what was there. -/
theorem getElem?_foldl_alter {κ β : Type} [DecidableEq κ] {cmp : κ → κ → Ordering}
    [Std.TransCmp cmp] [Std.LawfulEqCmp cmp] (key : α → κ) (f : α → Option β → β)
    {rows : List α} (hkeys : (rows.map key).Nodup) (m : Std.TreeMap κ β cmp) (k : κ) :
    (rows.foldl (fun m r => m.alter (key r) fun e => some (f r e)) m)[k]? =
      match Table.lookup key k rows with
      | some r => some (f r m[k]?)
      | none => m[k]? := by
  induction rows generalizing m with
  | nil => rfl
  | cons r rows ih =>
    rw [List.map_cons, List.nodup_cons] at hkeys
    rw [List.foldl_cons, ih hkeys.2, Std.TreeMap.getElem?_alter, Table.lookup_cons]
    by_cases hk : key r = k
    · have hnone : Table.lookup key k rows = none := by
        refine Table.lookup_eq_none.2 fun x hx he => hkeys.1 ?_
        rw [hk, ← he]
        exact List.mem_map_of_mem hx
      simp only [hnone, hk, if_true, Std.LawfulEqCmp.compare_eq_iff_eq]
    · simp only [hk, if_false, Std.LawfulEqCmp.compare_eq_iff_eq]

end Lib.Buckets
