import LigateApi.Lib.Table

/-!
# Tables row by row

`Sound` says of one table that its keys are unique and that every row meets a condition. `Follows`
compares two states of a table: a row of the earlier state has a row under its key in the later one,
and the two are related. Each has one rule for each of the writes `append`, `update` and `upsert`;
a unique column besides the key is carried through the same writes by `nodup_snoc` and
`nodup_update`.
-/

namespace Lib.Table

variable {α β κ : Type} [DecidableEq κ] {key : α → κ} {k : κ} {f : α → α} {t t' : List α} {row r : α}

/-! ## Unique columns -/

omit [DecidableEq κ] in
/-- A row added whose value in the column is free. -/
theorem nodup_snoc {g : α → β} (hn : (t.map g).Nodup) (hfree : ∀ r ∈ t, g r ≠ g row) :
    ((t ++ [row]).map g).Nodup := by
  rw [List.map_append, List.map_singleton]
  refine List.nodup_append.2 ⟨hn, List.nodup_singleton _, ?_⟩
  intro a ha b hb
  obtain ⟨r, hr, rfl⟩ := List.mem_map.1 ha
  rw [List.mem_singleton.1 hb]
  exact hfree r hr

/-- A rewrite that keeps the column. -/
theorem nodup_update_same {g : α → β} (hn : (t.map g).Nodup)
    (hg : ∀ r ∈ t, key r = k → g (f r) = g r) : ((update key k f t).map g).Nodup := by
  rw [map_update hg]
  exact hn

/-- The row under a key gets a value that no other row has in the column. -/
theorem nodup_update {g : α → β} {v : β} (hkeys : (t.map key).Nodup) (hn : (t.map g).Nodup)
    (hf : ∀ r ∈ t, key r = k → g (f r) = v) (hfree : ∀ r ∈ t, key r ≠ k → g r ≠ v) :
    ((update key k f t).map g).Nodup := by
  induction t with
  | nil => exact List.nodup_nil
  | cons x t ih =>
    obtain ⟨hxkeys, hkeys⟩ := List.nodup_cons.1 hkeys
    obtain ⟨hxn, hn⟩ := List.nodup_cons.1 hn
    have hrest := ih hkeys hn (fun r hr => hf r (List.mem_cons_of_mem _ hr)) fun r hr =>
      hfree r (List.mem_cons_of_mem _ hr)
    rw [update, List.map_cons, List.map_cons, ← update]
    refine List.nodup_cons.2 ⟨fun hmem => ?_, hrest⟩
    obtain ⟨y, hy, hyx⟩ := List.mem_map.1 hmem
    obtain ⟨z, hz, ⟨hzk, rfl⟩ | ⟨hzk, rfl⟩⟩ := mem_update.1 hy
    · -- the rewritten row is further down, so the head is another row
      have hxk : key x ≠ k := by
        intro hxk
        exact hxkeys (List.mem_map.2 ⟨z, hz, hzk.trans hxk.symm⟩)
      rw [if_neg hxk, hf z (List.mem_cons_of_mem _ hz) hzk] at hyx
      exact hfree x List.mem_cons_self hxk hyx.symm
    · by_cases hxk : key x = k
      · rw [if_pos hxk, hf x List.mem_cons_self hxk] at hyx
        exact hfree y (List.mem_cons_of_mem _ hz) hzk hyx
      · rw [if_neg hxk] at hyx
        exact hxn (List.mem_map.2 ⟨y, hz, hyx⟩)

/-! ## Rows that meet a condition -/

/-- Unique keys, and rows that all meet `P`. -/
structure Sound (key : α → κ) (P : α → Prop) (t : List α) : Prop where
  unique : (t.map key).Nodup
  rows : ∀ r ∈ t, P r

section Sound

variable {P Q : α → Prop}

omit [DecidableEq κ] in
theorem sound_nil : Sound key P ([] : List α) := ⟨List.nodup_nil, List.forall_mem_nil _⟩

omit [DecidableEq κ] in
theorem Sound.imp (h : Sound key P t) (hPQ : ∀ r, P r → Q r) : Sound key Q t :=
  ⟨h.unique, fun r hr => hPQ r (h.rows r hr)⟩

omit [DecidableEq κ] in
theorem Sound.snoc (h : Sound key P t) (hnew : ∀ r ∈ t, key r ≠ key row) (hrow : P row) :
    Sound key P (t ++ [row]) := by
  refine ⟨nodup_snoc h.unique hnew, fun r hr => ?_⟩
  rcases List.mem_append.1 hr with hr | hr
  · exact h.rows r hr
  · rw [List.mem_singleton.1 hr]
    exact hrow

theorem Sound.update (h : Sound key P t) (hf : ∀ r, key r = k → key (f r) = k)
    (hP : ∀ r ∈ t, key r = k → P r → P (f r)) : Sound key P (update key k f t) := by
  refine ⟨?_, fun r hr => ?_⟩
  · rw [map_key_update hf]
    exact h.unique
  · obtain ⟨x, hx, ⟨hk, rfl⟩ | ⟨-, rfl⟩⟩ := mem_update.1 hr
    · exact hP x hx hk (h.rows x hx)
    · exact h.rows r hx

theorem Sound.upsert (h : Sound key P t) (hf : ∀ r, key (f r) = key r)
    (hrow : lookup key (key row) t = none → P row)
    (hP : ∀ r ∈ t, key r = key row → P r → P (f r)) : Sound key P (upsert key row f t) := by
  cases hl : lookup key (key row) t with
  | none =>
    rw [upsert_fresh hl]
    exact h.snoc (lookup_eq_none.1 hl) (hrow hl)
  | some x =>
    rw [upsert_present hl]
    exact h.update (fun r hr => (hf r).trans hr) hP

end Sound

/-! ## Two states of a table -/

/-- Every row of `t` has a row under its key in `t'`, and is related to it. -/
def Follows (key : α → κ) (R : α → α → Prop) (t t' : List α) : Prop :=
  ∀ r ∈ t, ∃ r' ∈ t', key r' = key r ∧ R r r'

section Follows

variable {R : α → α → Prop}

omit [DecidableEq κ] in
theorem Follows.refl (hR : ∀ r, R r r) (t : List α) : Follows key R t t :=
  fun r hr => ⟨r, hr, rfl, hR r⟩

omit [DecidableEq κ] in
theorem Follows.trans {t'' : List α} (hR : ∀ a b c, R a b → R b c → R a c)
    (h : Follows key R t t') (h' : Follows key R t' t'') : Follows key R t t'' := by
  intro r hr
  obtain ⟨x, hx, hxk, hrx⟩ := h r hr
  obtain ⟨y, hy, hyk, hxy⟩ := h' x hx
  exact ⟨y, hy, hyk.trans hxk, hR r x y hrx hxy⟩

omit [DecidableEq κ] in
theorem follows_snoc (hR : ∀ r, R r r) : Follows key R t (t ++ [row]) :=
  fun r hr => ⟨r, List.mem_append_left _ hr, rfl, hR r⟩

theorem follows_update (hR : ∀ r, R r r) (hf : ∀ r, key r = k → key (f r) = k)
    (hRf : ∀ r ∈ t, key r = k → R r (f r)) : Follows key R t (update key k f t) := by
  intro r hr
  by_cases hk : key r = k
  · refine ⟨f r, mem_update.2 ⟨r, hr, .inl ⟨hk, rfl⟩⟩, ?_, hRf r hr hk⟩
    rw [hf r hk, hk]
  · exact ⟨r, mem_update.2 ⟨r, hr, .inr ⟨hk, rfl⟩⟩, rfl, hR r⟩

theorem follows_upsert (hR : ∀ r, R r r) (hf : ∀ r, key (f r) = key r)
    (hRf : ∀ r ∈ t, key r = key row → R r (f r)) : Follows key R t (upsert key row f t) := by
  cases hl : lookup key (key row) t with
  | none =>
    rw [upsert_fresh hl]
    exact follows_snoc hR
  | some x =>
    rw [upsert_present hl]
    exact follows_update hR (fun r hr => (hf r).trans hr) hRf

end Follows

end Lib.Table
