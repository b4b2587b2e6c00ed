import Mathlib.Data.List.Nodup

/-!
# Keyed tables as lists of rows

A table is a list of rows with a key. `lookup` reads the row under a key, `update` is
`UPDATE … WHERE key = k`, and `upsert` is `INSERT … ON CONFLICT (key) DO UPDATE`: it appends the
new row when its key is absent and otherwise rewrites the row that holds the key. The laws are
read off `lookup` (`lookup_update`, `lookup_upsert`), off counts over the rows (`countP_update`) and
off a single column (`columnAt`).
-/

namespace Lib.Table

variable {α κ : Type} [DecidableEq κ]

/-- The row under key `k`. -/
def lookup (key : α → κ) (k : κ) (t : List α) : Option α :=
  t.find? fun r => decide (key r = k)

/-- Rewrite the rows under key `k` by `f`. -/
def update (key : α → κ) (k : κ) (f : α → α) (t : List α) : List α :=
  t.map fun r => if key r = k then f r else r

/-- Append `row` if its key is absent, and otherwise rewrite the row holding the key by `f`. -/
def upsert (key : α → κ) (row : α) (f : α → α) (t : List α) : List α :=
  if (lookup key (key row) t).isSome then update key (key row) f t else t ++ [row]

variable {key : α → κ} {k k' : κ} {f : α → α} {t : List α} {row r : α}

/-! ## Lookup -/

@[simp] theorem lookup_nil : lookup key k ([] : List α) = none := rfl

theorem lookup_cons : lookup key k (r :: t) = if key r = k then some r else lookup key k t := by
  unfold lookup
  by_cases h : key r = k <;> simp [h]

theorem lookup_eq_none : lookup key k t = none ↔ ∀ r ∈ t, key r ≠ k := by
  simp [lookup]

theorem lookup_mem (h : lookup key k t = some r) : r ∈ t := List.mem_of_find?_eq_some h

theorem lookup_key (h : lookup key k t = some r) : key r = k := by
  simpa using List.find?_some h

theorem lookup_isSome_of_mem (key : α → κ) (hr : r ∈ t) : (lookup key (key r) t).isSome := by
  cases h : lookup key (key r) t with
  | some _ => rfl
  | none => exact absurd rfl (lookup_eq_none.1 h r hr)

/-- With unique keys the row under a key is the one that has it. -/
theorem lookup_eq_some_iff (hn : (t.map key).Nodup) :
    lookup key k t = some r ↔ r ∈ t ∧ key r = k := by
  constructor
  · exact fun h => ⟨lookup_mem h, lookup_key h⟩
  · rintro ⟨hr, rfl⟩
    cases h : lookup key (key r) t with
    | none => exact absurd rfl (lookup_eq_none.1 h r hr)
    | some x => rw [List.inj_on_of_nodup_map hn (lookup_mem h) hr (lookup_key h)]

theorem lookup_append_singleton :
    lookup key k (t ++ [row]) =
      match lookup key k t with
      | some r => some r
      | none => if key row = k then some row else none := by
  induction t with
  | nil => simp [lookup_cons]
  | cons x t ih =>
    rw [List.cons_append, lookup_cons, lookup_cons, ih]
    by_cases h : key x = k <;> simp [h]

/-! ## Update -/

theorem lookup_update_of_key (hf : ∀ r, key r = k → key (f r) = k) :
    lookup key k' (update key k f t) =
      if k' = k then (lookup key k' t).map f else lookup key k' t := by
  induction t with
  | nil => simp [update]
  | cons x t ih =>
    have hx : key (if key x = k then f x else x) = key x := by
      split
      · rename_i hxk
        rw [hf x hxk, hxk]
      · rfl
    rw [update, List.map_cons, lookup_cons, hx, ← update, ih, lookup_cons]
    by_cases hxk' : key x = k' <;> by_cases hk : k' = k
    · subst hk; simp [hxk']
    · simp [hxk', hk]
    · subst hk; simp [hxk']
    · simp [hxk', hk]

theorem lookup_update (hf : ∀ r, key (f r) = key r) :
    lookup key k' (update key k f t) =
      if k' = k then (lookup key k' t).map f else lookup key k' t :=
  lookup_update_of_key fun r hr => (hf r).trans hr

theorem lookup_update_self (hf : ∀ r, key (f r) = key r) :
    lookup key k (update key k f t) = (lookup key k t).map f := by
  rw [lookup_update hf, if_pos rfl]

/-- An update that keeps a column keeps it under every key. -/
theorem map_lookup_update {β : Type} {g : α → β} (hf : ∀ r, key (f r) = key r)
    (hg : ∀ r, g (f r) = g r) :
    (lookup key k' (update key k f t)).map g = (lookup key k' t).map g := by
  rw [lookup_update hf]
  split
  · rw [Option.map_map]
    exact congrArg (fun g => Option.map g _) (funext hg)
  · rfl

/-- An update that keeps a column of the rows it rewrites keeps the column. -/
theorem map_update {β : Type} {g : α → β} (hg : ∀ r ∈ t, key r = k → g (f r) = g r) :
    (update key k f t).map g = t.map g := by
  unfold update
  rw [List.map_map]
  apply List.map_congr_left
  intro x hx
  simp only [Function.comp_apply]
  split
  · rename_i hk
    exact hg x hx hk
  · rfl

theorem map_key_update (hf : ∀ r, key r = k → key (f r) = k) :
    (update key k f t).map key = t.map key := by
  apply map_update
  intro x _ hx
  rw [hf x hx, hx]

/-- An update loses no key. -/
theorem exists_key_update (key : α → κ) (hf : ∀ r, key r = k → key (f r) = k) :
    (∃ r ∈ update key k f t, key r = k') ↔ ∃ r ∈ t, key r = k' := by
  have hmap : k' ∈ (update key k f t).map key ↔ k' ∈ t.map key := by rw [map_key_update hf]
  simpa only [List.mem_map] using hmap

/-- An update that changes no column `p` reads keeps the number of rows with `p`. -/
theorem countP_update {p : α → Bool} (hp : ∀ r, p (f r) = p r) :
    (update key k f t).countP p = t.countP p := by
  unfold update
  rw [List.countP_map]
  apply List.countP_congr
  intro x _
  simp only [Function.comp_apply]
  split
  · rw [hp]
  · rfl

theorem mem_update : r ∈ update key k f t ↔
    ∃ x ∈ t, (key x = k ∧ r = f x) ∨ (key x ≠ k ∧ r = x) := by
  unfold update
  rw [List.mem_map]
  constructor
  · rintro ⟨x, hx, rfl⟩
    refine ⟨x, hx, ?_⟩
    by_cases h : key x = k
    · exact .inl ⟨h, if_pos h⟩
    · exact .inr ⟨h, if_neg h⟩
  · rintro ⟨x, hx, ⟨h, rfl⟩ | ⟨h, rfl⟩⟩
    · exact ⟨x, hx, if_pos h⟩
    · exact ⟨r, hx, if_neg h⟩

/-! ## Upsert -/

theorem upsert_fresh (h : lookup key (key row) t = none) : upsert key row f t = t ++ [row] := by
  simp [upsert, h]

theorem upsert_present (h : lookup key (key row) t = some r) :
    upsert key row f t = update key (key row) f t := by
  simp [upsert, h]

theorem lookup_upsert (hf : ∀ r, key (f r) = key r) :
    lookup key k (upsert key row f t) =
      if k = key row then some ((lookup key k t).elim row f) else lookup key k t := by
  cases h : lookup key (key row) t with
  | none =>
    rw [upsert_fresh h, lookup_append_singleton]
    by_cases hk : k = key row
    · subst hk; simp [h]
    · have hk' : key row ≠ k := fun e => hk e.symm
      cases hl : lookup key k t <;> simp [hk, hk']
  | some r =>
    rw [upsert_present h, lookup_update hf]
    by_cases hk : k = key row
    · subst hk; simp [h]
    · simp [hk]

theorem lookup_upsert_self (hf : ∀ r, key (f r) = key r) :
    lookup key (key row) (upsert key row f t) = some ((lookup key (key row) t).elim row f) := by
  rw [lookup_upsert hf, if_pos rfl]

/-- An upsert that keeps a column where there is a row writes it only where there is none. -/
theorem map_lookup_upsert {β : Type} {g : α → β} (hf : ∀ r, key (f r) = key r)
    (hg : ∀ r, g (f r) = g r) :
    (lookup key k (upsert key row f t)).map g = (lookup key k t).map g ∨
      k = key row ∧ (lookup key k t).map g = none ∧
        (lookup key k (upsert key row f t)).map g = some (g row) := by
  rw [lookup_upsert hf]
  split
  · rename_i hk
    cases lookup key k t with
    | none => exact .inr ⟨hk, rfl, rfl⟩
    | some r => exact .inl (congrArg some (hg r))
  · exact .inl rfl

/-- The rows after an upsert. -/
theorem mem_upsert (h : r ∈ upsert key row f t) :
    (r ∈ t ∧ key r ≠ key row) ∨ r = row ∨ ∃ x ∈ t, key x = key row ∧ r = f x := by
  cases hl : lookup key (key row) t with
  | some x =>
    rw [upsert_present hl] at h
    obtain ⟨x, hx, ⟨hk, rfl⟩ | ⟨hk, rfl⟩⟩ := mem_update.1 h
    · exact .inr (.inr ⟨x, hx, hk, rfl⟩)
    · exact .inl ⟨hx, hk⟩
  | none =>
    rw [upsert_fresh hl] at h
    rcases List.mem_append.1 h with h | h
    · exact .inl ⟨h, lookup_eq_none.1 hl r h⟩
    · exact .inr (.inl (List.mem_singleton.1 h))

/-- The row the upsert has written. -/
theorem exists_mem_upsert (key : α → κ) (row : α) (f : α → α) (t : List α) :
    ∃ r ∈ upsert key row f t, r = row ∨ ∃ x ∈ t, key x = key row ∧ r = f x := by
  cases hl : lookup key (key row) t with
  | some x =>
    refine ⟨f x, ?_, .inr ⟨x, lookup_mem hl, lookup_key hl, rfl⟩⟩
    rw [upsert_present hl]
    exact mem_update.2 ⟨x, lookup_mem hl, .inl ⟨lookup_key hl, rfl⟩⟩
  | none => exact ⟨row, by simp [upsert_fresh hl], .inl rfl⟩

/-- An upsert loses no key. -/
theorem exists_key_upsert (hf : ∀ r, key (f r) = key r) (h : ∃ r ∈ t, key r = k) :
    ∃ r ∈ upsert key row f t, key r = k := by
  obtain ⟨r, hr, hrk⟩ := h
  cases hl : lookup key (key row) t with
  | some x =>
    rw [upsert_present hl]
    apply (exists_key_update key fun r hr => (hf r).trans hr).2
    exact ⟨r, hr, hrk⟩
  | none =>
    rw [upsert_fresh hl]
    exact ⟨r, List.mem_append_left _ hr, hrk⟩

/-- The rows under other keys stay as they are. -/
theorem mem_upsert_of_ne (hf : ∀ r, key (f r) = key r) (hne : key r ≠ key row) :
    r ∈ upsert key row f t ↔ r ∈ t := by
  constructor
  · intro h
    rcases mem_upsert h with h | rfl | ⟨x, -, hk, rfl⟩
    · exact h.1
    · exact absurd rfl hne
    · exact absurd ((hf x).trans hk) hne
  · intro h
    unfold upsert
    split
    · exact mem_update.2 ⟨r, h, .inr ⟨hne, rfl⟩⟩
    · exact List.mem_append_left _ h

theorem nodup_upsert (hf : ∀ r, key (f r) = key r) (hn : (t.map key).Nodup) :
    ((upsert key row f t).map key).Nodup := by
  cases h : lookup key (key row) t with
  | none =>
    rw [upsert_fresh h, List.map_append, List.nodup_append]
    refine ⟨hn, by simp, ?_⟩
    intro a ha b hb
    obtain ⟨x, hx, rfl⟩ := List.mem_map.1 ha
    simp only [List.map_cons, List.map_nil, List.mem_singleton] at hb
    exact hb ▸ lookup_eq_none.1 h x hx
  | some r => rwa [upsert_present h, map_key_update fun x hx => (hf x).trans hx]

/-- An upsert that keeps a column where there is a row adds to the column at the end. -/
theorem map_prefix_upsert {β : Type} {g : α → β} (hg : ∀ r ∈ t, key r = key row → g (f r) = g r) :
    t.map g <+: (upsert key row f t).map g := by
  cases hl : lookup key (key row) t with
  | none =>
    rw [upsert_fresh hl, List.map_append]
    exact List.prefix_append _ _
  | some r =>
    have hsame : (upsert key row f t).map g = t.map g := by
      rw [upsert_present hl]
      exact map_update hg
    exact hsame ▸ List.prefix_rfl

/-! ## What holds at a key -/

/-- There are rows under the key, and all of them meet `P`. -/
def HoldsAt (key : α → κ) (k : κ) (P : α → Prop) (t : List α) : Prop :=
  (∃ r ∈ t, key r = k) ∧ ∀ r ∈ t, key r = k → P r

section HoldsAt

variable {P Q : α → Prop}

theorem HoldsAt.update (hf : ∀ r, key (f r) = key r) (h : HoldsAt key k P t)
    (hP : k' = k → ∀ r, P r → P (f r)) : HoldsAt key k P (update key k' f t) := by
  refine ⟨(exists_key_update key fun r hr => (hf r).trans hr).2 h.1, fun r hr hk => ?_⟩
  obtain ⟨x, hx, ⟨hxk, rfl⟩ | ⟨-, rfl⟩⟩ := mem_update.1 hr
  · rw [hf] at hk
    exact hP (hxk.symm.trans hk) x (h.2 x hx hk)
  · exact h.2 r hx hk

/-- An update at the key itself. -/
theorem HoldsAt.update_self (hf : ∀ r, key (f r) = key r) (h : HoldsAt key k P t)
    (hQ : ∀ r, P r → Q (f r)) : HoldsAt key k Q (Table.update key k f t) := by
  have hall : HoldsAt key k (fun _ => True) t := ⟨h.1, fun _ _ _ => trivial⟩
  refine ⟨(hall.update hf fun _ _ _ => trivial).1, fun r hr hk => ?_⟩
  obtain ⟨x, hx, ⟨hxk, rfl⟩ | ⟨hxk, rfl⟩⟩ := mem_update.1 hr
  · exact hQ x (h.2 x hx hxk)
  · exact absurd hk hxk

theorem HoldsAt.upsert (hf : ∀ r, key (f r) = key r) (h : HoldsAt key k P t)
    (hP : key row = k → ∀ r, P r → P (f r)) : HoldsAt key k P (Table.upsert key row f t) := by
  cases hl : lookup key (key row) t with
  | some x =>
    rw [upsert_present hl]
    exact h.update hf hP
  | none =>
    rw [upsert_fresh hl]
    obtain ⟨r, hr, hk⟩ := h.1
    refine ⟨⟨r, List.mem_append_left _ hr, hk⟩, fun x hx hxk => ?_⟩
    rcases List.mem_append.1 hx with hx | hx
    · exact h.2 x hx hxk
    · rw [List.mem_singleton.1 hx] at hxk
      exact absurd (hk.trans hxk.symm) (lookup_eq_none.1 hl r hr)

/-- An upsert at the key itself. -/
theorem holdsAt_upsert_self (hf : ∀ r, key (f r) = key r) (hrow : P row) (hP : ∀ r, P (f r)) :
    HoldsAt key (key row) P (Table.upsert key row f t) := by
  cases hl : lookup key (key row) t with
  | some x =>
    rw [upsert_present hl]
    have hall : HoldsAt key (key row) (fun _ => True) t :=
      ⟨⟨x, lookup_mem hl, lookup_key hl⟩, fun _ _ _ => trivial⟩
    exact hall.update_self hf fun r _ => hP r
  | none =>
    rw [upsert_fresh hl]
    refine ⟨⟨row, by simp, rfl⟩, fun x hx hxk => ?_⟩
    rcases List.mem_append.1 hx with hx | hx
    · exact absurd hxk (lookup_eq_none.1 hl x hx)
    · rw [List.mem_singleton.1 hx]
      exact hrow

theorem update_eq_self (h : ∀ r ∈ t, key r = k → f r = r) : Table.update key k f t = t := by
  unfold Table.update
  refine (List.map_congr_left fun r hr => ?_).trans (List.map_id t)
  split
  · rename_i hk
    exact h r hr hk
  · rfl

theorem HoldsAt.upsert_eq_self (h : HoldsAt key (key row) (fun r => f r = r) t) :
    Table.upsert key row f t = t := by
  obtain ⟨r, hr, hk⟩ := h.1
  have hsome : (lookup key (key row) t).isSome := hk ▸ lookup_isSome_of_mem key hr
  rw [Table.upsert, if_pos hsome, update_eq_self h.2]

end HoldsAt

/-! ## Counters -/

/-- The counter column `c` holds, for each row, the number `n` of its key. -/
def Counts (key : α → κ) (c : α → Int) (n : κ → Nat) (t : List α) : Prop :=
  ∀ r ∈ t, c r = n (key r)

section Counts

variable {c : α → Int} {n n' : κ → Nat}

omit [DecidableEq κ] in
theorem Counts.append (h : Counts key c n t) (hrow : c row = n (key row)) :
    Counts key c n (t ++ [row]) := by
  intro r hr
  rcases List.mem_append.1 hr with hr | hr
  · exact h r hr
  · rw [List.mem_singleton.1 hr]
    exact hrow

/-- A rewrite that keeps the column. -/
theorem Counts.update (h : Counts key c n t) (hf : ∀ r, key r = k → key (f r) = k)
    (hc : ∀ r ∈ t, key r = k → c (f r) = c r) : Counts key c n (update key k f t) := by
  intro r hr
  obtain ⟨x, hx, ⟨hxk, rfl⟩ | ⟨-, rfl⟩⟩ := mem_update.1 hr
  · rw [hc x hx hxk, hf x hxk, h x hx, hxk]
  · exact h r hx

/-- A row put in the place of the one under its key. -/
theorem Counts.replace (h : Counts key c n t) (hl : lookup key k t = some r) (hk : key row = k)
    (hc : c row = c r) : Counts key c n (Table.update key k (fun _ => row) t) := by
  refine h.update (fun _ _ => hk) fun x hx hxk => ?_
  rw [hc, h r (lookup_mem hl), h x hx, lookup_key hl, hxk]

/-- A row that starts with the right count, or a rewrite that keeps it. -/
theorem Counts.upsert (h : Counts key c n t) (hf : ∀ r, key (f r) = key r) (hc : ∀ r, c (f r) = c r)
    (hrow : lookup key (key row) t = none → c row = n (key row)) :
    Counts key c n (upsert key row f t) := by
  cases hl : lookup key (key row) t with
  | none =>
    rw [upsert_fresh hl]
    exact h.append (hrow hl)
  | some x =>
    rw [upsert_present hl]
    exact h.update (fun r hr => (hf r).trans hr) fun r _ _ => hc r

/-- One more for the key `k`, in the column and in what it counts. -/
theorem Counts.bump (h : Counts key c n t) (hl : lookup key k t = some row)
    (hf : ∀ r, key r = k → key (f r) = k) (hc : ∀ r, c (f r) = c row + 1)
    (hk : n' k = n k + 1) (hn : ∀ k', k' ≠ k → n' k' = n k') :
    Counts key c n' (Table.update key k f t) := by
  intro r hr
  obtain ⟨x, hx, ⟨hxk, rfl⟩ | ⟨hxk, rfl⟩⟩ := mem_update.1 hr
  · rw [hc, hf x hxk, hk, h row (lookup_mem hl), lookup_key hl]
    push_cast
    rfl
  · rw [h r hx, hn _ hxk]

end Counts

/-! ## A row put in its place -/

section Put

/-- A row added under its key, or put in the place of the one that is there. -/
theorem lookup_put : lookup key k (upsert key row (fun _ => row) t) =
    if k = key row then some row else lookup key k t := by
  cases hl : lookup key (key row) t with
  | none =>
    rw [upsert_fresh hl, lookup_append_singleton]
    by_cases hk : k = key row
    · subst hk
      simp [hl]
    · have hk' : key row ≠ k := fun e => hk e.symm
      cases hk'' : lookup key k t <;> simp [hk, hk']
  | some r =>
    rw [upsert_present hl, lookup_update_of_key fun _ _ => rfl]
    by_cases hk : k = key row
    · subst hk
      simp [hl]
    · simp [hk]

theorem nodup_put (hn : (t.map key).Nodup) :
    ((upsert key row (fun _ => row) t).map key).Nodup := by
  cases hl : lookup key (key row) t with
  | none =>
    rw [upsert_fresh hl, List.map_append, List.map_singleton, List.nodup_append]
    refine ⟨hn, List.nodup_singleton _, ?_⟩
    intro k hk k' hk'
    rw [List.mem_singleton.1 hk']
    obtain ⟨r, hr, rfl⟩ := List.mem_map.1 hk
    exact lookup_eq_none.1 hl r hr
  | some r =>
    rw [upsert_present hl, map_key_update fun _ _ => rfl]
    exact hn

end Put

/-! ## How many rows -/

omit [DecidableEq κ] in
/-- As many rows as there are keys they can have, at most. -/
theorem length_le_of_keys {ks : List κ} (hn : (t.map key).Nodup) (h : ∀ r ∈ t, key r ∈ ks) :
    t.length ≤ ks.length := by
  have hsub : t.map key ⊆ ks := by
    intro k hk
    obtain ⟨r, hr, rfl⟩ := List.mem_map.1 hk
    exact h r hr
  have hle := hn.length_le_of_subset hsub
  rwa [List.length_map] at hle

/-- As many rows as there are keys that are taken, at least. -/
theorem length_ge_of_keys {ks : List κ} (hks : ks.Nodup)
    (h : ∀ k ∈ ks, (lookup key k t).isSome) : ks.length ≤ t.length := by
  have hsub : ks ⊆ t.map key := by
    intro k hk
    obtain ⟨r, hr⟩ := Option.isSome_iff_exists.1 (h k hk)
    exact List.mem_map.2 ⟨r, lookup_mem hr, lookup_key hr⟩
  have hle := hks.length_le_of_subset hsub
  rwa [List.length_map] at hle

/-! ## A column at a key -/

/-- The column `c` of the row under `k`, and 0 without a row. -/
def columnAt (key : α → κ) (c : α → Int) (k : κ) (t : List α) : Int :=
  (lookup key k t).elim 0 c

theorem columnAt_put {c : α → Int} : columnAt key c k (upsert key row (fun _ => row) t) =
    if k = key row then c row else columnAt key c k t := by
  unfold columnAt
  rw [lookup_put]
  split <;> rfl

/-! ## Joins -/

section Join

variable {β γ : Type}

/-- `t JOIN u ON on = key` -/
def join (on : α → κ) (key : β → κ) (f : α → β → γ) (t : List α) (u : List β) : List γ :=
  t.flatMap fun a => (u.filter fun b => key b = on a).map (f a)

variable {on : α → κ} {key : β → κ} {f : α → β → γ} {t : List α} {u : List β}

theorem mem_join {c : γ} : c ∈ join on key f t u ↔ ∃ a ∈ t, ∃ b ∈ u, key b = on a ∧ f a b = c := by
  simp [join, and_assoc]

theorem length_filter_key (hu : (u.map key).Nodup) (k : κ) :
    (u.filter fun b => key b = k).length ≤ 1 := by
  induction u with
  | nil => simp
  | cons b u ih =>
    rw [List.map_cons, List.nodup_cons] at hu
    by_cases hb : key b = k
    · have hnone : u.filter (fun b => key b = k) = [] := by
        refine List.filter_eq_nil_iff.2 fun x hx hk => hu.1 ?_
        rw [hb, ← of_decide_eq_true hk]
        exact List.mem_map_of_mem hx
      rw [List.filter_cons, hnone, if_pos (decide_eq_true hb)]
      simp
    · rw [List.filter_cons, if_neg (by simpa using hb)]
      exact ih hu.2

theorem filter_key (hu : (u.map key).Nodup) (k : κ) :
    (u.filter fun b => key b = k) = (lookup key k u).toList := by
  have hmem : ∀ b, b ∈ (u.filter fun b => key b = k) ↔ lookup key k u = some b := by
    intro b
    rw [lookup_eq_some_iff hu, List.mem_filter, decide_eq_true_eq]
  have hlen := length_filter_key hu k
  cases hl : lookup key k u with
  | none => exact List.eq_nil_iff_forall_not_mem.2 fun b hb => by simp [hmem, hl] at hb
  | some b =>
    match hm : u.filter fun b => key b = k with
    | [] =>
      have hb := (hmem b).2 hl
      rw [hm] at hb
      cases hb
    | [b'] =>
      have hb := (hmem b').1 (by rw [hm]; exact List.mem_singleton.2 rfl)
      rw [← Option.some.inj (hl.symm.trans hb)]
      rfl
    | b' :: b'' :: l =>
      rw [hm] at hlen
      simp at hlen

/-- Joined to a table with unique keys, a row meets the one it refers to. -/
theorem join_eq_filterMap (hu : (u.map key).Nodup) :
    join on key f t u = t.filterMap fun a => (lookup key (on a) u).map (f a) := by
  induction t with
  | nil => rfl
  | cons a t ih =>
    rw [join, List.flatMap_cons, ← join, ih, filter_key hu, List.filterMap_cons]
    cases lookup key (on a) u <;> rfl

/-- Joined to a table with unique keys, a row appears at most once. -/
theorem map_join_sublist {δ : Type} {g : γ → δ} {g' : α → δ} (hu : (u.map key).Nodup)
    (hg : ∀ a b, g (f a b) = g' a) : ((join on key f t u).map g).Sublist (t.map g') := by
  induction t with
  | nil => exact List.Sublist.refl _
  | cons a t ih =>
    have hrow : ((u.filter fun b => key b = on a).map fun b => g (f a b)).Sublist [g' a] := by
      have hlen := length_filter_key hu (on a)
      match hm : u.filter fun b => key b = on a with
      | [] => exact List.nil_sublist _
      | [b] =>
        rw [List.map_singleton, hg]
      | b :: b' :: l =>
        rw [hm] at hlen
        simp at hlen
    rw [join, List.flatMap_cons, List.map_append, List.map_map, List.map_cons]
    exact hrow.append ih

/-- Looked up by the key of its left part, a joined row is that part with its partner. -/
theorem lookup_join {tkey : α → κ} {ckey : γ → κ} {k : κ} (ht : (t.map tkey).Nodup)
    (hf : ∀ a b, ckey (f a b) = tkey a) :
    lookup ckey k (join on key f t u) =
      (lookup tkey k t).bind fun a => (lookup key (on a) u).map (f a) := by
  induction t with
  | nil => rfl
  | cons a t ih =>
    rw [List.map_cons, List.nodup_cons] at ht
    have hsplit : lookup ckey k (join on key f (a :: t) u) =
        (((u.filter fun b => key b = on a).map (f a)).find? fun c => ckey c = k).or
          (lookup ckey k (join on key f t u)) := List.find?_append
    rw [hsplit, lookup_cons, List.find?_map]
    by_cases hk : tkey a = k
    · have hown : (u.filter fun b => key b = on a).find? ((fun c => decide (ckey c = k)) ∘ f a) =
          lookup key (on a) u := by
        have hhead : lookup key (on a) u = (u.filter fun b => key b = on a).head? :=
          List.head?_filter.symm
        rw [hhead]
        cases u.filter fun b => key b = on a with
        | nil => rfl
        | cons b bs =>
          apply List.find?_cons_of_pos
          exact decide_eq_true ((hf a b).trans hk)
      have hgone : lookup tkey k t = none := by
        apply lookup_eq_none.2
        intro r hr hrk
        rw [← hk] at hrk
        exact ht.1 (hrk ▸ List.mem_map_of_mem hr)
      rw [hown, ih ht.2, hgone, if_pos hk, Option.bind_none, Option.or_none, Option.bind_some]
    · have hother : (u.filter fun b => key b = on a).find? ((fun c => decide (ckey c = k)) ∘ f a) =
          none := by
        apply List.find?_eq_none.2
        intro b _ hb
        exact hk ((hf a b).symm.trans (of_decide_eq_true hb))
      rw [hother, if_neg hk, ih ht.2, Option.map_none, Option.none_or]

end Join

end Lib.Table
