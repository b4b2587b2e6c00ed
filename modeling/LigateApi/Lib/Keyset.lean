import Mathlib.Data.List.Sort

/-!
# Keyset pagination

Rows are read page by page in descending order of a key. A page starts below a cursor and asks for
one row more than it shows, which tells whether there is a next page; the next cursor is the key of
the last row shown (`fetch`). A client follows the cursors while rows come in (`walk`). Where the
keys are unique, a page and what is left below its cursor make up what was left before
(`fetch_spec`), and the walk is strictly descending, complete and finite.
-/

namespace Lib.Keyset

variable {R K ι : Type} [LinearOrder K] (key : R → K)

/-- The rows below a cursor; there is none on the first page. -/
def below (before : Option K) (rows : List R) : List R :=
  rows.filter fun r => before.all fun k => key r < k

/-- What is left to read, in order. -/
def remaining (rows : List R) (before : Option K) : List R :=
  (below key before rows).insertionSort fun a b => key b ≤ key a

/-- Show at most `limit` rows; the last one shown is the cursor if there are more. -/
def cut (limit : Nat) (rows : List R) : List R × Option R :=
  if limit < rows.length then (rows.take limit, (rows.take limit).getLast?) else (rows, none)

def fetch (rows : List R) (before : Option K) (limit : Nat) : List R × Option R :=
  cut limit ((remaining key rows before).take (limit + 1))

/-- The pages of a client that follows the cursors; request by request, the rows of the table at
that time and the size of the page. -/
def walk : Option K → List (List R × Nat) → List (List R × Option R)
  | _, [] => []
  | before, (rows, limit) :: reqs =>
    match fetch key rows before limit with
    | (data, none) => [(data, none)]
    | (data, some last) => (data, some last) :: walk (some (key last)) reqs

/-- The last page has no cursor. -/
def Ended (pages : List (List R × Option R)) : Prop := ∃ data, pages.getLast? = some (data, none)

def rowsOf (pages : List (List R × Option R)) : List R := pages.flatMap Prod.fst

/-- Rows of the one table are still in the other, with their keys. -/
def Keeps (ident : R → ι) (rows rows' : List R) : Prop :=
  ∀ r ∈ rows, ∃ r' ∈ rows', ident r' = ident r ∧ key r' = key r

/-! ## One page -/

section Page

variable {key} {rows : List R} {before : Option K} {r : R}

theorem mem_below : r ∈ below key before rows ↔ r ∈ rows ∧ ∀ k ∈ before, key r < k := by
  cases before <;> simp [below]

theorem mem_remaining : r ∈ remaining key rows before ↔ r ∈ rows ∧ ∀ k ∈ before, key r < k := by
  rw [remaining, List.mem_insertionSort, mem_below]

theorem remaining_perm : (remaining key rows before).Perm (below key before rows) :=
  List.perm_insertionSort _ _

/-- With unique keys the order is strict. -/
theorem pairwise_remaining (huniq : (rows.map key).Nodup) :
    (remaining key rows before).Pairwise fun a b => key b < key a := by
  have hle : (remaining key rows before).Pairwise fun a b => key b ≤ key a := by
    have : Std.Total fun a b : R => key b ≤ key a := ⟨fun a b => le_total _ _⟩
    have : IsTrans R fun a b => key b ≤ key a := ⟨fun _ _ _ hab hbc => hbc.trans hab⟩
    exact List.pairwise_insertionSort _ _
  have hne : (remaining key rows before).Pairwise fun a b => key a ≠ key b := by
    refine List.pairwise_map.1 ((remaining_perm.map key).nodup_iff.2 ?_)
    exact huniq.sublist (List.filter_sublist.map key)
  exact (hle.and hne).imp fun h => lt_of_le_of_ne h.1 h.2.symm

theorem descending_unique {l l' : List R} (hp : l.Perm l')
    (hl : l.Pairwise fun a b => key b < key a) (hl' : l'.Pairwise fun a b => key b < key a) :
    l = l' :=
  hp.eq_of_pairwise (fun _ _ _ _ hab hba => absurd hab (lt_asymm hba)) hl hl'

/-- What follows a row is what is left below it. -/
theorem remaining_split (huniq : (rows.map key).Nodup) {init rest : List R} {last : R}
    (h : remaining key rows before = init ++ last :: rest) :
    rest = remaining key rows (some (key last)) := by
  have hdesc : (remaining key rows before).Pairwise fun a b => key b < key a :=
    pairwise_remaining huniq
  rw [h, List.pairwise_append, List.pairwise_cons] at hdesc
  obtain ⟨-, ⟨hrest, hrest'⟩, hinit⟩ := hdesc
  refine descending_unique ?_ hrest' (pairwise_remaining huniq)
  -- both are the rows of the table below `last`
  have hfilter : (remaining key rows before).filter (fun r => key r < key last) = rest := by
    have h₁ : init.filter (fun r => key r < key last) = [] :=
      List.filter_eq_nil_iff.2 fun r hr => by
        simpa using (hinit r hr last (by simp)).le
    have h₂ : rest.filter (fun r => key r < key last) = rest :=
      List.filter_eq_self.2 fun r hr => decide_eq_true (hrest r hr)
    rw [h, List.filter_append, h₁, List.filter_cons, h₂]
    simp
  have hbelow : (below key before rows).filter (fun r => key r < key last) =
      below key (some (key last)) rows := by
    have hlast : last ∈ remaining key rows before := by
      rw [h]
      simp
    rw [below, List.filter_filter]
    apply List.filter_congr
    intro r _
    cases before with
    | none => simp
    | some k =>
      have hk : key last < k := (mem_remaining.1 hlast).2 k rfl
      simpa using fun hr => hr.trans hk
  rw [← hfilter]
  exact (remaining_perm.filter _).trans (hbelow ▸ remaining_perm.symm)

/-- **One page.** Either everything left is shown, or a cursor separates what is shown from what is
left. -/
theorem fetch_spec (huniq : (rows.map key).Nodup) {limit : Nat} (hlimit : 0 < limit) :
    fetch key rows before limit = (remaining key rows before, none) ∨
    ∃ init last, fetch key rows before limit = (init ++ [last], some last) ∧
      remaining key rows before = init ++ last :: remaining key rows (some (key last)) := by
  unfold fetch cut
  by_cases hlen : (remaining key rows before).length ≤ limit
  · left
    rw [List.take_of_length_le (by omega), if_neg (by omega)]
  · right
    have hmore : limit < ((remaining key rows before).take (limit + 1)).length := by
      rw [List.length_take]
      omega
    rw [if_pos hmore, List.take_take, min_eq_left (by omega)]
    have hne : (remaining key rows before).take limit ≠ [] := by
      intro hnil
      rcases List.take_eq_nil_iff.1 hnil with h | h
      · omega
      · simp [h] at hlen
    obtain ⟨init, last, hdata⟩ := List.eq_nil_or_concat _ |>.resolve_left hne
    rw [List.concat_eq_append] at hdata
    have hsplit : remaining key rows before =
        init ++ last :: (remaining key rows before).drop limit := by
      rw [← List.singleton_append, ← List.append_assoc, ← hdata, List.take_append_drop]
    refine ⟨init, last, ?_, ?_⟩
    · rw [hdata, List.getLast?_concat]
    · rw [← remaining_split huniq hsplit]
      exact hsplit

end Page

/-! ## The walk -/

section Walk

variable {key} {reqs : List (List R × Nat)} {before : Option K} {rows : List R} {limit : Nat}

/-- A page is followed by the walk from its cursor, or is the last one. -/
theorem walk_cons (huniq : (rows.map key).Nodup) (hlimit : 0 < limit) :
    walk key before ((rows, limit) :: reqs) = [(remaining key rows before, none)] ∨
    ∃ init last, remaining key rows before = init ++ last :: remaining key rows (some (key last)) ∧
      walk key before ((rows, limit) :: reqs) =
        (init ++ [last], some last) :: walk key (some (key last)) reqs := by
  rcases fetch_spec huniq hlimit with h | ⟨init, last, h, hsplit⟩
  · left
    rw [walk, h]
  · right
    refine ⟨init, last, hsplit, ?_⟩
    rw [walk, h]

/-- Rows with unique keys and pages that show something. -/
def Sound (key : R → K) (reqs : List (List R × Nat)) : Prop :=
  ∀ q ∈ reqs, (q.1.map key).Nodup ∧ 0 < q.2

omit [LinearOrder K] in
theorem Sound.head (h : Sound key ((rows, limit) :: reqs)) : (rows.map key).Nodup ∧ 0 < limit :=
  h _ List.mem_cons_self

omit [LinearOrder K] in
theorem Sound.tail (h : Sound key ((rows, limit) :: reqs)) : Sound key reqs :=
  fun q hq => h q (List.mem_cons_of_mem _ hq)

@[simp] theorem rowsOf_cons {data : List R} {next : Option R} {pages : List (List R × Option R)} :
    rowsOf ((data, next) :: pages) = data ++ rowsOf pages := rfl

@[simp] theorem rowsOf_nil : rowsOf ([] : List (List R × Option R)) = [] := rfl

/-- Every page shows rows of the table it was read from. -/
theorem mem_walk (h : Sound key reqs) {i : Nat} {page : List R × Option R} {q : List R × Nat}
    (hpage : (walk key before reqs)[i]? = some page) (hq : reqs[i]? = some q) :
    ∀ r ∈ page.1, r ∈ q.1 := by
  induction reqs generalizing before i with
  | nil => cases hq
  | cons q' reqs ih =>
    obtain ⟨rows, limit⟩ := q'
    rcases walk_cons h.head.1 h.head.2 with hw | ⟨init, last, hsplit, hw⟩
    · rw [hw] at hpage
      cases i with
      | zero =>
        cases hpage
        cases hq
        exact fun r hr => (mem_remaining.1 hr).1
      | succ i => cases hpage
    · rw [hw] at hpage
      cases i with
      | zero =>
        cases hpage
        cases hq
        intro r hr
        have hmem : r ∈ remaining key rows before := by
          rw [hsplit]
          simp only [List.mem_append, List.mem_singleton] at hr
          rcases hr with hr | rfl
          · exact List.mem_append_left _ hr
          · simp
        exact (mem_remaining.1 hmem).1
      | succ i => exact ih h.tail hpage hq

theorem lt_of_mem_walk (h : Sound key reqs) {r : R} (hr : r ∈ rowsOf (walk key before reqs)) :
    ∀ k ∈ before, key r < k := by
  induction reqs generalizing before with
  | nil => cases hr
  | cons q reqs ih =>
    obtain ⟨rows, limit⟩ := q
    rcases walk_cons h.head.1 h.head.2 with hw | ⟨init, last, hsplit, hw⟩
    · rw [hw, rowsOf_cons, rowsOf_nil, List.append_nil] at hr
      exact (mem_remaining.1 hr).2
    · have hall : ∀ x ∈ init ++ last :: remaining key rows (some (key last)),
          ∀ k ∈ before, key x < k := by
        rw [← hsplit]
        exact fun x hx => (mem_remaining.1 hx).2
      rw [hw, rowsOf_cons, List.mem_append, List.mem_append, List.mem_singleton] at hr
      rcases hr with (hr | rfl) | hr
      · exact hall r (List.mem_append_left _ hr)
      · exact hall r (by simp)
      · intro k hk
        exact (ih h.tail hr _ rfl).trans (hall last (by simp) k hk)

/-- **The walk is strictly descending.** -/
theorem pairwise_walk (h : Sound key reqs) :
    (rowsOf (walk key before reqs)).Pairwise fun a b => key b < key a := by
  induction reqs generalizing before with
  | nil => exact .nil
  | cons q reqs ih =>
    obtain ⟨rows, limit⟩ := q
    have hdesc : (remaining key rows before).Pairwise fun a b => key b < key a :=
      pairwise_remaining h.head.1
    rcases walk_cons h.head.1 h.head.2 with hw | ⟨init, last, hsplit, hw⟩
    · rw [hw, rowsOf_cons, rowsOf_nil, List.append_nil]
      exact hdesc
    · rw [hsplit, ← List.singleton_append, ← List.append_assoc, List.pairwise_append] at hdesc
      rw [hw, rowsOf_cons, List.pairwise_append]
      refine ⟨hdesc.1, ih h.tail, fun a ha b hb => ?_⟩
      have hb' : key b < key last := lt_of_mem_walk h.tail hb _ rfl
      rcases List.mem_append.1 ha with hi | hl
      · have hinit := (List.pairwise_append.1 hdesc.1).2.2 a hi last (by simp)
        exact hb'.trans hinit
      · rw [List.mem_singleton.1 hl]
        exact hb'

theorem ended_cons {page : List R × Option R} {pages : List (List R × Option R)}
    (hnext : page.2 ≠ none) : Ended (page :: pages) ↔ Ended pages := by
  cases pages with
  | nil =>
    simp only [Ended, List.getLast?_singleton, Option.some.injEq, List.getLast?_nil]
    constructor
    · rintro ⟨data, rfl⟩
      exact absurd rfl hnext
    · rintro ⟨data, h⟩
      cases h
  | cons p ps => simp only [Ended, List.getLast?_cons_cons]

/-- A row below the cursor is shown, or is below the next cursor. -/
theorem shown_or_below (h : Sound key ((rows, limit) :: reqs)) {r : R} (hr : r ∈ rows)
    (hlt : ∀ k ∈ before, key r < k) :
    r ∈ rowsOf (walk key before ((rows, limit) :: reqs)) ∨
    ∃ data last, key r < key last ∧ walk key before ((rows, limit) :: reqs) =
      (data, some last) :: walk key (some (key last)) reqs := by
  have hleft : r ∈ remaining key rows before := mem_remaining.2 ⟨hr, hlt⟩
  rcases walk_cons h.head.1 h.head.2 with hw | ⟨init, last, hsplit, hw⟩
  · left
    rw [hw, rowsOf_cons]
    exact List.mem_append_left _ hleft
  · rw [hsplit, ← List.singleton_append, ← List.append_assoc, List.mem_append] at hleft
    rcases hleft with hshown | hbelow
    · left
      rw [hw, rowsOf_cons]
      exact List.mem_append_left _ hshown
    · exact .inr ⟨_, last, (mem_remaining.1 hbelow).2 _ rfl, hw⟩

/-- **The walk is complete**: one that ends has shown every row its first table had below the
cursor. -/
theorem complete_walk {ident : R → ι} (h : Sound key ((rows, limit) :: reqs))
    (hkeeps : (((rows, limit) :: reqs).map Prod.fst).IsChain (Keeps key ident))
    (hend : Ended (walk key before ((rows, limit) :: reqs))) {r : R} (hr : r ∈ rows)
    (hlt : ∀ k ∈ before, key r < k) :
    ∃ r' ∈ rowsOf (walk key before ((rows, limit) :: reqs)), ident r' = ident r := by
  induction reqs generalizing before rows limit r with
  | nil =>
    rcases shown_or_below h hr hlt with hshown | ⟨data, last, -, hw⟩
    · exact ⟨r, hshown, rfl⟩
    · rw [hw, ended_cons (by simp)] at hend
      obtain ⟨_, hend⟩ := hend
      cases hend
  | cons q reqs ih =>
    obtain ⟨rows', limit'⟩ := q
    rcases shown_or_below h hr hlt with hshown | ⟨data, last, hbelow, hw⟩
    · exact ⟨r, hshown, rfl⟩
    · rw [hw, ended_cons (by simp)] at hend
      obtain ⟨hkeep, hkeeps⟩ := List.isChain_cons_cons.1 hkeeps
      obtain ⟨x, hx, hident, hkey⟩ := hkeep r hr
      obtain ⟨y, hy, hyx⟩ := ih h.tail hkeeps hend hx fun k hk => by
        cases hk
        rw [hkey]
        exact hbelow
      refine ⟨y, ?_, hyx.trans hident⟩
      rw [hw, rowsOf_cons]
      exact List.mem_append_right _ hy

/-- **The walk ends** once the table stays as it is: each page takes something off what is left. -/
theorem ended_of_constant (h : Sound key reqs) (hrows : ∀ q ∈ reqs, q.1 = rows)
    (hlen : (remaining key rows before).length < reqs.length) : Ended (walk key before reqs) := by
  induction reqs generalizing before with
  | nil => cases hlen
  | cons q reqs ih =>
    obtain ⟨rows', limit⟩ := q
    obtain rfl : rows' = rows := hrows _ List.mem_cons_self
    rcases walk_cons h.head.1 h.head.2 with hw | ⟨init, last, hsplit, hw⟩
    · rw [hw]
      exact ⟨_, rfl⟩
    · rw [hw, ended_cons (by simp)]
      refine ih h.tail (fun q hq => hrows q (List.mem_cons_of_mem _ hq)) ?_
      rw [hsplit, List.length_append, List.length_cons, List.length_cons] at hlen
      omega

/-- Requests to other tables before that do not keep it from ending. -/
theorem ended_append {early : List (List R × Nat)} (h : Sound key (early ++ reqs))
    (hrest : ∀ before, Ended (walk key before reqs)) :
    Ended (walk key before (early ++ reqs)) := by
  induction early generalizing before with
  | nil => exact hrest before
  | cons q early ih =>
    obtain ⟨rows, limit⟩ := q
    rcases walk_cons h.head.1 h.head.2 with hw | ⟨init, last, -, hw⟩
    · rw [List.cons_append, hw]
      exact ⟨_, rfl⟩
    · rw [List.cons_append, hw, ended_cons (by simp)]
      exact ih h.tail

/-- **Without insertions** the pages of a walk that ends make up what was left. -/
theorem rowsOf_constant (h : Sound key reqs) (hrows : ∀ q ∈ reqs, q.1 = rows)
    (hend : Ended (walk key before reqs)) :
    rowsOf (walk key before reqs) = remaining key rows before := by
  induction reqs generalizing before with
  | nil =>
    obtain ⟨_, hend⟩ := hend
    cases hend
  | cons q reqs ih =>
    obtain ⟨rows', limit⟩ := q
    obtain rfl : rows' = rows := hrows _ List.mem_cons_self
    rcases walk_cons h.head.1 h.head.2 with hw | ⟨init, last, hsplit, hw⟩
    · rw [hw, rowsOf_cons, rowsOf_nil, List.append_nil]
    · rw [hw, ended_cons (by simp)] at hend
      rw [hw, rowsOf_cons, ih h.tail (fun q hq => hrows q (List.mem_cons_of_mem _ hq)) hend, hsplit,
        List.append_assoc, List.singleton_append]

end Walk

end Lib.Keyset
