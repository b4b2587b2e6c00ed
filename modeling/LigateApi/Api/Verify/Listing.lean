import LigateApi.Api.Handlers

/-!
# Following the cursors of a list endpoint

A client starts without a cursor and follows `pagination.next`; between its requests the tables may
change (`follow`). A list handler answers with pages of its matching rows (`Listing`, `Paged`), so
the client's walk is a keyset walk over them (`follow_eq`), and what a keyset walk does carries
over to the wire (`lossless`).
-/

namespace LigateApi.Api

open Lib Indexer

/-! ## The client -/

section Client

variable {R : Type}

/-- The pages of a client, request by request: the database it meets and the limit it asks for. -/
def follow (respond : Db → PaginationParams → Reply R) :
    Option String → List (Db × Option UInt32) → List (Page R)
  | _, [] => []
  | before, (db, limit) :: reqs =>
    match respond db { limit, before } with
    | .page page _ =>
      match page.pagination.next with
      | none => [page]
      | some next => page :: follow respond (some next) reqs
    | .badRequest _ _ => []
    | .internalError => []

/-- The walk ended with `next = null`. -/
def Finished (pages : List (Page R)) : Prop :=
  ∃ page, pages.getLast? = some page ∧ page.pagination.next = none

def allRows (pages : List (Page R)) : List R := pages.flatMap Page.data

end Client

/-! ## List endpoints -/

/-- A list endpoint: how it answers, the rows it is about, their sort key and primary key, and
what it takes for the cursor of a row to survive the wire. -/
structure Listing where
  Row : Type
  Key : Type
  order : LinearOrder Key
  Id : Type
  respond : Db → PaginationParams → Reply Row
  matching : Db → List Row
  key : Row → Key
  ident : Row → Id
  ReadsBack : Row → Prop

attribute [instance] Listing.order

/-- A lossless, duplicate-free walk. -/
structure Lossless (L : Listing) (reqs : List (Db × Option UInt32)) : Prop where
  /-- No row comes twice and none out of order. -/
  descending : (allRows (follow L.respond none reqs)).Pairwise fun a b => L.key b < L.key a
  /-- Each page shows rows that match at its request. -/
  matching : ∀ (i : Nat) page q, (follow L.respond none reqs)[i]? = some page →
    reqs[i]? = some q → ∀ r ∈ page.data, r ∈ L.matching q.1
  /-- The rows that match at the first request are shown by the end of the walk. -/
  complete : Finished (follow L.respond none reqs) → ∀ q ∈ reqs.head?, ∀ r ∈ L.matching q.1,
    ∃ r' ∈ allRows (follow L.respond none reqs), L.ident r' = L.ident r
  /-- Once the tables stay as they are, the walk ends within one request per matching row and one
  more. -/
  ends : ∀ early db (limits : List (Option UInt32)), reqs = early ++ limits.map (fun limit => (db, limit)) →
    (L.matching db).length < limits.length → Finished (follow L.respond none reqs)
  /-- Without insertions the pages are exactly the matching rows. -/
  exact : ∀ db, (∀ q ∈ reqs, q.1 = db) → Finished (follow L.respond none reqs) →
    (allRows (follow L.respond none reqs)).Perm (L.matching db)

/-- The endpoint answers every request with a page of its matching rows below the position of the
cursor, and a cursor it hands out takes the client back to the row it was made from. -/
structure Paged (L : Listing) where
  position : Option String → Option L.Key
  text : L.Row → Option String
  respond_eq : ∀ db params, ∃ maxAgeSecs, L.respond db params =
    .page (pageOf (resolveLimit params.limit)
      (Queries.select L.key (L.matching db) (position params.before)
        ((resolveLimit params.limit).toNat + 1)) text) maxAgeSecs
  position_none : position none = none
  reads : ∀ r, L.ReadsBack r → ∃ s, text r = some s ∧ position (some s) = some (L.key r)

section Walk

variable {L : Listing} {reqs : List (Db × Option UInt32)}

theorem pageOf_eq {R : Type} {limit : UInt32} {rows : List R} {cursor : R → Option String} :
    (pageOf limit rows cursor).data = (Keyset.cut limit.toNat rows).1 ∧
      (pageOf limit rows cursor).pagination.next =
        (Keyset.cut limit.toNat rows).2.bind cursor := by
  unfold pageOf Keyset.cut
  by_cases h : limit.toNat < rows.length
  · simp only [h, if_true, and_self]
  · simp only [h, if_false, Option.bind_none, and_self]

/-- A page is the cut of what is left below the cursor. -/
theorem Paged.respond_fetch (P : Paged L) (db : Db) (limit : Option UInt32)
    (before : Option String) :
    ∃ page maxAgeSecs, L.respond db { limit, before } = .page page maxAgeSecs ∧
      page.data = (Keyset.fetch L.key (L.matching db) (P.position before)
        (resolveLimit limit).toNat).1 ∧
      page.pagination.next = (Keyset.fetch L.key (L.matching db) (P.position before)
        (resolveLimit limit).toNat).2.bind P.text := by
  obtain ⟨maxAgeSecs, h⟩ := P.respond_eq db { limit, before }
  exact ⟨_, maxAgeSecs, h, pageOf_eq⟩

/-- The requests as the keyset walk sees them. -/
def keysetReqs (L : Listing) (reqs : List (Db × Option UInt32)) : List (List L.Row × Nat) :=
  reqs.map fun q => (L.matching q.1, (resolveLimit q.2).toNat)

theorem mem_of_fetch {R K : Type} [LinearOrder K] {key : R → K} {rows : List R} {before : Option K}
    {limit : Nat} {last : R} (h : (Keyset.fetch key rows before limit).2 = some last) :
    last ∈ rows := by
  unfold Keyset.fetch Keyset.cut at h
  split at h
  · exact (Keyset.mem_remaining.1 (List.mem_of_mem_take
      (List.mem_of_mem_take (List.mem_of_getLast? h)))).1
  · cases h

/-- **The client's walk is the keyset walk**, page by page. -/
theorem follow_eq (P : Paged L) (hreads : ∀ q ∈ reqs, ∀ r ∈ L.matching q.1, L.ReadsBack r)
    (before : Option String) :
    (follow L.respond before reqs).map (fun p => (p.data, p.pagination.next.isNone)) =
      (Keyset.walk L.key (P.position before) (keysetReqs L reqs)).map
        fun p => (p.1, p.2.isNone) := by
  induction reqs generalizing before with
  | nil => rfl
  | cons q reqs ih =>
    obtain ⟨db, limit⟩ := q
    obtain ⟨page, maxAgeSecs, hrespond, hdata, hnext⟩ := P.respond_fetch db limit before
    cases hf : Keyset.fetch L.key (L.matching db) (P.position before)
      (resolveLimit limit).toNat with
    | mk data next =>
    rw [hf] at hdata hnext
    cases next with
    | none =>
      simp only [follow, hrespond, hnext, Option.bind_none, keysetReqs, List.map_cons, Keyset.walk,
        hf, List.map_nil, hdata, Option.isNone_none]
    | some last =>
      have hlast : last ∈ L.matching db := mem_of_fetch (congrArg Prod.snd hf)
      obtain ⟨s, htext, hpos⟩ := P.reads last (hreads _ List.mem_cons_self last hlast)
      have hrest := ih (fun q hq => hreads q (List.mem_cons_of_mem _ hq)) (some s)
      rw [hpos] at hrest
      simp only [follow, hrespond, hnext, Option.bind_some, htext, keysetReqs, List.map_cons,
        Keyset.walk, hf, hdata, hrest, Option.isNone_some]

theorem finished_iff (P : Paged L) (hreads : ∀ q ∈ reqs, ∀ r ∈ L.matching q.1, L.ReadsBack r) :
    Finished (follow L.respond none reqs) ↔
      Keyset.Ended (Keyset.walk L.key none (keysetReqs L reqs)) := by
  have hclient : Finished (follow L.respond none reqs) ↔ ∃ data, ((follow L.respond none reqs).map
      fun p => (p.data, p.pagination.next.isNone)).getLast? = some (data, true) := by
    simp only [Finished, List.getLast?_map, Option.map_eq_some_iff, Prod.mk.injEq,
      Option.isNone_iff_eq_none]
    constructor
    · rintro ⟨page, hpage, hnext⟩
      exact ⟨_, page, hpage, rfl, hnext⟩
    · rintro ⟨_, page, hpage, -, hnext⟩
      exact ⟨page, hpage, hnext⟩
  have hkeyset : Keyset.Ended (Keyset.walk L.key none (keysetReqs L reqs)) ↔
      ∃ data, ((Keyset.walk L.key none (keysetReqs L reqs)).map
        fun p => (p.1, p.2.isNone)).getLast? = some (data, true) := by
    simp only [Keyset.Ended, List.getLast?_map, Option.map_eq_some_iff, Prod.mk.injEq,
      Option.isNone_iff_eq_none]
    constructor
    · rintro ⟨data, hpage⟩
      exact ⟨data, _, hpage, rfl, rfl⟩
    · rintro ⟨data, ⟨_, _⟩, hpage, rfl, rfl⟩
      exact ⟨_, hpage⟩
  rw [hclient, hkeyset, follow_eq P hreads, P.position_none]

theorem allRows_eq (P : Paged L) (hreads : ∀ q ∈ reqs, ∀ r ∈ L.matching q.1, L.ReadsBack r) :
    allRows (follow L.respond none reqs) =
      Keyset.rowsOf (Keyset.walk L.key none (keysetReqs L reqs)) := by
  have hdata := congrArg (fun l => (l.map Prod.fst).flatten) (follow_eq P hreads none)
  simp only [List.map_map, P.position_none] at hdata
  exact hdata

theorem sound_keysetReqs (huniq : ∀ q ∈ reqs, ((L.matching q.1).map L.key).Nodup) :
    Keyset.Sound L.key (keysetReqs L reqs) := by
  intro k hk
  obtain ⟨q, hq, rfl⟩ := List.mem_map.1 hk
  exact ⟨huniq q hq, resolveLimit_pos q.2⟩

theorem Paged.page_matches (P : Paged L)
    (hreads : ∀ q ∈ reqs, ∀ r ∈ L.matching q.1, L.ReadsBack r)
    (hsound : Keyset.Sound L.key (keysetReqs L reqs)) {i : Nat} {page : Page L.Row}
    {q : Db × Option UInt32} (hpage : (follow L.respond none reqs)[i]? = some page)
    (hq : reqs[i]? = some q) : ∀ r ∈ page.data, r ∈ L.matching q.1 := by
  have hmap := congrArg (fun l => l[i]?) (follow_eq P hreads none)
  simp only [List.getElem?_map, hpage, Option.map_some, P.position_none] at hmap
  obtain ⟨p, hp, heq⟩ := Option.map_eq_some_iff.1 hmap.symm
  have hdata : p.1 = page.data := congrArg Prod.fst heq
  rw [← hdata]
  apply Keyset.mem_walk hsound hp (q := (L.matching q.1, (resolveLimit q.2).toNat))
  rw [keysetReqs, List.getElem?_map, hq]
  rfl

/-- From some request on the tables stay as they are. -/
theorem ended_of_static {early : List (Db × Option UInt32)} {db : Db}
    {limits : List (Option UInt32)}
    (hsound : Keyset.Sound L.key (keysetReqs L (early ++ limits.map fun limit => (db, limit))))
    (hlen : (L.matching db).length < limits.length) :
    Keyset.Ended (Keyset.walk L.key none
      (keysetReqs L (early ++ limits.map fun limit => (db, limit)))) := by
  rw [keysetReqs, List.map_append] at hsound ⊢
  apply Keyset.ended_append hsound
  intro before
  have hrows : ∀ k ∈ keysetReqs L (limits.map fun limit => (db, limit)), k.1 = L.matching db := by
    intro k hk
    simp only [keysetReqs, List.map_map, List.mem_map, Function.comp_apply] at hk
    obtain ⟨limit, -, rfl⟩ := hk
    rfl
  refine Keyset.ended_of_constant (fun k hk => hsound k (List.mem_append_right _ hk)) hrows ?_
  rw [List.length_map, List.length_map]
  refine lt_of_le_of_lt ?_ hlen
  rw [Keyset.remaining_perm.length_eq]
  exact List.length_filter_le _ _

/-- **Lossless walks**, given unique sort keys and rows that stay. -/
theorem Paged.lossless (P : Paged L) (hreads : ∀ q ∈ reqs, ∀ r ∈ L.matching q.1, L.ReadsBack r)
    (huniq : ∀ q ∈ reqs, ((L.matching q.1).map L.key).Nodup)
    (hkeeps : (reqs.map fun q => L.matching q.1).IsChain (Keyset.Keeps L.key L.ident)) :
    Lossless L reqs := by
  have hsound := sound_keysetReqs huniq
  refine ⟨?_, ?_, ?_, ?_, ?_⟩
  · rw [allRows_eq P hreads]
    exact Keyset.pairwise_walk hsound
  · intro i page q hpage hq
    exact P.page_matches hreads hsound hpage hq
  · intro hend q hq r hr
    rw [finished_iff P hreads] at hend
    rw [allRows_eq P hreads]
    cases reqs with
    | nil => cases hq
    | cons q' reqs =>
      cases hq
      have hchain : ((keysetReqs L (q :: reqs)).map Prod.fst).IsChain
          (Keyset.Keeps L.key L.ident) := by
        rw [keysetReqs, List.map_map]
        exact hkeeps
      exact Keyset.complete_walk hsound hchain hend hr nofun
  · intro early db limits heq hlen
    rw [finished_iff P hreads]
    subst heq
    exact ended_of_static hsound hlen
  · intro db hdb hend
    rw [finished_iff P hreads] at hend
    have hrows : ∀ k ∈ keysetReqs L reqs, k.1 = L.matching db := by
      intro k hk
      obtain ⟨q, hq, rfl⟩ := List.mem_map.1 hk
      exact congrArg L.matching (hdb q hq)
    rw [allRows_eq P hreads, Keyset.rowsOf_constant hsound hrows hend]
    apply Keyset.remaining_perm.trans
    simp [Keyset.below]

end Walk

end LigateApi.Api
