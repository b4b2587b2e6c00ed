import Mathlib.Data.Int.ConditionallyCompleteOrder
import Mathlib.Data.List.MinMax
import Mathlib.Order.ConditionallyCompleteLattice.Basic
import LigateApi.Api.ActiveAddresses
import LigateApi.Indexer.Verify.Senders

/-!
# First and last seen

The six columns of a summary row that say when an address was first and last seen are written under
three conditions each: slot and transaction by comparing slots, the timestamp by comparing
timestamps, all strictly. Slot and transaction are thus those of the first sighting with the least
(greatest) slot in the order of ingest, the timestamp is that of a sighting with the least
(greatest) timestamp (`Seen`). The four extrema do not depend on the order of ingest. The two
triples need not be sightings at all.
-/

namespace LigateApi.Indexer

open Lib Lib.Run

/-! ## Sightings -/

/-- Where an address was seen: the slot as its column holds it, the transaction, the timestamp. -/
structure Sighting where
  slot : Int64
  tx : String
  timestamp : Int
  deriving DecidableEq

namespace Sighting

def slotKey (x : Sighting) : Int := x.slot.toInt

end Sighting

/-- The row keeps the first of the least and of the greatest slots, and the extreme timestamps. -/
structure Seen (xs : List Sighting) (r : AddressSummaryRow) : Prop where
  firstSlot : r.firstSeenSlot = (xs.argmin Sighting.slotKey).map Sighting.slot
  firstTx : r.firstSeenTx = (xs.argmin Sighting.slotKey).map Sighting.tx
  firstTimestamp :
    r.firstSeenTimestamp = (xs.argmin Sighting.timestamp).map Sighting.timestamp
  lastSlot : r.lastSeenSlot = (xs.argmax Sighting.slotKey).map Sighting.slot
  lastTx : r.lastSeenTx = (xs.argmax Sighting.slotKey).map Sighting.tx
  lastTimestamp :
    r.lastSeenTimestamp = (xs.argmax Sighting.timestamp).map Sighting.timestamp

section Merge

variable {xs : List Sighting} {x : Sighting} {r : AddressSummaryRow}

theorem seen_fresh (address : String) {slotHeight : UInt64} {txHash : String} {timestamp : Int} :
    Seen [⟨slotHeight.toInt64, txHash, timestamp⟩]
      (freshSummary address slotHeight txHash timestamp) := by
  constructor <;> rfl

theorem Seen.congr {r' : AddressSummaryRow} (h : Seen xs r)
    (hfirst : (r'.firstSeenSlot, r'.firstSeenTx, r'.firstSeenTimestamp) =
      (r.firstSeenSlot, r.firstSeenTx, r.firstSeenTimestamp))
    (hlast : (r'.lastSeenSlot, r'.lastSeenTx, r'.lastSeenTimestamp) =
      (r.lastSeenSlot, r.lastSeenTx, r.lastSeenTimestamp)) : Seen xs r' := by
  simp only [Prod.mk.injEq] at hfirst hlast
  obtain ⟨hfs, hft, hfp⟩ := hfirst
  obtain ⟨hls, hlt, hlp⟩ := hlast
  exact ⟨hfs.trans h.firstSlot, hft.trans h.firstTx, hfp.trans h.firstTimestamp,
    hls.trans h.lastSlot, hlt.trans h.lastTx, hlp.trans h.lastTimestamp⟩

theorem slotKey_lt {x y : Sighting} : x.slot < y.slot ↔ x.slotKey < y.slotKey :=
  Int64.lt_iff_toInt_lt

/-- A `CASE` that always yields a value, as one that keeps the column. -/
theorem some_elim_ite {β : Type} {o : Option β} {b : β} {p : β → Prop} [DecidablePred p] :
    some (o.elim b fun c => if p c then b else c) = if o.all fun c => p c then some b else o := by
  cases o with
  | none => rfl
  | some c =>
    simp only [Option.elim_some, Option.all_some, decide_eq_true_eq]
    split <;> rfl

/-- The least of one more sighting, as the `CASE` compares it. -/
theorem map_argmin_concat {β : Type} {f : Sighting → Int} {g : Sighting → β} :
    ((xs ++ [x]).argmin f).map g =
      if (xs.argmin f).all fun c => f x < f c then some (g x) else (xs.argmin f).map g := by
  rw [List.argmin_concat]
  cases xs.argmin f with
  | none => rfl
  | some c =>
    simp only [Option.all_some, decide_eq_true_eq]
    split <;> rfl

theorem map_argmax_concat {β : Type} {f : Sighting → Int} {g : Sighting → β} :
    ((xs ++ [x]).argmax f).map g =
      if (xs.argmax f).all fun c => f c < f x then some (g x) else (xs.argmax f).map g := by
  rw [List.argmax_concat]
  cases xs.argmax f with
  | none => rfl
  | some c =>
    simp only [Option.all_some, decide_eq_true_eq]
    split <;> rfl

/-- **Step lemma**: the `DO UPDATE` adds one sighting. -/
theorem Seen.merge {sent received : Int64} (h : Seen xs r) :
    Seen (xs ++ [x]) (mergeActivity r sent received x.slot x.tx x.timestamp) := by
  constructor
  · simp only [mergeActivity, some_elim_ite, map_argmin_concat, h.firstSlot, Option.all_map,
      slotKey_lt]
  · simp only [mergeActivity, map_argmin_concat, h.firstSlot, h.firstTx, Option.all_map,
      slotKey_lt]
  · simp only [mergeActivity, map_argmin_concat, h.firstTimestamp, Option.all_map]
  · simp only [mergeActivity, some_elim_ite, map_argmax_concat, h.lastSlot, Option.all_map,
      slotKey_lt]
  · simp only [mergeActivity, map_argmax_concat, h.lastSlot, h.lastTx, Option.all_map,
      slotKey_lt]
  · simp only [mergeActivity, map_argmax_concat, h.lastTimestamp, Option.all_map]

end Merge

/-! ## The table -/

def AddressSummaryRow.CountsNonneg (r : AddressSummaryRow) : Prop :=
  0 ≤ r.txsSentCount.toInt ∧ 0 ≤ r.txsReceivedCount.toInt ∧ 0 ≤ r.schemasOwnedCount.toInt ∧
    0 ≤ r.attestorMemberCount.toInt

theorem AddressSummaryRow.check_eq_ok {r : AddressSummaryRow} {u : Unit} :
    r.check = .ok u ↔ r.CountsNonneg ∧
      ((r.firstSeenSlot = none ∧ r.firstSeenTx = none ∧ r.firstSeenTimestamp = none) ∨
        (r.firstSeenSlot ≠ none ∧ r.firstSeenTx ≠ none ∧ r.firstSeenTimestamp ≠ none)) ∧
      ((r.lastSeenSlot = none ∧ r.lastSeenTx = none ∧ r.lastSeenTimestamp = none) ∨
        (r.lastSeenSlot ≠ none ∧ r.lastSeenTx ≠ none ∧ r.lastSeenTimestamp ≠ none)) := by
  simp only [check, require_bind_eq_ok, require_eq_ok, CountsNonneg]

/-- Each address has one row, and it keeps the sightings `seen` of the address; an address without
sightings has none. -/
structure Summarised (seen : String → List Sighting) (db : Db) : Prop where
  nodup : (db.addressSummaries.map AddressSummaryRow.address).Nodup
  absent : ∀ a, Table.lookup AddressSummaryRow.address a db.addressSummaries = none → seen a = []
  present : ∀ a r, Table.lookup AddressSummaryRow.address a db.addressSummaries = some r →
    seen a ≠ [] ∧ Seen (seen a) r
  counts : ∀ a r, Table.lookup AddressSummaryRow.address a db.addressSummaries = some r →
    r.CountsNonneg

/-- One more sighting of `x`. -/
def sight (seen : String → List Sighting) (x : String) (at_ : Sighting) (a : String) :
    List Sighting :=
  if a = x then seen a ++ [at_] else seen a

section Statements

variable {seen : String → List Sighting} {x : String} {slotHeight : UInt64} {txHash : String}
  {timestamp : Int} {db db' : Db}

/-- A row put in the table under its address. -/
theorem Summarised.put {row : AddressSummaryRow} {xs : List Sighting} (h : Summarised seen db)
    (hdb : db'.addressSummaries =
      Table.upsert AddressSummaryRow.address row (fun _ => row) db.addressSummaries)
    (hne : xs ≠ []) (hrow : Seen xs row) (hcounts : row.CountsNonneg) :
    Summarised (fun a => if a = row.address then xs else seen a) db' where
  counts a r ha := by
    rw [hdb, Table.lookup_put] at ha
    split at ha
    · cases ha
      exact hcounts
    · exact h.counts a r ha
  nodup := by
    rw [hdb]
    exact Table.nodup_put h.nodup
  absent a ha := by
    rw [hdb, Table.lookup_put] at ha
    split at ha
    · cases ha
    · rename_i hax
      simp only [hax, if_false]
      exact h.absent a ha
  present a r ha := by
    rw [hdb, Table.lookup_put] at ha
    split at ha
    · rename_i hax
      cases ha
      simp only [hax, if_true]
      exact ⟨hne, hrow⟩
    · rename_i hax
      simp only [hax, if_false]
      exact h.present a r ha

theorem Summarised.of_eq {seen' : String → List Sighting} (h : Summarised seen db)
    (hseen : ∀ a, seen' a = seen a) : Summarised seen' db := by
  rw [funext hseen]
  exact h

theorem Summarised.of_summaries (h : Summarised seen db)
    (hdb : db'.addressSummaries = db.addressSummaries) : Summarised seen db' := by
  constructor <;> rw [hdb]
  · exact h.nodup
  · exact h.absent
  · exact h.present
  · exact h.counts

/-- The row an activity puts in the table, by the sightings of the address so far. -/
theorem upsertAddressActivity_seen {role : AddressRole} (h : Summarised seen db)
    (hok : upsertAddressActivity x role slotHeight txHash timestamp db = .ok db') :
    ∃ row : AddressSummaryRow, row.address = x ∧
      Seen (seen x ++ [⟨slotHeight.toInt64, txHash, timestamp⟩]) row ∧ row.CountsNonneg ∧
      db'.addressSummaries =
        Table.upsert AddressSummaryRow.address row (fun _ => row) db.addressSummaries := by
  unfold upsertAddressActivity at hok
  cases hl : Table.lookup AddressSummaryRow.address x db.addressSummaries with
  | none =>
    simp only [hl, pure, Except.pure, Except.ok.injEq] at hok
    subst hok
    refine ⟨_, rfl, ?_, ?_, (Table.upsert_fresh hl).symm⟩
    · rw [h.absent x hl, List.nil_append]
      exact (seen_fresh x).congr rfl rfl
    · cases role <;> simp [AddressSummaryRow.CountsNonneg, freshSummary]
  | some old =>
    simp only [hl] at hok
    obtain ⟨sent, -, hok⟩ := bind_eq_ok.1 hok
    obtain ⟨received, -, hok⟩ := bind_eq_ok.1 hok
    simp only [unit_bind_eq_ok, pure, Except.pure, Except.ok.injEq] at hok
    obtain ⟨hcheck, rfl⟩ := hok
    have hkey : old.address = x := Table.lookup_key hl
    refine ⟨mergeActivity old sent received slotHeight.toInt64 txHash timestamp, hkey,
      (h.present x old hl).2.merge (x := ⟨slotHeight.toInt64, txHash, timestamp⟩),
      (AddressSummaryRow.check_eq_ok.1 hcheck).1, ?_⟩
    rw [Table.upsert_present (hkey ▸ hl), ← hkey]
    rfl

theorem Summarised.activity {role : AddressRole} (h : Summarised seen db)
    (hok : upsertAddressActivity x role slotHeight txHash timestamp db = .ok db') :
    Summarised (sight seen x ⟨slotHeight.toInt64, txHash, timestamp⟩) db' := by
  obtain ⟨row, rfl, hrow, hcounts, hdb⟩ := upsertAddressActivity_seen h hok
  have hne : seen row.address ++ [⟨slotHeight.toInt64, txHash, timestamp⟩] ≠ [] :=
    List.append_ne_nil_of_right_ne_nil _ (List.cons_ne_nil _ _)
  apply (h.put hdb hne hrow hcounts).of_eq
  intro a
  unfold sight
  split
  · rename_i hax
    rw [hax]
  · rfl

/-- A row with a sighting passes the CHECKs. -/
theorem Seen.check {xs : List Sighting} {r : AddressSummaryRow} (h : Seen xs r) (hne : xs ≠ [])
    (hcounts : r.CountsNonneg) : r.check = .ok () := by
  have hsome : ∀ {β : Type} (o : Option Sighting) (g : Sighting → β), o ≠ none →
      o.map g ≠ none := by
    intro β o g ho
    simpa using ho
  have hmin : ∀ f : Sighting → Int, xs.argmin f ≠ none := fun f e => hne (List.argmin_eq_none.1 e)
  have hmax : ∀ f : Sighting → Int, xs.argmax f ≠ none := fun f e => hne (List.argmax_eq_none.1 e)
  refine AddressSummaryRow.check_eq_ok.2 ⟨hcounts, .inr ⟨?_, ?_, ?_⟩, .inr ⟨?_, ?_, ?_⟩⟩
  · exact h.firstSlot ▸ hsome _ _ (hmin _)
  · exact h.firstTx ▸ hsome _ _ (hmin _)
  · exact h.firstTimestamp ▸ hsome _ _ (hmin _)
  · exact h.lastSlot ▸ hsome _ _ (hmax _)
  · exact h.lastTx ▸ hsome _ _ (hmax _)
  · exact h.lastTimestamp ▸ hsome _ _ (hmax _)

theorem addInt64_eq_ok {n k : Int64} (hn : 0 ≤ n.toInt) (hk : 0 ≤ k.toInt)
    (hroom : n.toInt + k.toInt < 2 ^ 63) :
    ∃ m, addInt64 n k = .ok m ∧ 0 ≤ m.toInt := by
  have hadd : addInt64 n k = .ok (n + k) := if_pos ⟨by omega, hroom⟩
  refine ⟨n + k, hadd, ?_⟩
  rw [addInt64_ok hadd]
  omega

/-- No constraint stops an activity; only a counter at its end does. -/
theorem Summarised.activity_applies {role : AddressRole} (h : Summarised seen db)
    (hroom : ∀ r, Table.lookup AddressSummaryRow.address x db.addressSummaries = some r →
      (role.count r).toInt + 1 < 2 ^ 63) :
    ∃ db', upsertAddressActivity x role slotHeight txHash timestamp db = .ok db' := by
  unfold upsertAddressActivity
  cases hl : Table.lookup AddressSummaryRow.address x db.addressSummaries with
  | none => exact ⟨_, rfl⟩
  | some old =>
    obtain ⟨hne, hseen⟩ := h.present x old hl
    obtain ⟨hsent, hreceived, howned, hmember⟩ := h.counts x old hl
    have hbound := hroom old hl
    have hcheck : ∀ sent received : Int64, 0 ≤ sent.toInt → 0 ≤ received.toInt →
        (mergeActivity old sent received slotHeight.toInt64 txHash timestamp).check = .ok () := by
      intro sent received hs hr
      exact (hseen.merge (x := ⟨slotHeight.toInt64, txHash, timestamp⟩)).check
        (List.append_ne_nil_of_right_ne_nil _ (List.cons_ne_nil _ _)) ⟨hs, hr, howned, hmember⟩
    cases role with
    | sender =>
      obtain ⟨sent, hs, hs0⟩ := addInt64_eq_ok (k := 1) hsent (by decide) hbound
      obtain ⟨received, hr, hr0⟩ := addInt64_eq_ok (k := 0) hreceived (by decide)
        (by rw [Int64.toInt_zero, Int.add_zero]; exact Int64.toInt_lt _)
      simp only [hs, hr, hcheck sent received hs0 hr0, bind, Except.bind]
      exact ⟨_, rfl⟩
    | receiver =>
      obtain ⟨sent, hs, hs0⟩ := addInt64_eq_ok (k := 0) hsent (by decide)
        (by rw [Int64.toInt_zero, Int.add_zero]; exact Int64.toInt_lt _)
      obtain ⟨received, hr, hr0⟩ := addInt64_eq_ok (k := 1) hreceived (by decide) hbound
      simp only [hs, hr, hcheck sent received hs0 hr0, bind, Except.bind]
      exact ⟨_, rfl⟩

/-- The owner's bump leaves the sightings of a known owner alone. -/
theorem Summarised.bump (h : Summarised seen db) (hknown : seen x ≠ [])
    (hok : bumpAddressSchemasOwned x slotHeight txHash timestamp db = .ok db') :
    Summarised seen db' := by
  unfold bumpAddressSchemasOwned at hok
  cases hl : Table.lookup AddressSummaryRow.address x db.addressSummaries with
  | none => exact absurd (h.absent x hl) hknown
  | some old =>
    simp only [hl] at hok
    obtain ⟨n, -, hok⟩ := bind_eq_ok.1 hok
    simp only [unit_bind_eq_ok, pure, Except.pure, Except.ok.injEq] at hok
    obtain ⟨hcheck, rfl⟩ := hok
    have hkey : old.address = x := Table.lookup_key hl
    have hrow : Seen (seen x) { old with schemasOwnedCount := n } :=
      (h.present x old hl).2.congr rfl rfl
    apply (h.put ?_ hknown hrow (AddressSummaryRow.check_eq_ok.1 hcheck).1).of_eq
    · intro a
      simp only [hkey]
      split
      · rename_i hax
        rw [hax]
      · rfl
    · rw [Table.upsert_present (hkey ▸ hl), ← hkey]

end Statements

/-! ## Activities in any order -/

/-- A call of `upsert_address_activity`, with or without the owner's bump after it. -/
structure Activity where
  address : String
  role : AddressRole
  slotHeight : UInt64
  txHash : String
  timestamp : Int
  bumps : Bool
  deriving DecidableEq

def Activity.sighting (x : Activity) : Sighting := ⟨x.slotHeight.toInt64, x.txHash, x.timestamp⟩

/-- The activity applied; a bump that is refused changes nothing. -/
def applyActivity (db : Db) (x : Activity) : Option Db :=
  match upsertAddressActivity x.address x.role x.slotHeight x.txHash x.timestamp db with
  | .error _ => none
  | .ok db₁ =>
    if x.bumps then
      match bumpAddressSchemasOwned x.address x.slotHeight x.txHash x.timestamp db₁ with
      | .error _ => some db₁
      | .ok db₂ => some db₂
    else some db₁

/-- The activities of one address. -/
def activitiesOf (a : String) (xs : List Activity) : List Activity :=
  xs.filter fun x => x.address = a

def sightingsOf (xs : List Activity) (a : String) : List Sighting :=
  (activitiesOf a xs).map Activity.sighting

section Activities

variable {xs : List Activity} {x : Activity} {db db' : Db}

theorem sightingsOf_snoc (a : String) :
    sightingsOf (xs ++ [x]) a = sight (sightingsOf xs) x.address x.sighting a := by
  unfold sightingsOf activitiesOf sight
  rw [List.filter_append, List.map_append]
  by_cases ha : x.address = a
  · simp [ha]
  · have ha' : a ≠ x.address := fun e => ha e.symm
    simp [ha, ha']

theorem Summarised.applyActivity {seen : String → List Sighting} (h : Summarised seen db)
    (hok : applyActivity db x = some db') :
    Summarised (sight seen x.address x.sighting) db' := by
  unfold Indexer.applyActivity at hok
  cases hact : upsertAddressActivity x.address x.role x.slotHeight x.txHash x.timestamp db with
  | error e =>
    rw [hact] at hok
    cases hok
  | ok db₁ =>
    have h₁ : Summarised (sight seen x.address x.sighting) db₁ := h.activity hact
    rw [hact] at hok
    dsimp only at hok
    split at hok
    · split at hok
      · cases hok
        exact h₁
      · rename_i db₂ hbump
        cases hok
        refine h₁.bump ?_ hbump
        rw [sight, if_pos rfl]
        exact List.append_ne_nil_of_right_ne_nil _ (List.cons_ne_nil _ _)
    · cases hok
      exact h₁

theorem applyActivity_isSome {db₁ : Db}
    (h : upsertAddressActivity x.address x.role x.slotHeight x.txHash x.timestamp db = .ok db₁) :
    (Indexer.applyActivity db x).isSome := by
  unfold Indexer.applyActivity
  rw [h]
  dsimp only
  split
  · split <;> rfl
  · rfl

theorem summarised_nil (hnew : db.addressSummaries = []) :
    Summarised (fun _ => []) db := by
  refine ⟨?_, fun _ _ => rfl, ?_, ?_⟩
  · rw [hnew]
    exact List.nodup_nil
  · intro a r hr
    rw [hnew] at hr
    cases hr
  · intro a r hr
    rw [hnew] at hr
    cases hr

/-- **Run lemma.** -/
theorem summarised_exec {db₀ : Db} (hnew : db₀.addressSummaries = [])
    (hrun : exec Indexer.applyActivity db₀ xs = some db) : Summarised (sightingsOf xs) db := by
  refine exec_history (I := fun xs db => Summarised (sightingsOf xs) db) ?_ ?_
    (List.prefix_refl xs) hrun
  · exact summarised_nil hnew
  · intro xs x m t _ _ ih hx
    exact (ih.applyActivity hx).of_eq sightingsOf_snoc

end Activities

/-! ## The extrema -/

/-- The columns of the row are the extreme slots and timestamps of the activities, and none of the
six is `NULL`. -/
structure SeenExtrema (xs : List Activity) (r : AddressSummaryRow) : Prop where
  firstSlot : ∃ x ∈ xs, r.firstSeenSlot = some x.slotHeight.toInt64 ∧
    ∀ y ∈ xs, x.slotHeight.toInt64 ≤ y.slotHeight.toInt64
  lastSlot : ∃ x ∈ xs, r.lastSeenSlot = some x.slotHeight.toInt64 ∧
    ∀ y ∈ xs, y.slotHeight.toInt64 ≤ x.slotHeight.toInt64
  firstTimestamp : ∃ x ∈ xs, r.firstSeenTimestamp = some x.timestamp ∧
    ∀ y ∈ xs, x.timestamp ≤ y.timestamp
  lastTimestamp : ∃ x ∈ xs, r.lastSeenTimestamp = some x.timestamp ∧
    ∀ y ∈ xs, y.timestamp ≤ x.timestamp
  firstTx : r.firstSeenTx ≠ none
  lastTx : r.lastSeenTx ≠ none

section Extrema

variable {α : Type} {f : α → Int} {l : List α}

theorem exists_argmin (hl : l ≠ []) : ∃ m ∈ l, l.argmin f = some m ∧ ∀ y ∈ l, f m ≤ f y := by
  cases hm : l.argmin f with
  | none => exact absurd (List.argmin_eq_none.1 hm) hl
  | some m => exact ⟨m, List.argmin_mem hm, rfl, fun y hy => List.le_of_mem_argmin hy hm⟩

theorem exists_argmax (hl : l ≠ []) : ∃ m ∈ l, l.argmax f = some m ∧ ∀ y ∈ l, f y ≤ f m := by
  cases hm : l.argmax f with
  | none => exact absurd (List.argmax_eq_none.1 hm) hl
  | some m => exact ⟨m, List.argmax_mem hm, rfl, fun y hy => List.le_of_mem_argmax hy hm⟩

variable {xs ys : List Activity} {r r' : AddressSummaryRow}

theorem Seen.extrema (h : Seen (xs.map Activity.sighting) r) (hne : xs ≠ []) :
    SeenExtrema xs r := by
  have hne' : xs.map Activity.sighting ≠ [] := fun e => hne (List.map_eq_nil_iff.1 e)
  obtain ⟨s, hs, hfirst, hleast⟩ := exists_argmin (f := Sighting.slotKey) hne'
  obtain ⟨t, ht, hlast, hgreatest⟩ := exists_argmax (f := Sighting.slotKey) hne'
  obtain ⟨u, hu, hearly, hearliest⟩ := exists_argmin (f := Sighting.timestamp) hne'
  obtain ⟨v, hv, hlate, hlatest⟩ := exists_argmax (f := Sighting.timestamp) hne'
  obtain ⟨x, hx, rfl⟩ := List.mem_map.1 hs
  obtain ⟨y, hy, rfl⟩ := List.mem_map.1 ht
  obtain ⟨z, hz, rfl⟩ := List.mem_map.1 hu
  obtain ⟨w, hw, rfl⟩ := List.mem_map.1 hv
  refine ⟨⟨x, hx, ?_, ?_⟩, ⟨y, hy, ?_, ?_⟩, ⟨z, hz, ?_, ?_⟩, ⟨w, hw, ?_, ?_⟩, ?_, ?_⟩
  · rw [h.firstSlot, hfirst]
    rfl
  · intro k hk
    exact Int64.le_iff_toInt_le.2 (hleast _ (List.mem_map_of_mem hk))
  · rw [h.lastSlot, hlast]
    rfl
  · intro k hk
    exact Int64.le_iff_toInt_le.2 (hgreatest _ (List.mem_map_of_mem hk))
  · rw [h.firstTimestamp, hearly]
    rfl
  · intro k hk
    exact hearliest _ (List.mem_map_of_mem hk)
  · rw [h.lastTimestamp, hlate]
    rfl
  · intro k hk
    exact hlatest _ (List.mem_map_of_mem hk)
  · rw [h.firstTx, hfirst]
    exact Option.some_ne_none _
  · rw [h.lastTx, hlast]
    exact Option.some_ne_none _

/-- The four columns of a row that are extrema. -/
def AddressSummaryRow.extrema (r : AddressSummaryRow) :
    (Option Int64 × Option Int64) × Option Int × Option Int :=
  ((r.firstSeenSlot, r.lastSeenSlot), r.firstSeenTimestamp, r.lastSeenTimestamp)

/-- They are determined by which activities there were. -/
theorem SeenExtrema.unique (h : SeenExtrema xs r) (h' : SeenExtrema ys r')
    (hsame : ∀ x, x ∈ ys ↔ x ∈ xs) : r'.extrema = r.extrema := by
  obtain ⟨x, hx, hfirst, hleast⟩ := h.firstSlot
  obtain ⟨x', hx', hfirst', hleast'⟩ := h'.firstSlot
  obtain ⟨y, hy, hlast, hgreatest⟩ := h.lastSlot
  obtain ⟨y', hy', hlast', hgreatest'⟩ := h'.lastSlot
  obtain ⟨z, hz, hearly, hearliest⟩ := h.firstTimestamp
  obtain ⟨z', hz', hearly', hearliest'⟩ := h'.firstTimestamp
  obtain ⟨w, hw, hlate, hlatest⟩ := h.lastTimestamp
  obtain ⟨w', hw', hlate', hlatest'⟩ := h'.lastTimestamp
  have hs := Int64.le_antisymm (hleast' x ((hsame x).2 hx)) (hleast x' ((hsame x').1 hx'))
  have ht := Int64.le_antisymm (hgreatest y' ((hsame y').1 hy')) (hgreatest' y ((hsame y).2 hy))
  have hu := Int.le_antisymm (hearliest' z ((hsame z).2 hz)) (hearliest z' ((hsame z').1 hz'))
  have hv := Int.le_antisymm (hlatest w' ((hsame w').1 hw')) (hlatest' w ((hsame w).2 hw))
  rw [AddressSummaryRow.extrema, hfirst', hlast', hearly', hlate', hs, ht, hu, hv, ← hfirst,
    ← hlast, ← hearly, ← hlate, AddressSummaryRow.extrema]

end Extrema

/-! ## Extrema of the history -/

/-- The extreme slots as numbers, which the column holds below `2 ^ 63` only. -/
structure SlotExtrema (xs : List Activity) (r : AddressSummaryRow) : Prop where
  first : ∃ x ∈ xs, r.firstSeenSlot.map Int64.toInt = some (x.slotHeight.toNat : Int) ∧
    ∀ y ∈ xs, x.slotHeight ≤ y.slotHeight
  last : ∃ x ∈ xs, r.lastSeenSlot.map Int64.toInt = some (x.slotHeight.toNat : Int) ∧
    ∀ y ∈ xs, y.slotHeight ≤ x.slotHeight

theorem SeenExtrema.slots {xs : List Activity} {r : AddressSummaryRow} (h : SeenExtrema xs r)
    (hfit : ∀ x ∈ xs, x.slotHeight.toNat < 2 ^ 63) : SlotExtrema xs r := by
  have hle : ∀ x ∈ xs, ∀ y ∈ xs, x.slotHeight.toInt64 ≤ y.slotHeight.toInt64 →
      x.slotHeight ≤ y.slotHeight := by
    intro x hx y hy hxy
    rw [Int64.le_iff_toInt_le, toInt_toInt64 (hfit x hx), toInt_toInt64 (hfit y hy)] at hxy
    rw [UInt64.le_iff_toNat_le]
    omega
  obtain ⟨x, hx, hfirst, hleast⟩ := h.firstSlot
  obtain ⟨y, hy, hlast, hgreatest⟩ := h.lastSlot
  refine ⟨⟨x, hx, ?_, fun k hk => hle x hx k hk (hleast k hk)⟩,
    ⟨y, hy, ?_, fun k hk => hle k hk y hy (hgreatest k hk)⟩⟩
  · rw [hfirst, Option.map_some, toInt_toInt64 (hfit x hx)]
  · rw [hlast, Option.map_some, toInt_toInt64 (hfit y hy)]

section History

variable {xs : List Activity} {db : Db}

theorem mem_activitiesOf {a : String} {x : Activity} :
    x ∈ activitiesOf a xs ↔ x ∈ xs ∧ x.address = a := by
  simp [activitiesOf]

/-- An address has a row exactly if it has an activity. -/
theorem Summarised.row_iff (h : Summarised (sightingsOf xs) db) (a : String) :
    (Table.lookup AddressSummaryRow.address a db.addressSummaries).isSome ↔
      activitiesOf a xs ≠ [] := by
  cases hl : Table.lookup AddressSummaryRow.address a db.addressSummaries with
  | none =>
    have hnone := h.absent a hl
    simp only [sightingsOf, List.map_eq_nil_iff] at hnone
    simp [hnone]
  | some r =>
    have hne := (h.present a r hl).1
    simp only [sightingsOf, ne_eq, List.map_eq_nil_iff] at hne
    simp [hne]

theorem Summarised.seenExtrema (h : Summarised (sightingsOf xs) db) {a : String}
    {r : AddressSummaryRow}
    (hl : Table.lookup AddressSummaryRow.address a db.addressSummaries = some r) :
    SeenExtrema (activitiesOf a xs) r :=
  (h.present a r hl).2.extrema ((h.row_iff a).1 (by rw [hl]; rfl))

/-- A row is counted exactly if its address has a recent activity. -/
theorem SeenExtrema.activeSince {r : AddressSummaryRow} {since : Int} (h : SeenExtrema xs r) :
    Api.Stats.activeSince since r = true ↔ ∃ x ∈ xs, since ≤ 1000 * x.timestamp := by
  obtain ⟨x, hx, hlast, hlatest⟩ := h.lastTimestamp
  rw [Api.Stats.activeSince, hlast, Option.any_some, decide_eq_true_iff]
  constructor
  · intro hsince
    exact ⟨x, hx, hsince⟩
  · intro h
    obtain ⟨y, hy, hsince⟩ := h
    have := hlatest y hy
    omega

/-- The addresses with an activity from `since` on. -/
def activeAddressesSince (since : Int) (xs : List Activity) : List String :=
  ((xs.filter fun x => since ≤ 1000 * x.timestamp).map Activity.address).dedup

theorem Summarised.counted_iff (h : Summarised (sightingsOf xs) db) (since : Int) (a : String) :
    (∃ r ∈ db.addressSummaries, r.address = a ∧ Api.Stats.activeSince since r = true) ↔
      ∃ x ∈ xs, x.address = a ∧ since ≤ 1000 * x.timestamp := by
  constructor
  · intro h
    obtain ⟨r, hr, hra, hactive⟩ := h
    have hl := (Table.lookup_eq_some_iff h.nodup).2 ⟨hr, hra⟩
    obtain ⟨x, hx, hsince⟩ := (h.seenExtrema hl).activeSince.1 hactive
    exact ⟨x, (mem_activitiesOf.1 hx).1, (mem_activitiesOf.1 hx).2, hsince⟩
  · intro h
    obtain ⟨x, hx, hxa, hsince⟩ := h
    have hmem : x ∈ activitiesOf a xs := mem_activitiesOf.2 ⟨hx, hxa⟩
    obtain ⟨r, hl⟩ := Option.isSome_iff_exists.1 ((h.row_iff a).2 (List.ne_nil_of_mem hmem))
    exact ⟨r, Table.lookup_mem hl, Table.lookup_key hl,
      (h.seenExtrema hl).activeSince.2 ⟨x, hmem, hsince⟩⟩

theorem Summarised.countActive (h : Summarised (sightingsOf xs) db) (since : Int) :
    Api.Stats.countActive since db = (activeAddressesSince since xs).length := by
  have hperm : ((db.addressSummaries.filter (Api.Stats.activeSince since)).map
      AddressSummaryRow.address).Perm (activeAddressesSince since xs) := by
    rw [activeAddressesSince, List.perm_ext_iff_of_nodup (h.nodup.sublist (List.filter_sublist.map _))
      (List.nodup_dedup _)]
    intro a
    have hcounted := h.counted_iff since a
    simp only [List.mem_map, List.mem_filter, List.mem_dedup, decide_eq_true_iff]
    constructor
    · intro h
      obtain ⟨r, ⟨hr, hactive⟩, hra⟩ := h
      obtain ⟨x, hx, hxa, hsince⟩ := hcounted.1 ⟨r, hr, hra, hactive⟩
      exact ⟨x, ⟨hx, hsince⟩, hxa⟩
    · intro h
      obtain ⟨x, ⟨hx, hsince⟩, hxa⟩ := h
      obtain ⟨r, hr, hra, hactive⟩ := hcounted.2 ⟨x, hx, hxa, hsince⟩
      exact ⟨r, ⟨hr, hactive⟩, hra⟩
  rw [Api.Stats.countActive, List.countP_eq_length_filter, ← hperm.length_eq, List.length_map]

/-- **First and last seen** over any sequence of activities: every address that has one has a row,
its columns are the extrema of its activities, they depend only on which activities there were, the
active addresses are those with a recent activity, and no constraint stops a further activity. -/
theorem seen_extrema {db₀ : Db} (hnew : db₀.addressSummaries = [])
    (hrun : exec applyActivity db₀ xs = some db) :
    (∀ a, (Table.lookup AddressSummaryRow.address a db.addressSummaries).isSome ↔
      activitiesOf a xs ≠ []) ∧
    (∀ a r, Table.lookup AddressSummaryRow.address a db.addressSummaries = some r →
      SeenExtrema (activitiesOf a xs) r ∧
        ((∀ x ∈ activitiesOf a xs, x.slotHeight.toNat < 2 ^ 63) →
          SlotExtrema (activitiesOf a xs) r)) ∧
    (∀ ys db₁ db', (∀ x, x ∈ ys ↔ x ∈ xs) → db₁.addressSummaries = [] →
      exec applyActivity db₁ ys = some db' → ∀ a,
        (Table.lookup AddressSummaryRow.address a db'.addressSummaries).map
            AddressSummaryRow.extrema =
          (Table.lookup AddressSummaryRow.address a db.addressSummaries).map
            AddressSummaryRow.extrema) ∧
    (∀ since, Api.Stats.countActive since db = (activeAddressesSince since xs).length ∧
      ∀ a, (∃ r ∈ db.addressSummaries, r.address = a ∧ Api.Stats.activeSince since r = true) ↔
        ∃ x ∈ xs, x.address = a ∧ since ≤ 1000 * x.timestamp) ∧
    ∀ x : Activity, (∀ r, Table.lookup AddressSummaryRow.address x.address db.addressSummaries = some r →
      (x.role.count r).toInt + 1 < 2 ^ 63) → (applyActivity db x).isSome := by
  have h := summarised_exec hnew hrun
  refine ⟨h.row_iff, ?_, ?_, fun since => ⟨h.countActive since, h.counted_iff since⟩, ?_⟩
  · intro a r hl
    exact ⟨h.seenExtrema hl, (h.seenExtrema hl).slots⟩
  · intro ys db₁ db' hsame hnew' hrun' a
    have h' := summarised_exec hnew' hrun'
    have hof : ∀ x, x ∈ activitiesOf a ys ↔ x ∈ activitiesOf a xs := by
      intro x
      rw [mem_activitiesOf, mem_activitiesOf, hsame]
    cases hl : Table.lookup AddressSummaryRow.address a db.addressSummaries with
    | none =>
      have hnone : ¬ activitiesOf a ys ≠ [] := by
        intro hne
        obtain ⟨x, hx⟩ := List.exists_mem_of_ne_nil _ hne
        have hsome := (h.row_iff a).2 (List.ne_nil_of_mem ((hof x).1 hx))
        rw [hl] at hsome
        cases hsome
      rw [Option.not_isSome_iff_eq_none.1 fun hs => hnone ((h'.row_iff a).1 hs)]
    | some r =>
      have hne := (h.row_iff a).1 (by rw [hl]; rfl)
      obtain ⟨x, hx⟩ := List.exists_mem_of_ne_nil _ hne
      obtain ⟨r', hl'⟩ := Option.isSome_iff_exists.1
        ((h'.row_iff a).2 (List.ne_nil_of_mem ((hof x).2 hx)))
      rw [hl', Option.map_some, Option.map_some,
        (h.seenExtrema hl).unique (h'.seenExtrema hl') hof]
  · intro x hroom
    obtain ⟨db₁, hok⟩ : ∃ db₁, upsertAddressActivity x.address x.role x.slotHeight x.txHash
        x.timestamp db = .ok db₁ := h.activity_applies hroom
    exact applyActivity_isSome hok

end History

/-- An owner is seen three times, out of order. -/
def scattered : List Activity :=
  [⟨"lig1o", .sender, 5, "0x05", 50, false⟩, ⟨"lig1o", .sender, 2, "0x02", 90, true⟩,
    ⟨"lig1o", .receiver, 9, "0x09", 10, false⟩]

theorem scattered_extrema :
    ∃ db r, exec applyActivity Db.empty scattered = some db ∧
      Table.lookup AddressSummaryRow.address "lig1o" db.addressSummaries = some r ∧
      SeenExtrema (activitiesOf "lig1o" scattered) r ∧ Api.Stats.countActive 90000 db = 1 := by
  obtain ⟨db, hrun⟩ : ∃ db, exec applyActivity Db.empty scattered = some db := ⟨_, rfl⟩
  obtain ⟨hrow, hextrema, -, hcount, -⟩ := seen_extrema rfl hrun
  obtain ⟨r, hr⟩ := Option.isSome_iff_exists.1 ((hrow "lig1o").2 (by decide))
  exact ⟨db, r, hrun, hr, (hextrema "lig1o" r hr).1, (hcount 90000).1⟩

end LigateApi.Indexer
