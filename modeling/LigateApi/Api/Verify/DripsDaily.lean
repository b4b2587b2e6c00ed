import Mathlib.Data.Int.ConditionallyCompleteOrder
import Mathlib.Data.String.Basic
import Mathlib.Order.ConditionallyCompleteLattice.Basic
import LigateApi.Api.Stats

/-!
# Drips per day

`compute_drips_daily` returns one point for each day that occurs in either table, in ascending
order, with the two counts of that day (`toList_mergeByDay`). The faucet's transfers are the drips of
both sources, since the bot signs with the same key: a bot drip is counted under `bot` and once more
under `web`. So the points count every drip once exactly if no drip of the window came from the bot.
-/

namespace LigateApi.Api.Stats

open Lib Queries Buckets

/-! ## What the points are -/

section Points

variable {format : Int → String} {web bot : List Int}

/-- The days that occur in either table. -/
def daysOf (web bot : List Int) : List Int := (web ++ bot).map dayOf

/-- The entry of a day, from the instants of both tables. -/
def dayEntry (format : Int → String) (web bot : List Int) (d : Int) : String × Nat × Nat :=
  (format d, web.countP fun t => dayOf t = d, bot.countP fun t => dayOf t = d)

section Lookup

variable {rows : List Int} {d : Int} (hformat : Set.InjOn format {d | d ∈ daysOf web bot})
  (hrows : rows ⊆ web ++ bot)

include hformat hrows

theorem nodup_groups : ((groupCount dayOf rows).map fun e => format e.1).Nodup :=
  nodup_groupCount (hformat.mono fun _ hd => List.map_subset dayOf hrows hd)

/-- A day has a group in a table exactly if it occurs there. -/
theorem lookup_groups (hd : d ∈ daysOf web bot) :
    Table.lookup (fun e => format e.1) (format d) (groupCount dayOf rows) =
      if d ∈ rows.map dayOf then some (d, rows.countP fun t => dayOf t = d) else none := by
  split
  · rename_i hmem
    exact (Table.lookup_eq_some_iff (nodup_groups hformat hrows)).2 ⟨mem_groupCount.2 ⟨hmem, rfl⟩, rfl⟩
  · rename_i hmem
    refine Table.lookup_eq_none.2 fun e he hkey => hmem ?_
    have hday := (mem_groupCount.1 he).1
    rwa [hformat (List.map_subset dayOf hrows hday) hd hkey] at hday

end Lookup

variable (hformat : Set.InjOn format {d | d ∈ daysOf web bot})

include hformat

theorem getElem?_mergeByDay (k : String) :
    (mergeByDay format (groupCount dayOf web) (groupCount dayOf bot))[k]? =
      match Table.lookup (fun e => format e.1) k (groupCount dayOf web),
        Table.lookup (fun e => format e.1) k (groupCount dayOf bot) with
      | none, none => none
      | w, b => some (w.elim 0 Prod.snd, b.elim 0 Prod.snd) := by
  have hweb := nodup_groups hformat (List.subset_append_left web bot)
  have hbot := nodup_groups hformat (List.subset_append_right web bot)
  unfold mergeByDay
  rw [getElem?_foldl_alter (fun e : Int × Nat => format e.1) (fun r e => ((e.getD (0, 0)).1, r.2)) hbot,
    getElem?_foldl_alter (fun e : Int × Nat => format e.1) (fun r e => (r.2, (e.getD (0, 0)).2)) hweb]
  cases Table.lookup (fun e => format e.1) k (groupCount dayOf web) <;>
    cases Table.lookup (fun e => format e.1) k (groupCount dayOf bot) <;> simp

/-- The entries of the map are those of the days. -/
theorem mem_mergeByDay (e : String × Nat × Nat) :
    (mergeByDay format (groupCount dayOf web) (groupCount dayOf bot))[e.1]? = some e.2 ↔
      ∃ d ∈ daysOf web bot, dayEntry format web bot d = e := by
  have hcount : ∀ (rows : List Int) (d : Int), d ∉ rows.map dayOf →
      rows.countP (fun t => dayOf t = d) = 0 := by
    intro rows d hd
    refine List.countP_eq_zero.2 fun t ht he => hd ?_
    exact List.mem_map.2 ⟨t, ht, of_decide_eq_true he⟩
  have hday : ∀ d ∈ daysOf web bot,
      (mergeByDay format (groupCount dayOf web) (groupCount dayOf bot))[format d]? =
        some (dayEntry format web bot d).2 := by
    intro d hd
    rw [getElem?_mergeByDay hformat, lookup_groups hformat (List.subset_append_left web bot) hd,
      lookup_groups hformat (List.subset_append_right web bot) hd]
    by_cases hw : d ∈ web.map dayOf <;> by_cases hb : d ∈ bot.map dayOf
    · rw [if_pos hw, if_pos hb]
      rfl
    · rw [if_pos hw, if_neg hb, dayEntry, hcount bot d hb]
      rfl
    · rw [if_neg hw, if_pos hb, dayEntry, hcount web d hw]
      rfl
    · rw [daysOf, List.map_append, List.mem_append] at hd
      exact absurd hd (not_or.2 ⟨hw, hb⟩)
  constructor
  · intro h
    obtain ⟨d, hd, hkey⟩ : ∃ d ∈ daysOf web bot, format d = e.1 := by
      by_contra hno
      have hnone : ∀ rows : List Int, rows ⊆ web ++ bot →
          Table.lookup (fun e => format e.1) e.1 (groupCount dayOf rows) = none := by
        intro rows hrows
        refine Table.lookup_eq_none.2 fun x hx hkey => hno ⟨x.1, ?_, hkey⟩
        exact List.map_subset dayOf hrows (mem_groupCount.1 hx).1
      rw [getElem?_mergeByDay hformat, hnone web (List.subset_append_left web bot),
        hnone bot (List.subset_append_right web bot)] at h
      cases h
    refine ⟨d, hd, Prod.ext hkey ?_⟩
    rw [← hkey, hday d hd] at h
    exact Option.some.inj h
  · rintro ⟨d, hd, rfl⟩
    exact hday d hd

end Points

/-- **The points**: one for each day, in ascending order, with both counts. -/
theorem toList_mergeByDay {format : Int → String} {web bot : List Int}
    (hformat : StrictMonoOn format {d | d ∈ daysOf web bot}) :
    (mergeByDay format (groupCount dayOf web) (groupCount dayOf bot)).toList =
      (ascending (daysOf web bot)).map (dayEntry format web bot) := by
  refine eq_of_pairwise (r := fun a b => compare a.1 b.1 = .lt) ?_ ?_ ?_ fun e => ?_
  · exact fun a b hab => Std.OrientedCmp.not_lt_of_lt hab
  · exact Std.TreeMap.ordered_keys_toList
  · rw [List.pairwise_map]
    refine (pairwise_ascending _).imp_of_mem fun ha hb hab => ?_
    exact compareOfLessAndEq_eq_lt.2 (hformat (mem_ascending.1 ha) (mem_ascending.1 hb) hab)
  · rw [Std.TreeMap.mem_toList_iff_getElem?_eq_some, mem_mergeByDay hformat.injOn, List.mem_map]
    simp only [mem_ascending]

/-! ## Histories of drips -/

/-- An accepted drip: the instant its transfer is indexed at, and for a bot drip the stamp of its row
in `bot_drips`. -/
inductive FaucetDrip
  | web (indexedAt : Int)
  | bot (indexedAt drippedAt : Int)

namespace FaucetDrip

def indexedAt : FaucetDrip → Int
  | web t => t
  | bot t _ => t

def drippedAt : FaucetDrip → Option Int
  | web _ => none
  | bot _ t => some t

def isWeb : FaucetDrip → Bool
  | web _ => true
  | bot _ _ => false

/-- The day the drip is to be counted on. -/
def day : FaucetDrip → Int
  | web t => dayOf t
  | bot _ t => dayOf t

end FaucetDrip

/-- The faucet's transfers of the window are the drips, each once, and the bot's rows of the window
are the bot drips. -/
structure Recorded (faucetAddr : String) (since : Int) (db : StatsDb) (drips : List FaucetDrip) :
    Prop where
  transfers : (faucetTransfers faucetAddr since db).Perm (drips.map FaucetDrip.indexedAt)
  botRows : (botStamps since db).Perm (drips.filterMap FaucetDrip.drippedAt)

/-- Each drip counted once, on its day and under its source. -/
def countedOnce (format : Int → String) (drips : List FaucetDrip) : List DripsDailyPoint :=
  (ascending (drips.map FaucetDrip.day)).map fun d =>
    { date := format d
      web := drips.countP fun x => x.isWeb ∧ x.day = d
      bot := drips.countP fun x => ¬ x.isWeb ∧ x.day = d
      total := drips.countP fun x => x.day = d }

/-- The days of a history, by either stamp. -/
def historyDays (drips : List FaucetDrip) : Set Int :=
  {d | ∃ x ∈ drips, d = dayOf x.indexedAt ∨ d = x.day}

section History

variable {format : Int → String} {pool : Except SqlxError StatsDb} {db : StatsDb} {days : UInt32}
  {faucetAddr : String} {now : Int} {drips : List FaucetDrip}

theorem day_of_isWeb {x : FaucetDrip} (h : x.isWeb = true) : x.day = dayOf x.indexedAt := by
  cases x with
  | web t => rfl
  | bot t t' => cases h

theorem drippedAt_of_isWeb {x : FaucetDrip} (h : x.isWeb = true) : x.drippedAt = none := by
  cases x with
  | web t => rfl
  | bot t t' => cases h

theorem countP_drippedAt (d : Int) : (drips.filterMap FaucetDrip.drippedAt).countP
    (fun t => dayOf t = d) = drips.countP fun x => ¬ x.isWeb ∧ x.day = d := by
  induction drips with
  | nil => rfl
  | cons x drips ih =>
    cases x with
    | web t =>
      rw [List.filterMap_cons_none rfl, ih, List.countP_cons_of_neg]
      simp [FaucetDrip.isWeb]
    | bot t t' =>
      have hstamp : (FaucetDrip.bot t t').drippedAt = some t' := rfl
      rw [List.filterMap_cons_some hstamp, List.countP_cons, List.countP_cons, ih]
      simp [FaucetDrip.isWeb, FaucetDrip.day]

/-- A predicate that misses an element of the list the other one has. -/
theorem countP_lt {α : Type} {p q : α → Bool} {l : List α} {x : α} (himp : ∀ y ∈ l, p y → q y)
    (hx : x ∈ l) (hp : ¬ p x) (hq : q x) : l.countP p < l.countP q := by
  obtain ⟨s, t, rfl⟩ := List.append_of_mem hx
  have hs : s.countP p ≤ s.countP q :=
    List.countP_mono_left fun y hy => himp y (List.mem_append_left _ hy)
  have ht : t.countP p ≤ t.countP q :=
    List.countP_mono_left fun y hy => himp y (List.mem_append_right _ (List.mem_cons_of_mem _ hy))
  rw [List.countP_append, List.countP_append, List.countP_cons_of_neg hp, List.countP_cons_of_pos hq]
  omega

variable (format drips) in
/-- The points of a recorded history: under `web` the drips of both sources, by the day they were
indexed. -/
def recordedPoints : List DripsDailyPoint :=
  (ascending (drips.map (fun x => dayOf x.indexedAt) ++
    (drips.filterMap FaucetDrip.drippedAt).map dayOf)).map fun d =>
    dripsDailyPoint (format d, drips.countP (fun x => dayOf x.indexedAt = d),
      drips.countP fun x => ¬ x.isWeb ∧ x.day = d)

theorem points_of_recorded (hrec : Recorded faucetAddr (windowStart now days) db drips)
    (hformat : StrictMonoOn format (historyDays drips)) :
    ∃ response, computeDripsDaily format (.ok db) days faucetAddr now = .ok response ∧
      response.points = recordedPoints format drips := by
  refine ⟨_, rfl, ?_⟩
  have hdays : ∀ d, d ∈ daysOf (faucetTransfers faucetAddr (windowStart now days) db)
      (botStamps (windowStart now days) db) ↔
      d ∈ drips.map (fun x => dayOf x.indexedAt) ++
        (drips.filterMap FaucetDrip.drippedAt).map dayOf := by
    intro d
    rw [daysOf, List.map_append, List.mem_append, List.mem_append,
      (hrec.transfers.map dayOf).mem_iff, (hrec.botRows.map dayOf).mem_iff, List.map_map]
    rfl
  have hsub : {d | d ∈ daysOf (faucetTransfers faucetAddr (windowStart now days) db)
      (botStamps (windowStart now days) db)} ⊆ historyDays drips := by
    intro d hd
    rcases List.mem_append.1 ((hdays d).1 hd) with hd | hd
    · obtain ⟨x, hx, rfl⟩ := List.mem_map.1 hd
      exact ⟨x, hx, .inl rfl⟩
    · obtain ⟨t, ht, rfl⟩ := List.mem_map.1 hd
      obtain ⟨x, hx, hxt⟩ := List.mem_filterMap.1 ht
      cases x with
      | web _ => cases hxt
      | bot _ t' =>
        cases hxt
        exact ⟨_, hx, .inr rfl⟩
  have hmerge := toList_mergeByDay fun a ha b hb hab => hformat (hsub ha) (hsub hb) hab
  rw [hmerge, List.map_map, ascending_congr hdays, recordedPoints]
  apply List.map_congr_left
  intro d _
  have hweb : (faucetTransfers faucetAddr (windowStart now days) db).countP (fun t => dayOf t = d) =
      drips.countP fun x => dayOf x.indexedAt = d := by
    rw [hrec.transfers.countP_eq, List.countP_map]
    rfl
  have hbot : (botStamps (windowStart now days) db).countP (fun t => dayOf t = d) =
      drips.countP fun x => ¬ x.isWeb ∧ x.day = d := by
    rw [hrec.botRows.countP_eq, countP_drippedAt]
  rw [Function.comp_apply, dayEntry, hweb, hbot]

/-- On the day a bot drip is indexed, `web` is one too many. -/
theorem recordedPoints_ne_of_bot (hformat : Set.InjOn format (historyDays drips)) {x : FaucetDrip}
    (hx : x ∈ drips) (hbot : ¬ x.isWeb = true) :
    recordedPoints format drips ≠ countedOnce format drips := by
  intro h
  have hmem : dripsDailyPoint (format (dayOf x.indexedAt),
      drips.countP (fun y => dayOf y.indexedAt = dayOf x.indexedAt),
      drips.countP fun y => ¬ y.isWeb ∧ y.day = dayOf x.indexedAt) ∈ countedOnce format drips := by
    rw [← h]
    refine List.mem_map.2 ⟨dayOf x.indexedAt, mem_ascending.2 ?_, rfl⟩
    exact List.mem_append_left _ (List.mem_map.2 ⟨x, hx, rfl⟩)
  obtain ⟨d, hd, hpoint⟩ := List.mem_map.1 hmem
  obtain ⟨y, hy, hday⟩ := List.mem_map.1 (mem_ascending.1 hd)
  have hdate : format d = format (dayOf x.indexedAt) := congrArg DripsDailyPoint.date hpoint
  have hsame : d = dayOf x.indexedAt := hformat ⟨y, hy, .inr hday.symm⟩ ⟨x, hx, .inl rfl⟩ hdate
  have hweb : (drips.countP fun y => y.isWeb ∧ y.day = d) =
      drips.countP fun y => dayOf y.indexedAt = d := by
    rw [hsame] at hpoint ⊢
    exact congrArg DripsDailyPoint.web hpoint
  have hlt : (drips.countP fun y => y.isWeb ∧ y.day = d) <
      drips.countP fun y => dayOf y.indexedAt = d := by
    refine countP_lt (fun y _ hy => ?_) hx ?_ ?_
    · obtain ⟨hyweb, hyday⟩ := of_decide_eq_true hy
      rw [day_of_isWeb hyweb] at hyday
      exact decide_eq_true hyday
    · exact fun hxweb => hbot (of_decide_eq_true hxweb).1
    · exact decide_eq_true hsame.symm
  exact absurd hweb hlt.ne

theorem recordedPoints_of_web (hall : ∀ x ∈ drips, x.isWeb = true) :
    recordedPoints format drips = countedOnce format drips := by
  have hstamps : drips.filterMap FaucetDrip.drippedAt = [] := by
    apply List.filterMap_eq_nil_iff.2
    intro x hx
    exact drippedAt_of_isWeb (hall x hx)
  have hdays : drips.map FaucetDrip.day = drips.map fun x => dayOf x.indexedAt :=
    List.map_congr_left fun x hx => day_of_isWeb (hall x hx)
  rw [recordedPoints, hstamps, List.map_nil, List.append_nil, countedOnce, hdays]
  apply List.map_congr_left
  intro d _
  have hweb : (drips.countP fun x => x.isWeb ∧ x.day = d) =
      drips.countP fun x => dayOf x.indexedAt = d := by
    apply List.countP_congr
    intro x hx
    simp only [decide_eq_true_eq, hall x hx, true_and, day_of_isWeb (hall x hx)]
  have hbot : (drips.countP fun x => ¬ x.isWeb ∧ x.day = d) = 0 := by
    apply List.countP_eq_zero.2
    intro x hx hxbot
    exact (of_decide_eq_true hxbot).1 (hall x hx)
  have htotal : (drips.countP fun x => x.day = d) =
      drips.countP fun x => dayOf x.indexedAt = d := by
    apply List.countP_congr
    intro x hx
    simp only [decide_eq_true_eq, day_of_isWeb (hall x hx)]
  rw [hbot, hweb, htotal]
  rfl

/-- **Every drip once.** The points count each drip of the window once, on its day and under its
source, exactly if none of them is a bot drip. -/
theorem drips_counted_once_iff (hrec : Recorded faucetAddr (windowStart now days) db drips)
    (hformat : StrictMonoOn format (historyDays drips)) :
    ∃ response, computeDripsDaily format (.ok db) days faucetAddr now = .ok response ∧
      (response.points = countedOnce format drips ↔ ∀ x ∈ drips, x.isWeb = true) := by
  obtain ⟨response, hok, hpoints⟩ := points_of_recorded hrec hformat
  refine ⟨response, hok, ?_⟩
  rw [hpoints]
  constructor
  · intro h x hx
    by_contra hbot
    exact recordedPoints_ne_of_bot hformat.injOn hx hbot h
  · exact recordedPoints_of_web

end History

/-! ## Two days in May -/

/-- The date of 19 and 20 May 2026. -/
def mayDate (d : Int) : String := if d = 20592 then "2026-05-19" else "2026-05-20"

theorem mayDate_strictMono {drips : List FaucetDrip}
    (h : ∀ x ∈ drips, dayOf x.indexedAt ∈ [20592, 20593] ∧ x.day ∈ [20592, 20593]) :
    StrictMonoOn mayDate (historyDays drips) := by
  have hdays : ∀ d ∈ historyDays drips, d = 20592 ∨ d = 20593 := by
    rintro d ⟨x, hx, rfl | rfl⟩
    · simpa using (h x hx).1
    · simpa using (h x hx).2
  intro a ha b hb hab
  rcases hdays a ha with rfl | rfl <;> rcases hdays b hb with rfl | rfl
  · exact absurd hab (lt_irrefl _)
  · decide
  · exact absurd hab (by decide)
  · exact absurd hab (lt_irrefl _)

/-- A transfer of the faucet. -/
def faucetTransfer (hash : String) : Indexer.TxRow where
  hash := hash
  slot := 7
  position := 0
  sender := some "lig1f"
  senderPubkey := none
  nonce := none
  feePaidNano := some 0
  protocolFeeNano := some 0
  kind := "transfer"
  details := .obj [("from", .str "lig1f"), ("to", .str "lig1a")]
  outcome := "committed"
  revertReason := none

/-- A web drip on each of the two days, and an older one. -/
def webDb : StatsDb where
  transactions := [(faucetTransfer "0x01", 1700000000000000),
    (faucetTransfer "0x02", 1779180000000000), (faucetTransfer "0x03", 1779260000000000)]
  botDrips := []

theorem webDb_counted_once :
    ∃ response, computeDripsDaily mayDate (.ok webDb) 30 "lig1f" 1779270000000000 = .ok response ∧
      response.points = countedOnce mayDate [.web 1779180000000000, .web 1779260000000000] := by
  have hrec : Recorded "lig1f" (windowStart 1779270000000000 30) webDb
      [.web 1779180000000000, .web 1779260000000000] := ⟨List.Perm.refl _, List.Perm.refl _⟩
  have hformat : StrictMonoOn mayDate
      (historyDays [.web 1779180000000000, .web 1779260000000000]) :=
    mayDate_strictMono (by decide)
  obtain ⟨response, hok, hiff⟩ := drips_counted_once_iff hrec hformat
  exact ⟨response, hok, hiff.2 (by decide)⟩

/-- A web drip and a bot drip on the second day. -/
def botDb : StatsDb where
  transactions := [(faucetTransfer "0x02", 1779250000000000),
    (faucetTransfer "0x03", 1779260000000000)]
  botDrips := [⟨"lig1a", "42", 100000000000, "0x03", "newcomer", none, none, 1779259990000000⟩]

theorem botDb_counted_twice :
    Recorded "lig1f" (windowStart 1779270000000000 30) botDb
        [.web 1779250000000000, .bot 1779260000000000 1779259990000000] ∧
      ∃ response, computeDripsDaily mayDate (.ok botDb) 30 "lig1f" 1779270000000000 = .ok response ∧
        response.points = [⟨"2026-05-20", 2, 1, 3⟩] ∧
        response.points ≠
          countedOnce mayDate [.web 1779250000000000, .bot 1779260000000000 1779259990000000] := by
  refine ⟨⟨List.Perm.refl _, List.Perm.refl _⟩, _, rfl, ?_, ?_⟩
  · decide
  · decide

end LigateApi.Api.Stats
