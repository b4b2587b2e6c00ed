import LigateApi.Indexer.Verify.SeenAt

/-!
# What the seen-at triples name

Over transactions ingested once each in chain order the first and the last triple of an address are
to be slot, hash and timestamp of its earliest and its latest transaction. The strict comparisons
keep the first transaction of the last slot, and the timestamp follows its own maximum: the triples
are right exactly if the latest transaction of the address is alone in its slot and no timestamp of
the address lies outside those of the two (`Untorn`).
-/

namespace LigateApi.Indexer

open Lib Lib.Run

/-! ## The rows of a resource -/

section Resources

variable {env : Env} {faults : TxStmt → Fault} {client : NodeClient} {w : TxWork}
  {seen : String → List Sighting}

/-- The rows of a resource add no sighting: an owner has been seen as the sender before. -/
theorem summarised_insertResourceRows
    (hknown : ∀ d, w.classified.kind = .registerSchema d → seen d.owner ≠ []) :
    Maintains (Summarised seen) (insertResourceRows env faults client w) := by
  apply maintains_insertResourceRows
  constructor
  · intro d db db' _ hok h
    obtain ⟨row, -, -, rfl⟩ := insertAttestorSet_ok hok
    exact h.of_summaries rfl
  · intro d db db' _ hok h
    rcases insertSchema_ok hok with ⟨-, rfl⟩ | ⟨-, -, rfl⟩
    · exact h
    · exact h.of_summaries rfl
  · intro d db db' _ hok h
    rcases bumpAttestorSetSchemaCount_ok hok with ⟨-, rfl⟩ | ⟨r, n, -, -, rfl⟩
    · exact h
    · exact h.of_summaries rfl
  · intro d db db' hk hok h
    exact h.bump (hknown d hk) hok
  · intro d db db' _ hok h
    rcases insertAttestation_ok hok with ⟨-, n, rfl⟩ | ⟨-, -, rfl⟩
    · exact h.of_summaries rfl
    · exact h.of_summaries rfl
  · intro d db db' _ hok h
    rcases bumpSchemaAttestationCount_ok hok with ⟨-, rfl⟩ | ⟨r, n, -, -, rfl⟩
    · exact h
    · exact h.of_summaries rfl
  · intro db t h
    exact h.of_summaries rfl
  · intro db t h
    exact h.of_summaries rfl

end Resources

/-! ## Histories -/

def TxWork.sighting (w : TxWork) : Sighting :=
  ⟨w.slotNumber.toInt64, w.classified.hash, w.timestamp⟩

/-- The transaction is counted for the address, as its sender or its receiver. -/
def TxWork.involves (w : TxWork) (a : String) : Prop :=
  summarySender w.classified.kind = some a ∨ summaryReceiver w.classified.kind = some a

/-- A transfer to oneself is seen twice. -/
def TxWork.sightings (w : TxWork) (a : String) : List Sighting :=
  (if summarySender w.classified.kind = some a then [w.sighting] else []) ++
    if summaryReceiver w.classified.kind = some a then [w.sighting] else []

/-- The sightings of an address over a list of transactions. -/
def sightingsIn (ws : List TxWork) (a : String) : List Sighting :=
  ws.flatMap fun w => w.sightings a

section History

variable {env : Env} {seen : String → List Sighting} {w : TxWork} {ws : List TxWork} {a : String}
  {x : Sighting}

theorem mem_sightings : x ∈ w.sightings a ↔ w.involves a ∧ x = w.sighting := by
  unfold TxWork.sightings TxWork.involves
  by_cases hs : summarySender w.classified.kind = some a <;>
    by_cases hr : summaryReceiver w.classified.kind = some a <;> simp [hs, hr]

theorem mem_sightingsIn :
    x ∈ sightingsIn ws a ↔ ∃ w ∈ ws, w.involves a ∧ x = w.sighting := by
  simp only [sightingsIn, List.mem_flatMap, mem_sightings]

/-- One address counted, or none. -/
theorem Summarised.countActivity {stmt : TxStmt} {role : AddressRole} {address : Option String}
    {next : TxRun → TxRun} {r : TxRun} (h : Summarised seen r.db) (hr : r.crashed = false)
    (hok : (countActivity noFaults stmt role w address next r).failed = []) :
    ∃ r' : TxRun, r'.crashed = false ∧
      countActivity noFaults stmt role w address next r = next r' ∧
      Summarised (fun a => seen a ++ if address = some a then [w.sighting] else []) r'.db := by
  cases address with
  | none =>
    refine ⟨r, hr, rfl, h.of_eq fun a => ?_⟩
    simp
  | some x =>
    obtain ⟨db, hdb, heq⟩ := attempt_eq_ok hr hok
    refine ⟨{ r with db }, hr, heq, (h.activity hdb).of_eq fun a => ?_⟩
    unfold sight
    by_cases ha : a = x
    · simp [ha, TxWork.sighting]
    · have ha' : x ≠ a := fun e => ha e.symm
      simp [ha, ha']

/-- **Step lemma**: a turn of the loop without an error adds the sightings of its transaction. -/
theorem Summarised.processTx {client : NodeClient} {db : Db} (h : Summarised seen db)
    (hok : (processTx env noFaults client w db).failed = []) :
    Summarised (fun a => seen a ++ w.sightings a) (processTx env noFaults client w db).db := by
  obtain ⟨db₁, htx, heq⟩ := processTx_eq_ok hok
  rw [heq] at hok ⊢
  have hfailed : (updateAddressSummaries noFaults w { db := db₁ }).failed = [] := by
    have hlogs : Logs (insertResourceRows env noFaults client w) := logs_insertResourceRows
    have hsub := hlogs (updateAddressSummaries noFaults w { db := db₁ })
    rw [hok] at hsub
    exact List.subset_nil.1 hsub
  have h₁ : Summarised seen db₁ := h.of_summaries (by rw [insertTransaction_frame htx])
  unfold updateAddressSummaries at hfailed
  obtain ⟨r₁, hr₁, heq₁, hsent⟩ := Summarised.countActivity (r := { db := db₁ }) h₁ rfl hfailed
  rw [heq₁] at hfailed
  obtain ⟨r₂, -, heq₂, hreceived⟩ := hsent.countActivity hr₁ hfailed
  have hseen : Summarised (fun a => seen a ++ w.sightings a)
      (updateAddressSummaries noFaults w { db := db₁ }).db := by
    unfold updateAddressSummaries
    rw [heq₁, heq₂]
    apply hreceived.of_eq
    intro a
    rw [TxWork.sightings, List.append_assoc]
  refine summarised_insertResourceRows ?_ _ hseen
  intro d hd
  have hmem : w.sighting ∈ w.sightings d.owner := mem_sightings.2 ⟨.inl (by rw [hd]; rfl), rfl⟩
  exact List.append_ne_nil_of_right_ne_nil _ (List.ne_nil_of_mem hmem)

/-- **Run lemma.** -/
theorem summarised_history {vs : List (Visit env)} {db₀ db : Db}
    (hnew : db₀.addressSummaries = []) (hrun : exec (visit env) db₀ vs = some db) :
    Summarised (sightingsIn (vs.map Visit.work)) db := by
  refine exec_history (I := fun vs db => Summarised (sightingsIn (vs.map Visit.work)) db) ?_ ?_
    (List.prefix_refl vs) hrun
  · exact summarised_nil hnew
  · intro vs v m t _ _ ih hv
    obtain ⟨hfailed, rfl⟩ := visit_eq_some.1 hv
    apply (ih.processTx hfailed).of_eq
    intro a
    simp [sightingsIn]

end History

/-! ## The first of several extrema -/

section Ties

variable {α : Type} {f : α → Int} {l l' : List α} {m b : α}

/-- What comes first is kept against what is not greater. -/
theorem argmax_mem_left (hm : (l ++ l').argmax f = some m) (hb : b ∈ l) (hle : f m ≤ f b) :
    m ∈ l := by
  induction l' using List.reverseRecOn generalizing m with
  | nil =>
    rw [List.append_nil] at hm
    exact List.argmax_mem hm
  | append_singleton l' x ih =>
    rw [← List.append_assoc, List.argmax_concat] at hm
    cases hc : (l ++ l').argmax f with
    | none =>
      have hnil := List.argmax_eq_none.1 hc
      rw [List.append_eq_nil_iff] at hnil
      rw [hnil.1] at hb
      cases hb
    | some c =>
      have hbc : f b ≤ f c := List.le_of_mem_argmax (List.mem_append_left _ hb) hc
      simp only [hc] at hm
      split at hm
      · rename_i hlt
        cases hm
        omega
      · cases hm
        exact ih hc hle

theorem argmin_eq_argmax_neg (f : α → Int) (l : List α) :
    l.argmin f = l.argmax fun x => -f x := by
  induction l using List.reverseRecOn with
  | nil => rfl
  | append_singleton l x ih =>
    rw [List.argmin_concat, List.argmax_concat, ih]
    cases l.argmax fun x => -f x with
    | none => rfl
    | some c => simp only [Int.neg_lt_neg_iff]

theorem argmin_mem_left (hm : (l ++ l').argmin f = some m) (hb : b ∈ l) (hle : f b ≤ f m) :
    m ∈ l := by
  rw [argmin_eq_argmax_neg] at hm
  exact argmax_mem_left hm hb (Int.neg_le_neg hle)

end Ties

/-! ## Earliest and latest -/

/-- Chain order. -/
def TxWork.before (w u : TxWork) : Prop :=
  w.slotNumber < u.slotNumber ∨ w.slotNumber = u.slotNumber ∧ w.position < u.position

theorem TxWork.before_asymm {w u : TxWork} (h : w.before u) : ¬ u.before w := by
  simp only [before, UInt64.lt_iff_toNat_lt, ← UInt64.toNat_inj, Int32.lt_iff_toInt_lt] at h ⊢
  omega

structure IsEarliest (a : String) (ws : List TxWork) (w : TxWork) : Prop where
  mem : w ∈ ws
  involves : w.involves a
  le : ∀ u ∈ ws, u.involves a → u = w ∨ w.before u

structure IsLatest (a : String) (ws : List TxWork) (w : TxWork) : Prop where
  mem : w ∈ ws
  involves : w.involves a
  le : ∀ u ∈ ws, u.involves a → u = w ∨ u.before w

def FirstSeenIs (r : AddressSummaryRow) (w : TxWork) : Prop :=
  r.firstSeenSlot = some w.slotNumber.toInt64 ∧ r.firstSeenTx = some w.classified.hash ∧
    r.firstSeenTimestamp = some w.timestamp

def LastSeenIs (r : AddressSummaryRow) (w : TxWork) : Prop :=
  r.lastSeenSlot = some w.slotNumber.toInt64 ∧ r.lastSeenTx = some w.classified.hash ∧
    r.lastSeenTimestamp = some w.timestamp

/-- The triples of the address, if it has a row, are those of its earliest and latest
transaction. -/
def TriplesRight (a : String) (ws : List TxWork) (db : Db) : Prop :=
  ∀ r, Table.lookup AddressSummaryRow.address a db.addressSummaries = some r →
    (∃ w, IsLatest a ws w ∧ LastSeenIs r w) ∧ ∃ w, IsEarliest a ws w ∧ FirstSeenIs r w

/-- No transaction of the address has a slot below that of the earliest, in the order of the column,
no timestamp lies outside those of the earliest and the latest, and the latest is alone in its
slot. -/
structure Untorn (a : String) (ws : List TxWork) : Prop where
  first : ∀ w, IsEarliest a ws w → ∀ u ∈ ws, u.involves a →
    w.slotNumber.toInt64 ≤ u.slotNumber.toInt64 ∧ w.timestamp ≤ u.timestamp
  last : ∀ w, IsLatest a ws w → ∀ u ∈ ws, u.involves a →
    u.timestamp ≤ w.timestamp ∧
      (u.before w → u.slotNumber.toInt64 < w.slotNumber.toInt64)

section Chain

variable {a : String} {ws : List TxWork} {w u : TxWork} {r : AddressSummaryRow}

instance (w : TxWork) (a : String) : Decidable (w.involves a) :=
  inferInstanceAs (Decidable (_ ∨ _))

theorem exists_isEarliest (hchain : ws.Pairwise TxWork.before) (hu : u ∈ ws)
    (hinv : u.involves a) : ∃ w, IsEarliest a ws w := by
  have hmem : u ∈ ws.filter fun w => w.involves a := List.mem_filter.2 ⟨hu, by simpa using hinv⟩
  have hpair := hchain.filter fun w => decide (w.involves a)
  cases hf : ws.filter fun w => w.involves a with
  | nil =>
    rw [hf] at hmem
    cases hmem
  | cons w rest =>
    have hw : w ∈ ws.filter fun w => w.involves a := by rw [hf]; exact List.mem_cons_self
    rw [hf, List.pairwise_cons] at hpair
    refine ⟨w, (List.mem_filter.1 hw).1, by simpa using (List.mem_filter.1 hw).2, ?_⟩
    intro v hv hvinv
    have hvmem : v ∈ w :: rest := hf ▸ List.mem_filter.2 ⟨hv, by simpa using hvinv⟩
    rcases List.mem_cons.1 hvmem with rfl | hrest
    · exact .inl rfl
    · exact .inr (hpair.1 v hrest)

theorem exists_isLatest (hchain : ws.Pairwise TxWork.before) (hu : u ∈ ws)
    (hinv : u.involves a) : ∃ w, IsLatest a ws w := by
  have hmem : u ∈ ws.filter fun w => w.involves a := List.mem_filter.2 ⟨hu, by simpa using hinv⟩
  have hpair := hchain.filter fun w => decide (w.involves a)
  rcases List.eq_nil_or_concat (ws.filter fun w => w.involves a) with hf | ⟨rest, w, hf⟩
  · rw [hf] at hmem
    cases hmem
  · rw [List.concat_eq_append] at hf
    have hw : w ∈ ws.filter fun w => w.involves a := by rw [hf]; simp
    rw [hf, List.pairwise_append] at hpair
    refine ⟨w, (List.mem_filter.1 hw).1, by simpa using (List.mem_filter.1 hw).2, ?_⟩
    intro v hv hvinv
    have hvmem : v ∈ rest ++ [w] := hf ▸ List.mem_filter.2 ⟨hv, by simpa using hvinv⟩
    rcases List.mem_append.1 hvmem with hrest | hlast
    · exact .inr (hpair.2.2 v hrest w (List.mem_singleton.2 rfl))
    · exact .inl (List.mem_singleton.1 hlast)

theorem IsEarliest.unique (h : IsEarliest a ws w) (h' : IsEarliest a ws u) : u = w := by
  rcases h.le u h'.mem h'.involves with heq | hbefore
  · exact heq
  · rcases h'.le w h.mem h.involves with heq | hafter
    · exact heq.symm
    · exact absurd hafter (TxWork.before_asymm hbefore)

theorem IsLatest.unique (h : IsLatest a ws w) (h' : IsLatest a ws u) : u = w := by
  rcases h.le u h'.mem h'.involves with heq | hbefore
  · exact heq
  · rcases h'.le w h.mem h.involves with heq | hafter
    · exact heq.symm
    · exact absurd hafter (TxWork.before_asymm hbefore)

/-- In a chain, what stands in front of a transaction is before it. -/
theorem before_of_split {l₁ l₂ : List TxWork} (hchain : ws.Pairwise TxWork.before)
    (hws : ws = l₁ ++ w :: l₂) : ∀ v ∈ l₁, v.before w := by
  rw [hws, List.pairwise_append] at hchain
  exact fun v hv => hchain.2.2 v hv w List.mem_cons_self

/-- And what is before it stands in front of it. -/
theorem mem_of_before {l₁ l₂ : List TxWork} (hchain : ws.Pairwise TxWork.before)
    (hws : ws = l₁ ++ w :: l₂) (hu : u ∈ ws) (hbefore : u.before w) : u ∈ l₁ := by
  rw [hws, List.pairwise_append, List.pairwise_cons] at hchain
  rw [hws, List.mem_append, List.mem_cons] at hu
  rcases hu with hu | rfl | hu
  · exact hu
  · exact absurd hbefore (TxWork.before_asymm hbefore)
  · exact absurd hbefore (TxWork.before_asymm (hchain.2.1.1 u hu))

theorem sightingsIn_append (ws us : List TxWork) (a : String) :
    sightingsIn (ws ++ us) a = sightingsIn ws a ++ sightingsIn us a := by
  simp only [sightingsIn, List.flatMap_append]

theorem slotKey_le {w u : TxWork} :
    w.slotNumber.toInt64 ≤ u.slotNumber.toInt64 ↔ w.sighting.slotKey ≤ u.sighting.slotKey :=
  Int64.le_iff_toInt_le

theorem sighting_mem {u : TxWork} (hu : u ∈ ws) (hinv : u.involves a) :
    u.sighting ∈ sightingsIn ws a :=
  mem_sightingsIn.2 ⟨u, hu, hinv, rfl⟩

/-- If no slot is below that of the earliest transaction, its sighting is the one that is kept. -/
theorem IsEarliest.argmin_slot {s : Sighting} (hw : IsEarliest a ws w)
    (hchain : ws.Pairwise TxWork.before)
    (hslot : (sightingsIn ws a).argmin Sighting.slotKey = some s)
    (hleast : ∀ u ∈ ws, u.involves a → w.slotNumber.toInt64 ≤ u.slotNumber.toInt64) :
    s = w.sighting := by
  obtain ⟨l₁, l₂, hws⟩ := List.append_of_mem hw.mem
  have hle : w.sighting.slotKey ≤ s.slotKey := by
    obtain ⟨v, hv, hinv, rfl⟩ := mem_sightingsIn.1 (List.argmin_mem hslot)
    exact slotKey_le.1 (hleast v hv hinv)
  have hsplit : ws = (l₁ ++ [w]) ++ l₂ := by rw [hws, List.append_assoc, List.singleton_append]
  have hlast : w ∈ l₁ ++ [w] := List.mem_append_right _ (List.mem_singleton.2 rfl)
  rw [hsplit, sightingsIn_append] at hslot
  -- among the sightings up to the earliest transaction there are no others than its own
  obtain ⟨v, hv, hinv, rfl⟩ :=
    mem_sightingsIn.1 (argmin_mem_left hslot (sighting_mem hlast hw.involves) hle)
  rcases List.mem_append.1 hv with hv | hv
  · have hvws : v ∈ ws := by
      rw [hws]
      exact List.mem_append_left _ hv
    rcases hw.le v hvws hinv with rfl | hafter
    · rfl
    · exact absurd hafter (TxWork.before_asymm (before_of_split hchain hws v hv))
  · rw [List.mem_singleton.1 hv]

/-- If the sighting of a transaction is the one that is kept, no earlier one is in its slot: a tie
would have been kept instead. -/
theorem slot_lt_of_argmax (hchain : ws.Pairwise TxWork.before)
    (hdistinct : (ws.map fun w => w.classified.hash).Nodup) (hw : w ∈ ws)
    (hslot : (sightingsIn ws a).argmax Sighting.slotKey = some w.sighting) (hu : u ∈ ws)
    (hinv : u.involves a) (hbefore : u.before w) :
    u.slotNumber.toInt64 < w.slotNumber.toInt64 := by
  by_contra hnot
  obtain ⟨l₁, l₂, hws⟩ := List.append_of_mem hw
  have hle : w.sighting.slotKey ≤ u.sighting.slotKey := by
    rw [← slotKey_le]
    exact Int64.not_lt.1 hnot
  rw [hws, sightingsIn_append] at hslot
  obtain ⟨x, hx, -, hxw⟩ := mem_sightingsIn.1
    (argmax_mem_left hslot (sighting_mem (mem_of_before hchain hws hu hbefore) hinv) hle)
  have hxws : x ∈ ws := by
    rw [hws]
    exact List.mem_append_left _ hx
  obtain rfl : w = x := List.inj_on_of_nodup_map hdistinct hw hxws (congrArg Sighting.tx hxw)
  have hself := before_of_split hchain hws w hx
  exact TxWork.before_asymm hself hself

/-- The first triple, given the earliest transaction. -/
theorem Seen.firstSeenIs_iff (hseen : Seen (sightingsIn ws a) r)
    (hchain : ws.Pairwise TxWork.before) (hw : IsEarliest a ws w) :
    FirstSeenIs r w ↔ ∀ u ∈ ws, u.involves a →
      w.slotNumber.toInt64 ≤ u.slotNumber.toInt64 ∧ w.timestamp ≤ u.timestamp := by
  have hne := List.ne_nil_of_mem (sighting_mem hw.mem hw.involves)
  obtain ⟨s, -, hslot, hleast⟩ := exists_argmin (f := Sighting.slotKey) hne
  obtain ⟨t, ht, htime, hearliest⟩ := exists_argmin (f := Sighting.timestamp) hne
  unfold FirstSeenIs
  rw [hseen.firstSlot, hseen.firstTx, hseen.firstTimestamp, hslot, htime]
  simp only [Option.map_some, Option.some.injEq]
  constructor
  · intro hfirst u hu hinv
    obtain ⟨hs', -, ht'⟩ := hfirst
    constructor
    · rw [← hs', Int64.le_iff_toInt_le]
      exact hleast _ (sighting_mem hu hinv)
    · rw [← ht']
      exact hearliest _ (sighting_mem hu hinv)
  · intro hall
    have hown := hw.argmin_slot hchain hslot fun u hu hinv => (hall u hu hinv).1
    obtain ⟨v, hv, hinv, rfl⟩ := mem_sightingsIn.1 ht
    refine ⟨by rw [hown]; rfl, by rw [hown]; rfl, ?_⟩
    exact Int.le_antisymm (hearliest _ (sighting_mem hw.mem hw.involves)) (hall v hv hinv).2

/-- The last triple, given the latest transaction. -/
theorem Seen.lastSeenIs_iff (hseen : Seen (sightingsIn ws a) r)
    (hchain : ws.Pairwise TxWork.before)
    (hdistinct : (ws.map fun w => w.classified.hash).Nodup) (hw : IsLatest a ws w) :
    LastSeenIs r w ↔ ∀ u ∈ ws, u.involves a → u.timestamp ≤ w.timestamp ∧
      (u.before w → u.slotNumber.toInt64 < w.slotNumber.toInt64) := by
  have hne := List.ne_nil_of_mem (sighting_mem hw.mem hw.involves)
  obtain ⟨s, hs, hslot, hgreatest⟩ := exists_argmax (f := Sighting.slotKey) hne
  obtain ⟨t, ht, htime, hlatest⟩ := exists_argmax (f := Sighting.timestamp) hne
  unfold LastSeenIs
  rw [hseen.lastSlot, hseen.lastTx, hseen.lastTimestamp, hslot, htime]
  simp only [Option.map_some, Option.some.injEq]
  constructor
  · intro hlast u hu hinv
    obtain ⟨-, htx, ht'⟩ := hlast
    obtain ⟨v, hv, -, rfl⟩ := mem_sightingsIn.1 hs
    obtain rfl : v = w := List.inj_on_of_nodup_map hdistinct hv hw.mem htx
    constructor
    · rw [← ht']
      exact hlatest _ (sighting_mem hu hinv)
    · exact slot_lt_of_argmax hchain hdistinct hv hslot hu hinv
  · intro hall
    have hown : s = w.sighting := by
      obtain ⟨v, hv, hinv, rfl⟩ := mem_sightingsIn.1 hs
      rcases hw.le v hv hinv with rfl | hbefore
      · rfl
      · have hlt := (hall v hv hinv).2 hbefore
        have hle := slotKey_le.2 (hgreatest _ (sighting_mem hw.mem hw.involves))
        exact absurd hlt (Int64.not_lt.2 hle)
    obtain ⟨v, hv, hinv, rfl⟩ := mem_sightingsIn.1 ht
    refine ⟨by rw [hown]; rfl, by rw [hown]; rfl, ?_⟩
    exact Int.le_antisymm (hall v hv hinv).1 (hlatest _ (sighting_mem hw.mem hw.involves))

end Chain

/-- **Seen-at triples.** Over transactions ingested once each in chain order the two triples of an
address are right exactly if they are not torn. -/
theorem triples_right_iff {env : Env} {vs : List (Visit env)} {db₀ db : Db}
    (hnew : db₀.addressSummaries = [])
    (hchain : (vs.map Visit.work).Pairwise TxWork.before)
    (hdistinct : (vs.map fun v => v.work.classified.hash).Nodup)
    (hrun : exec (visit env) db₀ vs = some db) (a : String) :
    TriplesRight a (vs.map Visit.work) db ↔ Untorn a (vs.map Visit.work) := by
  have hsum := summarised_history hnew hrun
  have hdistinct' : ((vs.map Visit.work).map fun w => w.classified.hash).Nodup := by
    rw [List.map_map]
    exact hdistinct
  constructor
  · intro hright
    have hrow : ∀ w ∈ vs.map Visit.work, w.involves a →
        ∃ r, Table.lookup AddressSummaryRow.address a db.addressSummaries = some r := by
      intro w hw hinv
      cases hl : Table.lookup AddressSummaryRow.address a db.addressSummaries with
      | none =>
        have hmem := mem_sightingsIn.2 ⟨w, hw, hinv, rfl⟩
        rw [hsum.absent a hl] at hmem
        cases hmem
      | some r => exact ⟨r, rfl⟩
    constructor
    · intro w hw
      obtain ⟨r, hr⟩ := hrow w hw.mem hw.involves
      obtain ⟨-, w', hw', hfirst⟩ := hright r hr
      rw [hw.unique hw'] at hfirst
      exact ((hsum.present a r hr).2.firstSeenIs_iff hchain hw).1 hfirst
    · intro w hw
      obtain ⟨r, hr⟩ := hrow w hw.mem hw.involves
      obtain ⟨⟨w', hw', hlast⟩, -⟩ := hright r hr
      rw [hw.unique hw'] at hlast
      exact ((hsum.present a r hr).2.lastSeenIs_iff hchain hdistinct' hw).1 hlast
  · intro huntorn r hr
    obtain ⟨hne, hseen⟩ := hsum.present a r hr
    obtain ⟨s, hs⟩ := List.exists_mem_of_ne_nil _ hne
    obtain ⟨u, hu, hinv, -⟩ := mem_sightingsIn.1 hs
    obtain ⟨w, hw⟩ := exists_isLatest hchain hu hinv
    obtain ⟨w', hw'⟩ := exists_isEarliest hchain hu hinv
    exact ⟨⟨w, hw, (hseen.lastSeenIs_iff hchain hdistinct' hw).2 (huntorn.last w hw)⟩,
      w', hw', (hseen.firstSeenIs_iff hchain hw').2 (huntorn.first w' hw')⟩

/-! ## Two transactions of one account -/

/-- `lig1o` registers an attestor set in slot 7. -/
def firstRegistration : Visit marketEnv := marketVisit silentNode "0xaa" 1 [attestorSetEvent]

/-- And again in the same slot. -/
def sameSlotRegistration : Visit marketEnv := marketVisit silentNode "0xbb" 2 [attestorSetEvent]

/-- Or in slot 8, later. -/
def nextSlotRegistration : Visit marketEnv :=
  { sameSlotRegistration with
    work := { sameSlotRegistration.work with slotNumber := 8, timestamp := 6000 } }

/-- `boardDb` with slot 8. -/
def twoSlotDb : Db :=
  { boardDb with
    slots := boardDb.slots ++ [⟨8, "0x08", none, none, 6000, 1, 1, none, none, none, none⟩] }

theorem next_slot_triples_right :
    ∃ db, exec (visit marketEnv) twoSlotDb [firstRegistration, nextSlotRegistration] = some db ∧
      TriplesRight "lig1o" [firstRegistration.work, nextSlotRegistration.work] db := by
  obtain ⟨db, hrun⟩ : ∃ db, exec (visit marketEnv) twoSlotDb
      [firstRegistration, nextSlotRegistration] = some db := ⟨_, rfl⟩
  have hbefore : firstRegistration.work.before nextSlotRegistration.work := .inl (by decide)
  have hpair : ([firstRegistration, nextSlotRegistration].map Visit.work).Pairwise
      TxWork.before := by
    simpa using hbefore
  refine ⟨db, hrun, (triples_right_iff rfl hpair (by decide) hrun "lig1o").2 ⟨?_, ?_⟩⟩
  · intro w hw u hu _
    have hfirst : w = firstRegistration.work := by
      rcases hw.le _ List.mem_cons_self (.inl rfl) with heq | hlt
      · exact heq.symm
      · have hmem := hw.mem
        simp only [List.map_cons, List.map_nil, List.mem_cons, List.not_mem_nil, or_false] at hmem
        rcases hmem with rfl | rfl
        · rfl
        · exact absurd hlt (TxWork.before_asymm hbefore)
    simp only [List.map_cons, List.map_nil, List.mem_cons, List.not_mem_nil, or_false] at hu
    rcases hu with rfl | rfl <;> rw [hfirst] <;> decide
  · intro w hw u hu _
    have hlast : w = nextSlotRegistration.work := by
      have hmem := hw.mem
      simp only [List.map_cons, List.map_nil, List.mem_cons, List.not_mem_nil, or_false] at hmem
      rcases hmem with rfl | rfl
      · rcases hw.le _ (List.mem_cons_of_mem _ List.mem_cons_self) (.inl rfl) with heq | hlt
        · exact heq.symm
        · exact absurd hlt (TxWork.before_asymm hbefore)
      · rfl
    simp only [List.map_cons, List.map_nil, List.mem_cons, List.not_mem_nil, or_false] at hu
    rcases hu with rfl | rfl
    · rw [hlast]
      exact ⟨by decide, fun _ => by decide⟩
    · rw [hlast]
      exact ⟨by decide, fun hself => absurd hself (TxWork.before_asymm hself)⟩

/-- The last triple keeps the first of two transactions of a slot. -/
theorem same_slot_triples_torn :
    ∃ db, exec (visit marketEnv) boardDb [firstRegistration, sameSlotRegistration] = some db ∧
      [firstRegistration.work, sameSlotRegistration.work].Pairwise TxWork.before ∧
      ¬ TriplesRight "lig1o" [firstRegistration.work, sameSlotRegistration.work] db := by
  have hbefore : firstRegistration.work.before sameSlotRegistration.work :=
    .inr ⟨rfl, by decide⟩
  refine ⟨_, rfl, by simpa using hbefore, ?_⟩
  intro hright
  obtain ⟨⟨w, hw, -, htx, -⟩, -⟩ := hright _ rfl
  have hmem := hw.mem
  simp only [List.mem_cons, List.not_mem_nil, or_false] at hmem
  rcases hmem with rfl | rfl
  · rcases hw.le _ (List.mem_cons_of_mem _ List.mem_cons_self) (.inl rfl) with heq | hlt
    · exact absurd (congrArg TxWork.position heq) (by decide)
    · exact TxWork.before_asymm hbefore hlt
  · exact absurd htx (by decide)

end LigateApi.Indexer
