import LigateApi.Drip.Verify.Window

/-!
# One drip per recipient

The limiter is keyed by the address as it is spelled in the request, and `Signer::drip` parses it
later: spellings that parse to the same recipient have windows of their own. In a sequential history
the drips of a recipient are a window apart as long as no `check` lets a spelling through while
another spelling of the same recipient has been recorded within the window (`FreshSpelling`).
-/

namespace LigateApi.Drip

open Lib Lib.Run

variable {Key Addr : Type} {sdk : Sdk Key Addr} {dripAmount : Nat}
  {s s' t : WebState} {r r' : WebRequest}

/-! ## The property -/

/-- Both spellings parse, to the same address. -/
def SameRecipient (sdk : Sdk Key Addr) (a b : String) : Prop :=
  match sdk.parseAddress a, sdk.parseAddress b with
  | .ok x, .ok y => x = y
  | _, _ => False

instance [DecidableEq Addr] (sdk : Sdk Key Addr) (a b : String) :
    Decidable (SameRecipient sdk a b) :=
  match h : sdk.parseAddress a, h' : sdk.parseAddress b with
  | .ok x, .ok y => decidable_of_iff (x = y) (by simp [SameRecipient, h, h'])
  | .ok _, .error _ => .isFalse (by simp [SameRecipient, h, h'])
  | .error _, .ok _ => .isFalse (by simp [SameRecipient, h])
  | .error _, .error _ => .isFalse (by simp [SameRecipient, h])

/-- Any two accepted drips to one recipient were submitted at least a window apart. -/
def WebState.SpacedByRecipient (sdk : Sdk Key Addr) (s : WebState) : Prop :=
  ∀ (i j : Nat) (r r' : WebRequest), i ≠ j →
    s.requests[i]? = some r → s.requests[j]? = some r' → SameRecipient sdk r.address r'.address →
    r.phase.dripOk = true → r'.phase.dripOk = true → ∀ t ∈ r.phase.submission,
      ∀ t' ∈ r'.phase.submission, t + s.limiter.window ≤ t' ∨ t' + s.limiter.window ≤ t

/-- A request is taken up only when no other is under way. -/
def Sequential (s : WebState) : WebEvent → Prop
  | .act _ .check => ∀ r ∈ s.requests, r.phase.inFlight = false
  | _ => True

/-- A `check` that passes finds the other spellings of its recipient unrecorded for a window. -/
def FreshSpelling (sdk : Sdk Key Addr) (s : WebState) : WebEvent → Prop
  | .act i .check =>
    ∀ r ∈ s.requests[i]?, s.limiter.check r.address s.now = .allowed →
      ∀ e ∈ s.limiter.lastDrip, e.1 ≠ r.address → SameRecipient sdk r.address e.1 →
        e.2 + s.limiter.window ≤ s.now
  | _ => True

instance (s : WebState) : ∀ e, Decidable (Sequential s e)
  | .act _ .check =>
    inferInstanceAs (Decidable (∀ r ∈ s.requests, r.phase.inFlight = false))
  | .act _ (.submit _) => .isTrue trivial
  | .act _ (.dripErr _) => .isTrue trivial
  | .act _ .dripOk => .isTrue trivial
  | .act _ .record => .isTrue trivial
  | .tick _ => .isTrue trivial
  | .receive _ => .isTrue trivial

instance [DecidableEq Addr] (sdk : Sdk Key Addr) (s : WebState) :
    ∀ e, Decidable (FreshSpelling sdk s e)
  | .act i .check => inferInstanceAs (Decidable (∀ r ∈ s.requests[i]?,
      s.limiter.check r.address s.now = .allowed → ∀ e ∈ s.limiter.lastDrip, e.1 ≠ r.address →
        SameRecipient sdk r.address e.1 → e.2 + s.limiter.window ≤ s.now))
  | .act _ (.submit _) => .isTrue trivial
  | .act _ (.dripErr _) => .isTrue trivial
  | .act _ .dripOk => .isTrue trivial
  | .act _ .record => .isTrue trivial
  | .tick _ => .isTrue trivial
  | .receive _ => .isTrue trivial

theorem SameRecipient.symm {a b : String} (h : SameRecipient sdk a b) : SameRecipient sdk b a := by
  unfold SameRecipient at h ⊢
  cases ha : sdk.parseAddress a <;> cases hb : sdk.parseAddress b <;>
    simp only [ha, hb] at h ⊢
  exact h.symm

theorem noOverlap_of_sequential {e : WebEvent} (h : Sequential s e) : NoOverlap s e := by
  unfold NoOverlap
  split
  · exact fun _ _ r' hr' _ => h r' hr'
  · trivial

theorem RateLimiter.mem_of_last {l : RateLimiter} {a : String} {n : Nat} (h : l.last a = some n) :
    (a, n) ∈ l.lastDrip := by
  obtain ⟨e, he, rfl⟩ := Option.map_eq_some_iff.1 h
  have hkey := Table.lookup_key he
  rw [← hkey]
  exact Table.lookup_mem he

/-! ## The invariant -/

/-- Every record under a spelling of the recipient is a window older than the request's drip. -/
def ClearFor (sdk : Sdk Key Addr) (l : RateLimiter) (now : Nat) (r : WebRequest) : Prop :=
  ∀ b, SameRecipient sdk r.address b → ∀ last ∈ l.last b, last + l.window ≤ r.phase.since now

/-- Not both are under way, and their drips to one recipient are a window apart. -/
structure OneByOne (sdk : Sdk Key Addr) (window : Nat) (r r' : WebRequest) : Prop where
  alone : ¬ (r.phase.inFlight = true ∧ r'.phase.inFlight = true)
  spaced : SameRecipient sdk r.address r'.address → ∀ t ∈ r.phase.submission,
    ∀ t' ∈ r'.phase.submission, t + window ≤ t' ∨ t' + window ≤ t

structure RecipientInv (sdk : Sdk Key Addr) (s : WebState) : Prop extends WebInv s where
  clearFor : ∀ (i : Nat) (r : WebRequest), s.requests[i]? = some r → r.phase.inFlight = true →
    ClearFor sdk s.limiter s.now r
  oneByOne : Pairs (OneByOne sdk s.limiter.window) s.requests

theorem OneByOne.symm {w : Nat} (h : OneByOne sdk w r r') : OneByOne sdk w r' r where
  alone hb := h.alone hb.symm
  spaced e t ht t' ht' := (h.spaced e.symm t' ht' t ht).symm

theorem recipientInv_start (window now : Nat) : RecipientInv sdk (WebState.start window now) where
  toWebInv := webInv_start window now
  clearFor i r h := by simp [WebState.start] at h
  oneByOne i j r r' _ h := by simp [WebState.start] at h

theorem oneByOne_of_idle {w : Nat} (hs : r.phase.submission = none) (hf : r.phase.inFlight = false) :
    OneByOne sdk w r r' where
  alone h := by simp [hf] at h
  spaced _ t ht := by simp [hs] at ht

theorem ClearFor.mono {l : RateLimiter} {now now' : Nat} (h : ClearFor sdk l now r)
    (hle : now ≤ now') : ClearFor sdk l now' r := by
  intro b hb last hlast
  apply (h b hb last hlast).trans
  unfold WebPhase.since
  cases r.phase.submission <;> simp [hle]

/-! ## One step -/

/-- Replacing one request and the limiter. -/
theorem RecipientInv.replace (h : RecipientInv sdk s) {i : Nat} {l : RateLimiter}
    (hweb : WebInv { s with limiter := l, requests := s.requests.set i r' })
    (hw : l.window = s.limiter.window)
    (hown : r'.phase.inFlight = true → ClearFor sdk l s.now r')
    (hothers : ∀ (j : Nat) (x : WebRequest), j ≠ i → s.requests[j]? = some x →
      (x.phase.inFlight = true → ClearFor sdk l s.now x) ∧ OneByOne sdk s.limiter.window r' x) :
    RecipientInv sdk { s with limiter := l, requests := s.requests.set i r' } where
  toWebInv := hweb
  clearFor j x hx hf := by
    rcases getElem?_set_cases hx with ⟨rfl, rfl⟩ | ⟨hj, hx⟩
    · exact hown hf
    · exact (hothers j x hj hx).1 hf
  oneByOne := by
    simp only [hw]
    exact Pairs.set (fun _ _ => OneByOne.symm) h.oneByOne fun j x hj hx => (hothers j x hj hx).2

/-- What a passing `check` knows of the limiter. -/
theorem clearFor_of_check {i : Nat} (h : WebInv s) (hfresh : FreshSpelling sdk s (.act i .check))
    (hi : s.requests[i]? = some r) (hc : s.limiter.check r.address s.now = .allowed) :
    ClearFor sdk s.limiter s.now { r with phase := .signing } := by
  intro b hb last hlast
  by_cases hrb : b = r.address
  · subst hrb
    exact (RateLimiter.check_allowed_iff (h.stamped r.address)).1 hc last hlast
  · exact hfresh r hi hc (b, last) (RateLimiter.mem_of_last hlast) hrb hb

section Actions

variable {i : Nat}

/-- Next to a request under way no other is. -/
theorem RecipientInv.others_idle_all (h : RecipientInv sdk s) (hi : s.requests[i]? = some r)
    (hfl : r.phase.inFlight = true) {j : Nat} {x : WebRequest} (hj : j ≠ i)
    (hx : s.requests[j]? = some x) : x.phase.inFlight = false := by
  by_contra hf
  rw [Bool.not_eq_false] at hf
  exact (h.oneByOne i j r x hj.symm hi hx).alone ⟨hfl, hf⟩

/-- `check` passes: nobody is under way, and every spelling is clear. -/
theorem RecipientInv.check (h : RecipientInv sdk s) (hi : s.requests[i]? = some r)
    (hseq : Sequential s (.act i .check)) (hfresh : FreshSpelling sdk s (.act i .check))
    (hc : s.limiter.check r.address s.now = .allowed) :
    RecipientInv sdk { s with requests := s.requests.set i { r with phase := .signing } } := by
  have hweb := h.toWebInv.check hi (noOverlap_of_sequential hseq) hc
  have hclear := clearFor_of_check h.toWebInv hfresh hi hc
  refine h.replace hweb rfl (fun _ => hclear) fun j x _ hx => ⟨h.clearFor j x hx, ?_, ?_⟩
  · rintro ⟨-, hf⟩
    rw [hseq x (List.mem_of_getElem? hx)] at hf
    cases hf
  · intro _ t ht
    cases ht

/-- Submission: the other drips of the recipient are recorded, under one spelling or another. -/
theorem RecipientInv.submit (h : RecipientInv sdk s) (hi : s.requests[i]? = some r)
    (hp : r.phase = .signing) (txHash : String) :
    RecipientInv sdk
      { s with requests := s.requests.set i { r with phase := .submitted s.now txHash } } := by
  have hfl : r.phase.inFlight = true := by rw [hp]; rfl
  have hclear : ClearFor sdk s.limiter s.now { r with phase := .submitted s.now txHash } := by
    intro b hb last hlast
    have := h.clearFor i r hi hfl b hb last hlast
    rw [hp] at this
    exact this
  refine h.replace (h.toWebInv.submit hi hp txHash) rfl (fun _ => hclear) fun j x hj hx =>
    ⟨h.clearFor j x hx, ?_, ?_⟩
  · rintro ⟨-, hf⟩
    rw [h.others_idle_all hi hfl hj hx] at hf
    cases hf
  · intro hsame t ht t' ht'
    cases ht
    obtain ⟨last, hlast, hle⟩ :=
      (h.settled j x hx).recorded (h.others_idle_all hi hfl hj hx) t' ht'
    have hlate : last + s.limiter.window ≤ s.now := hclear x.address hsame last hlast
    exact .inr (by omega)

/-- `Signer::drip` returns: the same submission, still under way. -/
theorem RecipientInv.dripOk (h : RecipientInv sdk s) (hi : s.requests[i]? = some r) {time : Nat}
    {txHash : String} (hp : r.phase = .submitted time txHash) (receipt : DripReceipt) :
    RecipientInv sdk
      { s with requests := s.requests.set i { r with phase := .dripped time receipt } } := by
  have hsub : r.phase.submission = some time := by rw [hp]; rfl
  have hfl : r.phase.inFlight = true := by rw [hp]; rfl
  have hclear : ClearFor sdk s.limiter s.now { r with phase := .dripped time receipt } := by
    intro b hb last hlast
    have := h.clearFor i r hi hfl b hb last hlast
    rw [hp] at this
    exact this
  refine h.replace (h.toWebInv.dripOk hi hp receipt) rfl (fun _ => hclear) fun j x hj hx =>
    ⟨h.clearFor j x hx, ?_, ?_⟩
  · rintro ⟨-, hf⟩
    rw [h.others_idle_all hi hfl hj hx] at hf
    cases hf
  · intro hsame t ht
    exact (h.oneByOne i j r x hj.symm hi hx).spaced hsame t (hsub ▸ ht)

/-- `record`: nobody else is under way that the new entry could trouble. -/
theorem RecipientInv.record (h : RecipientInv sdk s) (hi : s.requests[i]? = some r) {time : Nat}
    {receipt : DripReceipt} (hp : r.phase = .dripped time receipt) (response : DripResponse) :
    RecipientInv sdk { s with
      limiter := s.limiter.record r.address s.now
      requests := s.requests.set i { r with phase := .recorded time response } } := by
  have hsub : r.phase.submission = some time := by rw [hp]; rfl
  have hfl : r.phase.inFlight = true := by rw [hp]; rfl
  refine h.replace (h.toWebInv.record hi hp response) rfl (fun hf => ?_) fun j x hj hx =>
    ⟨fun hf => ?_, ?_, ?_⟩
  · cases hf
  · rw [h.others_idle_all hi hfl hj hx] at hf
    cases hf
  · rintro ⟨hb, -⟩
    cases hb
  · intro hsame t ht
    exact (h.oneByOne i j r x hj.symm hi hx).spaced hsame t (hsub ▸ ht)

end Actions

/-- **Step lemma.** -/
theorem recipientInv_step {e : WebEvent} (h : RecipientInv sdk s) (hseq : Sequential s e)
    (hfresh : FreshSpelling sdk s e) (he : webStep dripAmount s e = some s') :
    RecipientInv sdk s' := by
  have hweb : WebInv s' := webInv_step h.toWebInv (noOverlap_of_sequential hseq) he
  cases e with
  | tick elapsed =>
    cases he
    exact ⟨hweb, fun i r hi hf => (h.clearFor i r hi hf).mono (Nat.le_add_right ..), h.oneByOne⟩
  | receive address =>
    cases he
    refine ⟨hweb, fun i r hi hf => ?_, ?_⟩
    · rcases getElem?_snoc_cases hi with hi | ⟨-, rfl⟩
      · exact h.clearFor i r hi hf
      · cases hf
    · exact Pairs.snoc (fun _ _ => OneByOne.symm) h.oneByOne fun _ => oneByOne_of_idle rfl rfl
  | act i a =>
    simp only [webStep, Option.bind_eq_some_iff, Option.map_eq_some_iff, Prod.exists] at he
    obtain ⟨r, hi, l, p, hadv, rfl⟩ := he
    rcases WebRequest.advance_cases hadv with ⟨rfl, hsub, hfl⟩ | ⟨rfl, hp, hc, rfl, rfl⟩ |
      ⟨txHash, hp, rfl, rfl⟩ | ⟨time, txHash, receipt, hp, rfl, rfl⟩ |
      ⟨time, receipt, response, -, hp, rfl, rfl⟩
    · refine h.replace hweb rfl (fun hf => ?_) fun j x _ hx =>
        ⟨h.clearFor j x hx, oneByOne_of_idle hsub hfl⟩
      exact absurd hf (by simp [hfl])
    · exact h.check hi hseq hfresh hc
    · exact h.submit hi hp txHash
    · exact h.dripOk hi hp receipt
    · exact h.record hi hp response

/-! ## Whole histories -/

/-- **One drip per recipient.** Along a sequential history whose checks meet `FreshSpelling`, the
accepted drips of every recipient are a window apart, however it is spelled. -/
theorem spaced_by_recipient_of_freshSpelling (window now : Nat) {es : List WebEvent}
    (hseq : Along (webStep dripAmount) Sequential (WebState.start window now) es)
    (hfresh : Along (webStep dripAmount) (FreshSpelling sdk) (WebState.start window now) es)
    (hrun : exec (webStep dripAmount) (WebState.start window now) es = some t) :
    t.SpacedByRecipient sdk := by
  have hinv : RecipientInv sdk t :=
    exec_invariant_along (fun _ _ _ h hc he => recipientInv_step h hc.1 hc.2 he)
      (recipientInv_start window now) (hseq.and hfresh) hrun
  exact fun i j r r' hij hi hj hsame _ _ => (hinv.oneByOne i j r r' hij hi hj).spaced hsame

/-! ## Two spellings -/

def lowerSpelling : String := "lig1qyqszqgpqyqszqgpqyqszqgpqyqszqgpqyqszqgpqyqszqdqcxa"

def upperSpelling : String := "LIG1QYQSZQGPQYQSZQGPQYQSZQGPQYQSZQGPQYQSZQGPQYQSZQDQCXA"

/-- Bech32m may be spelled in either letter case. -/
def spellingSdk : Sdk Unit (List UInt8) where
  hexDecode _ := .error "odd length"
  keyFromBytes _ := .ok ()
  parseAddress s :=
    if s = lowerSpelling ∨ s = upperSpelling then .ok (List.replicate 28 1)
    else .error "invalid bech32m"

/-- A drip to each of the two spellings, with `wait` between them. -/
def twoSpellings (wait : Nat) : List WebEvent :=
  [.receive lowerSpelling, .act 0 .check, .act 0 (.submit "ltx1x"), .act 0 .dripOk, .act 0 .record,
    .tick wait, .receive upperSpelling, .act 1 .check, .act 1 (.submit "ltx1y"), .act 1 .dripOk,
    .act 1 .record]

theorem twoSpellings_an_hour_apart :
    ∃ t, exec (webStep 5) (WebState.start 3600000000000 0) (twoSpellings 3600000000000) = some t ∧
      t.SpacedByRecipient spellingSdk := by
  have hseq : Along (webStep 5) Sequential (WebState.start 3600000000000 0)
      (twoSpellings 3600000000000) := by decide
  have hfresh : Along (webStep 5) (FreshSpelling spellingSdk) (WebState.start 3600000000000 0)
      (twoSpellings 3600000000000) := by decide
  obtain ⟨t, hrun⟩ : ∃ t, exec (webStep 5) (WebState.start 3600000000000 0)
      (twoSpellings 3600000000000) = some t := ⟨_, rfl⟩
  exact ⟨t, hrun, spaced_by_recipient_of_freshSpelling 3600000000000 0 hseq hfresh hrun⟩

/-- In the same second the other spelling gets a second drip. -/
theorem respelled_drips_twice :
    Along (webStep 5) Sequential (WebState.start 3600000000000 0) (twoSpellings 0) ∧
      ∃ t, exec (webStep 5) (WebState.start 3600000000000 0) (twoSpellings 0) = some t ∧
        ¬ t.SpacedByRecipient spellingSdk := by
  refine ⟨by decide, _, rfl, fun h => ?_⟩
  have hsame : SameRecipient spellingSdk lowerSpelling upperSpelling := by decide
  have := h 0 1 _ _ (by decide) rfl rfl hsame rfl rfl 0 rfl 0 rfl
  exact absurd this (by decide)

end LigateApi.Drip
