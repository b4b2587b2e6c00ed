import LigateApi.Api.Startup

/-!
# The start-up check and the logged URL

The check compares the number of drips the balance covers after narrowing it to 64 bits, and divides
by an amount the configuration does not keep from being zero. The logged URL drops the text in front
of the first `@`, where the credentials end at the last one. For both, the exact inputs on which
the code does what it is for.
-/

namespace LigateApi.Api

open Stats Lib.Str

/-! ## The budget -/

/-- The check does not panic, and passes if and only if the balance pays for the minimum. -/
def BudgetCheckExact (cfg : Config) (query : Nat → Except String Nat) (balance : Nat) : Prop :=
  (∀ message, startupBudgetCheck cfg query ≠ .panicked message) ∧
  (startupBudgetCheck cfg query = .ok () ↔ cfg.dripMinBudget.toNat * cfg.dripAmount ≤ balance)

section Budget

variable {cfg : Config} {balance : Nat}

theorem checkDripBudget_zero (hmin : 0 < cfg.dripMinBudget) (hzero : cfg.dripAmount = 0) :
    checkDripBudget cfg (.ok balance) = .panicked "attempt to divide by zero" := by
  unfold checkDripBudget
  rw [if_pos hmin]
  exact if_pos hzero

theorem checkDripBudget_no_panic (hamount : cfg.dripAmount ≠ 0) (message : String) :
    checkDripBudget cfg (.ok balance) ≠ .panicked message := by
  unfold checkDripBudget
  by_cases hmin : 0 < cfg.dripMinBudget
  · rw [if_pos hmin]
    dsimp only
    rw [if_neg hamount]
    split
    · simp
    · simp
  · rw [if_neg hmin]
    simp

/-- What is compared is the number of drips modulo 2^64. -/
theorem checkDripBudget_eq_ok (hmin : 0 < cfg.dripMinBudget) (hamount : cfg.dripAmount ≠ 0) :
    checkDripBudget cfg (.ok balance) = .ok () ↔
      cfg.dripMinBudget.toNat ≤ balance / cfg.dripAmount % 2 ^ 64 := by
  unfold checkDripBudget
  rw [if_pos hmin]
  dsimp only
  rw [if_neg hamount, ← UInt64.toNat_ofNat', ← Nat.not_lt, ← UInt64.lt_iff_toNat_lt]
  constructor
  · intro h hlt
    rw [if_pos hlt] at h
    cases h
  · intro h
    exact if_neg h

theorem covers_iff (hamount : cfg.dripAmount ≠ 0) :
    cfg.dripMinBudget.toNat * cfg.dripAmount ≤ balance ↔
      cfg.dripMinBudget.toNat ≤ balance / cfg.dripAmount :=
  (Nat.le_div_iff_mul_le (Nat.pos_of_ne_zero hamount)).symm

variable {query : Nat → Except String Nat}

theorem not_budgetCheckExact_of_zero (hmin : 0 < cfg.dripMinBudget)
    (hread : queryBalanceWithRetry query 5 = .ok balance) (hzero : cfg.dripAmount = 0) :
    ¬ BudgetCheckExact cfg query balance := by
  intro hexact
  apply hexact.1 "attempt to divide by zero"
  rw [startupBudgetCheck, hread]
  exact checkDripBudget_zero hmin hzero

theorem budgetCheckExact_iff_of_ne_zero (hmin : 0 < cfg.dripMinBudget)
    (hread : queryBalanceWithRetry query 5 = .ok balance) (hamount : cfg.dripAmount ≠ 0) :
    BudgetCheckExact cfg query balance ↔
      (balance / cfg.dripAmount < 2 ^ 64 ∨
        cfg.dripMinBudget.toNat ≤ balance / cfg.dripAmount % 2 ^ 64) := by
  have hwidth : cfg.dripMinBudget.toNat < 2 ^ 64 := cfg.dripMinBudget.toNat_lt
  unfold BudgetCheckExact startupBudgetCheck
  rw [hread, checkDripBudget_eq_ok hmin hamount, covers_iff hamount]
  generalize balance / cfg.dripAmount = drips
  constructor
  · intro h
    -- beyond 64 bits the balance covers any minimum
    by_cases hdrips : drips < 2 ^ 64
    · exact .inl hdrips
    · exact .inr (h.2.2 (by omega))
  · intro h
    refine ⟨fun message => checkDripBudget_no_panic hamount message, ?_⟩
    rcases h with hdrips | hwrapped
    · rw [Nat.mod_eq_of_lt hdrips]
    · have := Nat.mod_le drips (2 ^ 64)
      exact iff_of_true hwrapped (by omega)

end Budget

/-- The check is exact if and only if the amount is not zero and the drips the balance covers either
fit in 64 bits or still reach the minimum in their low 64 bits. -/
theorem startup_budget_check_exact_iff {cfg : Config} {query : Nat → Except String Nat}
    {balance : Nat} (hmin : 0 < cfg.dripMinBudget)
    (hread : queryBalanceWithRetry query 5 = .ok balance) :
    BudgetCheckExact cfg query balance ↔
      cfg.dripAmount ≠ 0 ∧ (balance / cfg.dripAmount < 2 ^ 64 ∨
        cfg.dripMinBudget.toNat ≤ balance / cfg.dripAmount % 2 ^ 64) := by
  by_cases hamount : cfg.dripAmount = 0
  · refine iff_of_false (not_budgetCheckExact_of_zero hmin hread hamount) ?_
    intro h
    exact h.1 hamount
  · rw [budgetCheckExact_iff_of_ne_zero hmin hread hamount, and_iff_right hamount]

/-- The defaults, with a balance of ten thousand AVOW that is read at the second attempt. -/
theorem startup_budget_check_exact_defaults :
    ∃ cfg, Config.fromEnv decodeZeros (localEnv []) = .ok cfg ∧
      BudgetCheckExact cfg (fun n => if n = 0 then .error "timeout" else .ok 10000000000000)
        10000000000000 := by
  obtain ⟨cfg, hcfg, hmin, hamount⟩ : ∃ cfg, Config.fromEnv decodeZeros (localEnv []) = .ok cfg ∧
      0 < cfg.dripMinBudget ∧ cfg.dripAmount = 100000000000 := ⟨_, rfl, by decide, rfl⟩
  refine ⟨cfg, hcfg, (startup_budget_check_exact_iff hmin rfl).2 ?_⟩
  rw [hamount]
  exact ⟨by decide, .inl (by decide)⟩

/-- `DRIP_AMOUNT=0` is accepted and makes the check panic; with `DRIP_AMOUNT=1` a balance of 2^64 is
refused. -/
theorem startup_budget_check_fails_zero_and_wrapped :
    (∃ cfg, Config.fromEnv decodeZeros (localEnv [("DRIP_AMOUNT", "0")]) = .ok cfg ∧
      0 < cfg.dripMinBudget ∧ ¬ BudgetCheckExact cfg (fun _ => .ok 5) 5) ∧
    (∃ cfg, Config.fromEnv decodeZeros (localEnv [("DRIP_AMOUNT", "1")]) = .ok cfg ∧
      0 < cfg.dripMinBudget ∧
      ¬ BudgetCheckExact cfg (fun _ => .ok (2 ^ 64)) (2 ^ 64)) := by
  constructor
  · obtain ⟨cfg, hcfg, hmin, hamount⟩ : ∃ cfg,
        Config.fromEnv decodeZeros (localEnv [("DRIP_AMOUNT", "0")]) = .ok cfg ∧
        0 < cfg.dripMinBudget ∧ cfg.dripAmount = 0 := ⟨_, rfl, by decide, rfl⟩
    exact ⟨cfg, hcfg, hmin, not_budgetCheckExact_of_zero hmin rfl hamount⟩
  · obtain ⟨cfg, hcfg, hmin, hamount, hbudget⟩ : ∃ cfg,
        Config.fromEnv decodeZeros (localEnv [("DRIP_AMOUNT", "1")]) = .ok cfg ∧
        0 < cfg.dripMinBudget ∧ cfg.dripAmount = 1 ∧ cfg.dripMinBudget = 100 :=
      ⟨_, rfl, by decide, rfl, rfl⟩
    refine ⟨cfg, hcfg, hmin, ?_⟩
    rw [budgetCheckExact_iff_of_ne_zero hmin rfl (by omega), hamount, hbudget]
    decide

/-! ## The logged URL -/

/-- The text from its first `@` on; nothing if it has none. -/
def fromAt (s : List Char) : List Char := s.dropWhile (· ≠ '@')

theorem fromAt_append {s t : List Char} (h : '@' ∉ s) : fromAt (s ++ t) = fromAt t := by
  rw [fromAt, List.dropWhile_append_of_pos, fromAt]
  intro c hc
  simpa using fun heq : c = '@' => h (heq ▸ hc)

theorem fromAt_cons (s : List Char) : fromAt ('@' :: s) = '@' :: s := by
  simp [fromAt]

/-- The slice behind the first `@`, at any URL with one and with a scheme. -/
theorem redactPgUrl_eq {url : String} {a b front back : List Char}
    (hurl : url.toList = a ++ '@' :: b) (ha : '@' ∉ a) (hfront : url.toList = front ++ back)
    (hscheme : findStr "://".toList url.toList = some (utf8Len front)) :
    redactPgUrl url = some (String.ofList front ++ "://[redacted]@" ++ String.ofList b) := by
  have hat : findChar (· == '@') url.toList = some (utf8Len a) := by
    rw [hurl]
    apply findChar_append
    · intro c hc
      simpa using fun heq : c = '@' => ha (heq ▸ hc)
    · rfl
  have hsize : utf8Len a + 1 = utf8Len (a ++ ['@']) := by
    rw [utf8Len_append]
    rfl
  have hbehind : splitAt (utf8Len a + 1) url.toList = some (a ++ ['@'], b) := by
    rw [hurl, hsize, List.append_cons a '@' b]
    exact splitAt_append
  have hhead : splitAt (utf8Len front) url.toList = some (front, back) := by
    rw [hfront]
    exact splitAt_append
  unfold redactPgUrl
  rw [hat]
  dsimp only
  rw [hscheme]
  dsimp only
  rw [hhead, hbehind]

/-- A text with an `@` splits at the first one. -/
theorem fromAt_of_mem {s : List Char} (h : '@' ∈ s) :
    ∃ a b, s = a ++ '@' :: b ∧ '@' ∉ a ∧ fromAt s = '@' :: b := by
  obtain ⟨a, b, rfl, ha⟩ := List.eq_append_cons_of_mem h
  exact ⟨a, b, rfl, ha, by rw [fromAt_append ha, fromAt_cons]⟩

theorem fromAt_append_at (s t : List Char) : fromAt (s ++ '@' :: t) = fromAt s ++ '@' :: t := by
  by_cases h : '@' ∈ s
  · obtain ⟨a, b, rfl, ha, hb⟩ := fromAt_of_mem h
    rw [hb, List.append_assoc, fromAt_append ha, List.cons_append, fromAt_cons]
  · have hnil : fromAt s = [] := by
      rw [← List.append_nil s, fromAt_append h]
      rfl
    rw [fromAt_append h, fromAt_cons, hnil, List.nil_append]

/-- What is logged of a URL with credentials: something of the scheme, and whatever stands behind
the first `@` of the whole. -/
theorem redactPgUrl_credentials (scheme : String) : ∃ front : String, ∀ u rest : String,
    redactPgUrl (scheme ++ "://" ++ u ++ "@" ++ rest) = some (front ++ "://[redacted]@" ++
      String.ofList
        (fromAt (scheme.toList ++ "://".toList ++ u.toList ++ '@' :: rest.toList)).tail) := by
  obtain ⟨front, ⟨schemeBack, hscheme⟩, hfind⟩ := findStr_append "://".toList scheme.toList
  refine ⟨String.ofList front, fun u rest => ?_⟩
  have htext : (scheme ++ "://" ++ u ++ "@" ++ rest).toList =
      scheme.toList ++ "://".toList ++ u.toList ++ '@' :: rest.toList := by
    simp only [String.toList_append, List.append_assoc]
    rfl
  obtain ⟨a, b, hab, ha, hb⟩ := @fromAt_of_mem
    (scheme.toList ++ "://".toList ++ u.toList ++ '@' :: rest.toList) (by simp)
  rw [hb, List.tail_cons]
  apply redactPgUrl_eq (htext.trans hab) ha
  · rw [htext, ← hscheme]
    simp only [List.append_assoc]
    rfl
  · rw [htext, List.append_assoc, List.append_assoc]
    exact hfind _

/-- The logged texts of two URLs agree if and only if the texts behind the first `@` do. -/
theorem logged_eq_iff (scheme u₁ u₂ rest : List Char) :
    (fromAt (scheme ++ u₁ ++ '@' :: rest)).tail = (fromAt (scheme ++ u₂ ++ '@' :: rest)).tail ↔
      u₁ = u₂ ∨ ('@' ∉ scheme ∧ fromAt u₁ = fromAt u₂) := by
  have hhead : ∀ s : List Char, ∃ t, fromAt (s ++ '@' :: rest) = '@' :: t := by
    intro s
    obtain ⟨a, b, -, -, hb⟩ := @fromAt_of_mem (s ++ '@' :: rest) (by simp)
    exact ⟨b, hb⟩
  have htail : ∀ s s' : List Char, (fromAt (s ++ '@' :: rest)).tail =
      (fromAt (s' ++ '@' :: rest)).tail ↔ fromAt s = fromAt s' := by
    intro s s'
    obtain ⟨t, ht⟩ := hhead s
    obtain ⟨t', ht'⟩ := hhead s'
    rw [ht, ht', List.tail_cons, List.tail_cons, ← List.cons_inj_right '@', ← ht, ← ht',
      fromAt_append_at, fromAt_append_at, List.append_left_inj]
  rw [htail]
  by_cases h : '@' ∈ scheme
  · obtain ⟨a, b, rfl, ha, -⟩ := fromAt_of_mem h
    rw [List.append_assoc, List.append_assoc, fromAt_append ha, fromAt_append ha,
      List.cons_append, List.cons_append, fromAt_cons, fromAt_cons, List.cons_inj_right,
      List.append_right_inj]
    simp
  · rw [fromAt_append h, fromAt_append h]
    constructor
    · intro heq
      exact .inr ⟨h, heq⟩
    · intro heq
      rcases heq with rfl | ⟨-, heq⟩
      · rfl
      · exact heq

/-- Two URLs that differ in their credentials are logged alike if and only if the credentials are
the same, or the scheme has no `@` and the credentials agree from their first `@` on, as they do
when neither of them has one. -/
theorem redactPgUrl_hides_userinfo_iff (scheme u₁ u₂ rest : String) :
    redactPgUrl (scheme ++ "://" ++ u₁ ++ "@" ++ rest) =
        redactPgUrl (scheme ++ "://" ++ u₂ ++ "@" ++ rest) ↔
      u₁ = u₂ ∨ ('@' ∉ scheme.toList ∧ fromAt u₁.toList = fromAt u₂.toList) := by
  obtain ⟨front, hlogged⟩ := redactPgUrl_credentials scheme
  rw [hlogged, hlogged, Option.some.injEq, ← String.toList_inj]
  simp only [String.toList_append, String.toList_ofList, List.append_right_inj]
  rw [logged_eq_iff, String.toList_inj]
  simp

/-- The part of a password behind an `@` of its own is logged. -/
theorem redactPgUrl_leaks_password :
    redactPgUrl ("postgres" ++ "://" ++ "ligate:p@ss" ++ "@" ++ "db/ligate") =
        some "postgres://[redacted]@ss@db/ligate" ∧
      redactPgUrl ("postgres" ++ "://" ++ "ligate:pass" ++ "@" ++ "db/ligate") =
        some "postgres://[redacted]@db/ligate" ∧
      ¬ ∀ scheme u₁ u₂ rest : String, '@' ∉ rest.toList → u₁ ≠ "" → '/' ∉ u₁.toList → u₂ ≠ "" →
        '/' ∉ u₂.toList → redactPgUrl (scheme ++ "://" ++ u₁ ++ "@" ++ rest) =
          redactPgUrl (scheme ++ "://" ++ u₂ ++ "@" ++ rest) := by
  have hleak : redactPgUrl ("postgres" ++ "://" ++ "ligate:p@ss" ++ "@" ++ "db/ligate") =
      some "postgres://[redacted]@ss@db/ligate" := by decide
  have hclean : redactPgUrl ("postgres" ++ "://" ++ "ligate:pass" ++ "@" ++ "db/ligate") =
      some "postgres://[redacted]@db/ligate" := by decide
  refine ⟨hleak, hclean, fun hall => ?_⟩
  have heq := hall "postgres" "ligate:p@ss" "ligate:pass" "db/ligate" (by decide) (by decide)
    (by decide) (by decide) (by decide)
  rw [hleak, hclean] at heq
  exact absurd heq (by decide)

end LigateApi.Api
