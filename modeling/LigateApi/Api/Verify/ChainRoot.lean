import LigateApi.Drip.Signer
import LigateApi.Indexer.Client

/-!
# One chain URL, two clients

`main` hands the same `CHAIN_RPC` to the drip signer and to the indexer's client. The signer drops
trailing slashes and adds `/v1` unless it is there. The client makes sure of one trailing slash and
puts `v1/` in front of every path. They reach the same root only for the spellings without `/v1` and
without a second slash.
-/

namespace LigateApi.Api

open Drip Indexer.Client

/-- `scheme://host[:port]`, with `/v1` or without, and some slashes. -/
def chainRpcText (scheme host : String) (v1 : Bool) (slashes : Nat) : String :=
  scheme ++ "://" ++ host ++ (if v1 then "/v1" else "") ++
    String.ofList (List.replicate slashes '/')

/-- The signer's URL of a transaction is the one the indexer's client builds. -/
def SameRoot (api : UrlApi) (s x : String) : Prop :=
  api.parse (Signer.normaliseRpc s ++ "/ledger/txs/" ++ x) =
    (NodeClient.new api s).bind fun client => client.url api ("v1/ledger/txs/" ++ x)

/-! ## The signer's normalisation -/

/-- A text that ends with no slash is kept, and gets `/v1` unless that is its end. -/
theorem normaliseRpc_of_trimmed {s : String} (htrim : s.toList.getLast? ≠ some '/') :
    Signer.normaliseRpc s = if "/v1".toList <:+ s.toList then s else s ++ "/v1" := by
  have hkeep : s.toList.rdropWhile (· = '/') = s.toList := by
    rw [List.rdropWhile_eq_self_iff]
    intro hne
    rw [List.getLast?_eq_some_getLast hne] at htrim
    simpa using htrim
  unfold Signer.normaliseRpc
  simp only [hkeep, List.isSuffixOf_iff_suffix]
  split
  · rw [String.ofList_toList]
  · rw [String.ofList_append, String.ofList_toList, String.ofList_toList]

/-- What is left ends with `/v1`. -/
theorem normaliseRpc_suffix (s : String) : "/v1".toList <:+ (Signer.normaliseRpc s).toList := by
  unfold Signer.normaliseRpc
  generalize "/v1".toList = v1
  by_cases h : v1.isSuffixOf (s.toList.rdropWhile (· = '/')) = true
  · rw [if_pos h, String.toList_ofList]
    exact List.isSuffixOf_iff_suffix.1 h
  · rw [if_neg h, String.toList_ofList]
    exact List.suffix_append _ _

theorem normaliseRpc_idem (s : String) :
    Signer.normaliseRpc (Signer.normaliseRpc s) = Signer.normaliseRpc s := by
  have hsuffix := normaliseRpc_suffix s
  rw [normaliseRpc_of_trimmed, if_pos hsuffix]
  obtain ⟨t, ht⟩ := hsuffix
  rw [← ht, List.getLast?_append]
  simp

theorem rdropWhile_slashes (l : List Char) (n : Nat) :
    (l ++ List.replicate n '/').rdropWhile (· = '/') = l.rdropWhile (· = '/') := by
  induction n with
  | zero => rw [List.replicate_zero, List.append_nil]
  | succ n ih =>
    rw [List.replicate_succ', ← List.append_assoc, List.rdropWhile_concat_pos _ _ _ (by decide), ih]

theorem normaliseRpc_slashes (s : String) (n : Nat) :
    Signer.normaliseRpc (s ++ String.ofList (List.replicate n '/')) = Signer.normaliseRpc s := by
  unfold Signer.normaliseRpc
  rw [String.toList_append, String.toList_ofList, rdropWhile_slashes]

section Spellings

variable {scheme host : String}

/-- Behind its last slash an origin has the host. -/
theorem suffix_origin_iff (hhost : '/' ∉ host.toList) :
    "/v1".toList <:+ (scheme ++ "://" ++ host).toList ↔ host = "v1" := by
  have hlast : ∀ front l : List Char, '/' ∉ l →
      ((front ++ '/' :: l).reverse.takeWhile (· ≠ '/')).reverse = l := by
    intro front l hl
    rw [List.reverse_append, List.reverse_cons, List.append_assoc, List.takeWhile_append_of_pos]
    · simp
    · intro c hc
      simpa using fun heq : c = '/' => hl (heq ▸ List.mem_reverse.1 hc)
  have htext : (scheme ++ "://" ++ host).toList =
      (scheme.toList ++ [':', '/']) ++ '/' :: host.toList := by
    simp
  constructor
  · intro h
    obtain ⟨t, ht⟩ := h
    rw [htext] at ht
    have heq := congrArg (fun l => (l.reverse.takeWhile (· ≠ '/')).reverse) ht
    have hv1 := hlast t ['v', '1'] (by decide)
    have hhost' := hlast (scheme.toList ++ [':', '/']) host.toList hhost
    rw [← String.toList_inj]
    exact (hhost'.symm.trans heq.symm).trans hv1
  · intro h
    subst h
    exact ⟨scheme.toList ++ [':', '/'], by rw [htext]; simp⟩

/-- In front of its slashes a spelling ends with no slash. -/
theorem getLast?_spelling (hne : host ≠ "") (hhost : '/' ∉ host.toList) (v1 : Bool) :
    (scheme ++ "://" ++ host ++ (if v1 then "/v1" else "")).toList.getLast? ≠ some '/' := by
  cases v1 with
  | true =>
    rw [if_pos rfl, String.toList_append, List.getLast?_append]
    simp
  | false =>
    intro h
    have hnil : host.toList ≠ [] := fun h => hne (String.toList_eq_nil_iff.1 h)
    simp only [Bool.false_eq_true, if_false, String.toList_append, String.toList_empty,
      List.append_nil, List.getLast?_append_of_ne_nil _ hnil] at h
    exact hhost (List.mem_of_getLast? h)

/-- The path of the signer's base. -/
def signerBase (host : String) (v1 : Bool) : String :=
  if v1 = true ∨ host ≠ "v1" then "/v1" else ""

/-- The path of the node client's base. -/
def nodeBase (v1 : Bool) (slashes : Nat) : String :=
  (if v1 then "/v1" else "") ++ String.ofList (List.replicate (max slashes 1) '/')

theorem normaliseRpc_spelling (hne : host ≠ "") (hhost : '/' ∉ host.toList) (v1 : Bool) (n : Nat) :
    Signer.normaliseRpc (chainRpcText scheme host v1 n) =
      scheme ++ "://" ++ host ++ signerBase host v1 := by
  unfold chainRpcText signerBase
  rw [normaliseRpc_slashes, normaliseRpc_of_trimmed (getLast?_spelling hne hhost v1)]
  cases v1 with
  | true =>
    have hsuffix : "/v1".toList <:+ (scheme ++ "://" ++ host ++ "/v1").toList := by
      rw [String.toList_append]
      exact List.suffix_append _ _
    rw [if_pos rfl, if_pos hsuffix, if_pos (Or.inl rfl)]
  | false =>
    simp only [Bool.false_eq_true, if_false, String.append_empty, false_or]
    by_cases h : host = "v1"
    · rw [if_pos ((suffix_origin_iff hhost).2 h), if_neg (not_not.2 h), String.append_empty]
    · rw [if_neg fun hs => h ((suffix_origin_iff hhost).1 hs), if_pos h]

theorem normalize_spelling (hne : host ≠ "") (hhost : '/' ∉ host.toList) (v1 : Bool) (n : Nat) :
    NodeClient.normalize (chainRpcText scheme host v1 n) =
      scheme ++ "://" ++ host ++ nodeBase v1 n := by
  have hlast := @getLast?_spelling scheme host hne hhost v1
  unfold NodeClient.normalize chainRpcText nodeBase
  cases n with
  | zero =>
    rw [List.replicate_zero, String.ofList_nil, String.append_empty, if_neg hlast,
      String.append_assoc]
    rfl
  | succ n =>
    rw [if_pos, String.append_assoc, Nat.max_eq_left (Nat.succ_pos n)]
    rw [String.toList_append, String.toList_ofList, List.replicate_succ', ← List.append_assoc,
      List.getLast?_concat]

end Spellings

/-! ## Paths -/

theorem plainPath_append {p q : String} (hp : PlainPath p)
    (hq : ∀ c ∈ q.toList, c = '/' ∨ c.isAlphanum = true) : PlainPath (p ++ q) := by
  constructor
  · rw [String.toList_append, List.head?_append, hp.1]
    rfl
  · intro c hc
    rw [String.toList_append] at hc
    rcases List.mem_append.1 hc with hc | hc
    · exact hp.2 c hc
    · exact hq c hc

theorem plainPath_of_all {p : String} (hhead : p.toList.head? = some '/')
    (hall : p.toList.all (fun c => c = '/' ∨ c.isAlphanum = true) = true) : PlainPath p :=
  ⟨hhead, fun c hc => of_decide_eq_true (List.all_eq_true.1 hall c hc)⟩

theorem plainPath_v1 : PlainPath "/v1" := plainPath_of_all (by decide) (by decide)

theorem plainPath_slashes {n : Nat} (h : 0 < n) :
    PlainPath (String.ofList (List.replicate n '/')) := by
  obtain ⟨m, rfl⟩ := Nat.exists_eq_add_one.2 h
  constructor
  · rw [String.toList_ofList, List.replicate_succ, List.head?_cons]
  · intro c hc
    rw [String.toList_ofList] at hc
    exact .inl (List.eq_of_mem_replicate hc)

theorem plainPath_nodeBase (v1 : Bool) (n : Nat) : PlainPath (nodeBase v1 n) := by
  have hslashes := @plainPath_slashes (max n 1) (by omega)
  cases v1 with
  | true => exact plainPath_append plainPath_v1 hslashes.2
  | false =>
    rw [nodeBase, if_neg (by simp), String.empty_append]
    exact hslashes

theorem getLast?_nodeBase (v1 : Bool) (n : Nat) : (nodeBase v1 n).toList.getLast? = some '/' := by
  obtain ⟨m, hm⟩ : ∃ m, max n 1 = m + 1 := ⟨max n 1 - 1, by omega⟩
  rw [nodeBase, hm, String.toList_append, String.toList_ofList, List.replicate_succ',
    ← List.append_assoc, List.getLast?_concat]

theorem plainPath_txs {x : String} (hx : ∀ c ∈ x.toList, c.isAlphanum = true) :
    PlainPath ("/ledger/txs/" ++ x) :=
  plainPath_append (plainPath_of_all (by decide) (by decide)) fun c hc => .inr (hx c hc)

/-- The two paths of a transaction differ in length unless there is one slash in front of the
client's `v1`, and nothing else. -/
theorem paths_eq_iff (host x : String) (v1 : Bool) (n : Nat) :
    signerBase host v1 ++ ("/ledger/txs/" ++ x) = nodeBase v1 n ++ ("v1/ledger/txs/" ++ x) ↔
      v1 = false ∧ n ≤ 1 ∧ host ≠ "v1" := by
  constructor
  · intro h
    have hv1 : "/v1".length = 3 := by decide
    have hsigner : "/ledger/txs/".length = 12 := by decide
    have hnode : "v1/ledger/txs/".length = 14 := by decide
    have hlen := congrArg (fun s : String => s.length) h
    cases v1 with
    | true =>
      simp only [signerBase, nodeBase, true_or, if_true, String.length_append,
        String.length_ofList, List.length_replicate] at hlen
      omega
    | false =>
      simp only [signerBase, nodeBase, Bool.false_eq_true, false_or, if_false,
        String.length_append, String.length_ofList, List.length_replicate] at hlen
      by_cases hhost : host = "v1"
      · rw [if_neg (not_not.2 hhost)] at hlen
        have hempty : "".length = 0 := rfl
        omega
      · rw [if_pos hhost] at hlen
        exact ⟨rfl, by omega, hhost⟩
  · intro h
    obtain ⟨rfl, hn, hhost⟩ := h
    rw [signerBase, if_pos (.inr hhost), nodeBase, Nat.max_eq_right hn, ← String.append_assoc,
      ← String.append_assoc]
    rfl

/-! ## The same root -/

section Root

variable {api : UrlApi} {scheme host canonical x : String}

/-- At an origin the crate accepts, both URLs are that origin and a path. -/
theorem sameRoot_iff (hne : host ≠ "") (hhost : '/' ∉ host.toList)
    (hx : ∀ c ∈ x.toList, c.isAlphanum = true)
    (hurl : api.PlainAt (scheme ++ "://" ++ host) canonical) (v1 : Bool) (n : Nat) :
    SameRoot api (chainRpcText scheme host v1 n) x ↔ v1 = false ∧ n ≤ 1 ∧ host ≠ "v1" := by
  have htxs := plainPath_txs hx
  have hsigner : PlainPath (signerBase host v1 ++ ("/ledger/txs/" ++ x)) := by
    unfold signerBase
    split
    · exact plainPath_append plainPath_v1 htxs.2
    · rwa [String.empty_append]
  have hrel : PlainPath ("/" ++ ("v1/ledger/txs/" ++ x)) := by
    rw [← String.append_assoc]
    exact plainPath_append (plainPath_of_all (by decide) (by decide)) fun c hc => .inr (hx c hc)
  have hhead : ("v1/ledger/txs/" ++ x).toList.head? ≠ some '/' := by
    rw [String.toList_append, List.head?_append]
    simp
  have hsignerUrl : api.parse (Signer.normaliseRpc (chainRpcText scheme host v1 n) ++
      "/ledger/txs/" ++ x) = .ok (canonical ++ (signerBase host v1 ++ ("/ledger/txs/" ++ x))) := by
    rw [normaliseRpc_spelling hne hhost, ← hurl.parse _ hsigner]
    simp only [String.append_assoc]
  have hclient : NodeClient.new api (chainRpcText scheme host v1 n) =
      .ok ⟨canonical ++ nodeBase v1 n⟩ := by
    unfold NodeClient.new
    rw [normalize_spelling hne hhost, hurl.parse _ (plainPath_nodeBase v1 n)]
  have hjoin := hurl.join _ _ (plainPath_nodeBase v1 n) (getLast?_nodeBase v1 n) hrel hhead
  unfold SameRoot
  rw [hsignerUrl, hclient]
  simp only [Except.bind, NodeClient.url]
  rw [hjoin, Except.ok.injEq, String.append_assoc, String.append_right_inj, paths_eq_iff]

end Root

/-- For a base URL of an origin the `url` crate accepts, both clients reach the same root, with a
normalisation that is idempotent and does not depend on the number of slashes, if and only if the
base is spelled without `/v1`, with at most one slash at its end, and the host is not `v1`
itself. -/
theorem clients_reach_same_root_iff {api : UrlApi} {scheme host canonical x : String}
    (hne : host ≠ "") (hhost : '/' ∉ host.toList) (hx : ∀ c ∈ x.toList, c.isAlphanum = true)
    (hurl : api.PlainAt (scheme ++ "://" ++ host) canonical) (v1 : Bool) (slashes : Nat) :
    (SameRoot api (chainRpcText scheme host v1 slashes) x ∧
      Signer.normaliseRpc (Signer.normaliseRpc (chainRpcText scheme host v1 slashes)) =
        Signer.normaliseRpc (chainRpcText scheme host v1 slashes) ∧
      ∀ n, Signer.normaliseRpc (chainRpcText scheme host v1 n) =
        Signer.normaliseRpc (chainRpcText scheme host v1 slashes)) ↔
      v1 = false ∧ slashes ≤ 1 ∧ host ≠ "v1" := by
  rw [sameRoot_iff hne hhost hx hurl]
  constructor
  · intro h
    exact h.1
  · intro h
    refine ⟨h, normaliseRpc_idem _, fun n => ?_⟩
    rw [normaliseRpc_spelling hne hhost, normaliseRpc_spelling hne hhost]

/-- The `url` crate on texts it writes back as they are. -/
def verbatimUrls : UrlApi where
  parse := .ok
  join base path := .ok (base ++ path)

theorem verbatimUrls_plainAt (origin : String) : verbatimUrls.PlainAt origin origin :=
  ⟨fun _ _ => rfl, fun _ _ _ _ _ _ => rfl⟩

theorem clients_reach_same_root_plain_origin :
    SameRoot verbatimUrls "https://rpc.ligate.io/" "ltx1x" := by
  have h := (clients_reach_same_root_iff (x := "ltx1x") (by decide) (by decide)
    (List.all_eq_true.1 (by decide))
    (verbatimUrls_plainAt ("https" ++ "://" ++ "rpc.ligate.io")) false 1).2
    ⟨rfl, Nat.le_refl 1, by decide⟩
  exact h.1

/-- With `/v1` in the base, the signer asks below `/v1` and the indexer below `/v1/v1`; with two
slashes, the indexer asks below `//v1`. -/
theorem clients_differ_on_v1_and_slashes :
    ¬ SameRoot verbatimUrls "https://rpc.ligate.io/v1" "x" ∧
      ¬ SameRoot verbatimUrls "https://rpc.ligate.io//" "x" := by
  unfold SameRoot
  decide

end LigateApi.Api
