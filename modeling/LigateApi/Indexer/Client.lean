import Mathlib.Data.List.Basic

/-!
# The URLs of the node client

`NodeClient::new` takes the base URL with or without a slash at its end, and every call joins its
path, `v1/` included, onto that base. The `url` crate is the parameter `UrlApi`; a URL is the text
the crate writes for it. What the node answers at these URLs is `Indexer.NodeClient`.
-/

namespace LigateApi.Indexer.Client

/-- `Url::parse` and `Url::join`. -/
structure UrlApi where
  parse : String → Except String String
  join : String → String → Except String String

structure NodeClient where
  base : String
  deriving DecidableEq, Repr

namespace NodeClient

/-- The base with a slash appended unless it ends with one. -/
def normalize (baseUrl : String) : String :=
  if baseUrl.toList.getLast? = some '/' then baseUrl else baseUrl ++ "/"

/-- `NodeClient::new` -/
def new (api : UrlApi) (baseUrl : String) : Except String NodeClient :=
  match api.parse (normalize baseUrl) with
  | .ok base => .ok ⟨base⟩
  | .error e => .error ("URL parse: " ++ e)

/-- `NodeClient::url`; the source panics on an error of `join`. -/
def url (api : UrlApi) (client : NodeClient) (path : String) : Except String String :=
  api.join client.base path

end NodeClient

/-- A path from the root, of letters, digits and slashes. -/
def PlainPath (p : String) : Prop :=
  p.toList.head? = some '/' ∧ ∀ c ∈ p.toList, c = '/' ∨ c.isAlphanum = true

/-- What is used of the `url` crate at one origin `scheme://host[:port]`: it accepts the origin and
writes it as `canonical`, it keeps plain paths, and joining a relative path onto a base that ends
with a slash appends it. -/
structure UrlApi.PlainAt (api : UrlApi) (origin canonical : String) : Prop where
  parse : ∀ p, PlainPath p → api.parse (origin ++ p) = .ok (canonical ++ p)
  join : ∀ p path, PlainPath p → p.toList.getLast? = some '/' → PlainPath ("/" ++ path) →
    path.toList.head? ≠ some '/' → api.join (canonical ++ p) path = .ok (canonical ++ p ++ path)

end LigateApi.Indexer.Client
