import Mathlib.Data.Bool.AllAny
import Mathlib.Data.List.DropRight
import Mathlib.Data.List.Infix
import RandomClient.Lib.Text

/-!
# Endpoints

`normalize_endpoint` cuts the user's endpoint before its query or fragment,
rewrites the front and puts the back on again; `append_endpoint_path` cuts at the
same place. `Text.Cut` is what one step leaves for the next to find.
-/

namespace RandomClient

/-- `BackendKind` -/
inductive BackendKind where
  | rpc
  | bob
  | grpc
deriving DecidableEq

/-- `char::is_whitespace`, the Unicode `White_Space` property. -/
def isWhitespace (c : Char) : Bool :=
  let n := c.toNat
  (9 ≤ n && n ≤ 13) || n == 0x20 || n == 0x85 || n == 0xA0 || n == 0x1680 ||
    (0x2000 ≤ n && n ≤ 0x200A) || n == 0x2028 || n == 0x2029 || n == 0x202F || n == 0x205F ||
    n == 0x3000

/-- `str::trim` -/
def trim (s : List Char) : List Char := (s.dropWhile isWhitespace).rdropWhile isWhitespace

/-- `trim_end_matches('/')` -/
def trimEndSlashes (s : List Char) : List Char := s.rdropWhile (· == '/')

/-- `trim_start_matches('/')` -/
def trimStartSlashes (s : List Char) : List Char := s.dropWhile (· == '/')

/-- The characters a query or a fragment starts with. -/
def isDelimiter (c : Char) : Bool := c == '?' || c == '#'

/-- `endpoint_parts` -/
def endpointParts (endpoint : List Char) : List Char × List Char :=
  Text.splitFirst isDelimiter endpoint

/-- `strip_suffix` of the first suffix that fits, trimmed again; the loop stops there. -/
def stripFirstSuffix (suffixes : List (List Char)) (endpoint : List Char) : List Char :=
  match suffixes.findSome? fun suffix => endpoint.dropSuffix? suffix with
  | some base => trimEndSlashes base
  | none => endpoint

/-- The suffixes `normalize_endpoint` strips for each kind, in its order. -/
def BackendKind.suffixes : BackendKind → List (List Char)
  | .rpc => ["/live/v1".toList, "/query/v1".toList, "/v1".toList]
  | .bob => ["/qubic".toList]
  | .grpc => []

/-- What `normalize_endpoint` makes of the part before the query. -/
def normalizeBase (backend : BackendKind) (base : List Char) : List Char :=
  let endpoint := stripFirstSuffix backend.suffixes (trimEndSlashes base)
  if "://".toList <:+: endpoint then endpoint else "http://".toList ++ endpoint

/-- `normalize_endpoint` -/
def normalizeEndpoint (backend : BackendKind) (endpoint : List Char) : List Char :=
  let parts := endpointParts (trim endpoint)
  normalizeBase backend parts.1 ++ parts.2

/-- `append_endpoint_path` -/
def appendEndpointPath (endpoint path : List Char) : List Char :=
  let parts := endpointParts endpoint
  trimEndSlashes parts.1 ++ '/' :: trimStartSlashes path ++ parts.2

/-- `BoundedRpcClient` by its base URL. -/
structure BoundedRpcClient where
  baseUrl : List Char

/-- `BoundedRpcClient::url_for` -/
def BoundedRpcClient.urlFor (client : BoundedRpcClient) (path : List Char) : List Char :=
  appendEndpointPath client.baseUrl path

structure RpcBackend where
  live : BoundedRpcClient
  query : BoundedRpcClient

/-- `RpcBackend::new` -/
def RpcBackend.new (root : List Char) : RpcBackend where
  live := ⟨appendEndpointPath root "live/v1".toList⟩
  query := ⟨appendEndpointPath root "query/v1".toList⟩

/-- The endpoint of `BoundedBobClient::with_base_url`. -/
def bobEndpoint (endpoint : List Char) : List Char :=
  appendEndpointPath endpoint "qubic".toList

/-! ## Fronts without a delimiter -/

/-- No `?` and no `#`. -/
def Plain (s : List Char) : Prop := ∀ c ∈ s, isDelimiter c = false

theorem plain_of_all {s : List Char} (h : (s.all fun c => isDelimiter c = false) = true) : Plain s :=
  List.all_iff_forall_prop.1 h

theorem Plain.sublist {s t : List Char} (h : Plain t) (hsub : s.Sublist t) : Plain s :=
  fun c hc => h c (hsub.subset hc)

theorem Plain.append {s t : List Char} (hs : Plain s) (ht : Plain t) : Plain (s ++ t) := by
  intro c hc
  rcases List.mem_append.1 hc with hc | hc
  · exact hs c hc
  · exact ht c hc

theorem Plain.trimEndSlashes {s : List Char} (h : Plain s) : Plain (trimEndSlashes s) :=
  h.sublist (List.rdropWhile_prefix _ _).sublist

theorem Plain.trimStartSlashes {s : List Char} (h : Plain s) : Plain (trimStartSlashes s) :=
  h.sublist (List.dropWhile_sublist _)

theorem Plain.stripFirstSuffix {s : List Char} (h : Plain s) (suffixes : List (List Char)) :
    Plain (stripFirstSuffix suffixes s) := by
  unfold RandomClient.stripFirstSuffix
  split
  · next base hfound =>
    rcases List.exists_of_findSome?_eq_some hfound with ⟨suffix, _, hdrop⟩
    rcases List.dropSuffix?_eq_some_iff.1 hdrop with ⟨rest, rfl, _⟩
    have hbase : Plain base := h.sublist (List.sublist_append_left base rest)
    exact hbase.trimEndSlashes
  · exact h

theorem Plain.normalizeBase {s : List Char} (h : Plain s) (backend : BackendKind) :
    Plain (normalizeBase backend s) := by
  have hstripped := h.trimEndSlashes.stripFirstSuffix backend.suffixes
  unfold RandomClient.normalizeBase
  simp only
  split
  · exact hstripped
  · apply Plain.append
    · exact plain_of_all (by decide)
    · exact hstripped

/-- The front of an endpoint may be rewritten as long as it stays plain. -/
theorem endpointParts_rewrite {endpoint front : List Char} (h : Plain front) :
    endpointParts (front ++ (endpointParts endpoint).2) = (front, (endpointParts endpoint).2) := by
  have hback := (@Text.cut_splitFirst _ isDelimiter endpoint).back
  exact Text.Cut.splitFirst ⟨h, hback⟩

theorem endpointParts_plain (endpoint : List Char) : Plain (endpointParts endpoint).1 :=
  (@Text.cut_splitFirst _ isDelimiter endpoint).front

theorem endpointParts_normalizeEndpoint (backend : BackendKind) (endpoint : List Char) :
    endpointParts (normalizeEndpoint backend endpoint) =
      (normalizeBase backend (endpointParts (trim endpoint)).1, (endpointParts (trim endpoint)).2) :=
  endpointParts_rewrite ((endpointParts_plain _).normalizeBase backend)

/-- Appending a path leaves the query where it was. -/
theorem endpointParts_appendEndpointPath (endpoint : List Char) {path : List Char}
    (h : Plain path) :
    endpointParts (appendEndpointPath endpoint path) =
      (trimEndSlashes (endpointParts endpoint).1 ++ '/' :: trimStartSlashes path,
        (endpointParts endpoint).2) := by
  apply endpointParts_rewrite
  apply Plain.append (endpointParts_plain _).trimEndSlashes
  intro c hc
  rcases List.mem_cons.1 hc with rfl | hc
  · decide
  · exact h.trimStartSlashes c hc

/-! ## Paths one after the other -/

/-- A path that neither starts nor ends with a slash. -/
structure NoOuterSlash (path : List Char) : Prop where
  start : path.head? ≠ some '/'
  stop : path.getLast? ≠ some '/'

theorem NoOuterSlash.trimStart {path : List Char} (h : NoOuterSlash path) :
    trimStartSlashes path = path := by
  cases path with
  | nil => rfl
  | cons c path =>
    have hc : (c == '/') = false := by
      rw [beq_eq_false_iff_ne]
      intro heq
      exact h.start (by rw [heq]; rfl)
    unfold trimStartSlashes
    rw [List.dropWhile_cons, hc]
    rfl

/-- What ends in a path without outer slashes has no slash to trim. -/
theorem NoOuterSlash.trimEnd {path : List Char} (h : NoOuterSlash path) (hne : path ≠ [])
    (front : List Char) : trimEndSlashes (front ++ path) = front ++ path := by
  apply List.rdropWhile_eq_self_iff.2
  intro hnil hslash
  apply h.stop
  rw [List.getLast?_eq_some_getLast hne]
  rw [List.getLast_append_of_ne_nil hnil hne] at hslash
  exact congrArg some (eq_of_beq hslash)

/-- Two paths appended to an endpoint stand between its front and its query. -/
theorem appendEndpointPath_twice (endpoint : List Char) {first path : List Char}
    (hfirst : Plain first) (hne : first ≠ []) (houter : NoOuterSlash first)
    (houter' : NoOuterSlash path) :
    appendEndpointPath (appendEndpointPath endpoint first) path =
      trimEndSlashes (endpointParts endpoint).1 ++ '/' :: first ++ '/' :: path ++
        (endpointParts endpoint).2 := by
  have hparts := endpointParts_appendEndpointPath endpoint hfirst
  rw [houter.trimStart] at hparts
  have hfront : trimEndSlashes (trimEndSlashes (endpointParts endpoint).1 ++ '/' :: first) =
      trimEndSlashes (endpointParts endpoint).1 ++ '/' :: first := by
    have hsplit : trimEndSlashes (endpointParts endpoint).1 ++ '/' :: first =
        (trimEndSlashes (endpointParts endpoint).1 ++ ['/']) ++ first := by simp
    rw [hsplit]
    exact houter.trimEnd hne _
  show trimEndSlashes (endpointParts (appendEndpointPath endpoint first)).1 ++
    '/' :: trimStartSlashes path ++ (endpointParts (appendEndpointPath endpoint first)).2 = _
  rw [hparts, hfront, houter'.trimStart]

theorem bobEndpoint_eq (endpoint : List Char) :
    bobEndpoint endpoint =
      trimEndSlashes (endpointParts endpoint).1 ++ "/qubic".toList ++ (endpointParts endpoint).2 := by
  have houter : NoOuterSlash "qubic".toList := ⟨by decide, by decide⟩
  show trimEndSlashes (endpointParts endpoint).1 ++ '/' :: trimStartSlashes "qubic".toList ++
    (endpointParts endpoint).2 = _
  rw [houter.trimStart]
  rfl

/-- The URLs of the RPC operations for one endpoint. -/
theorem rpc_urlFor_eq (endpoint : List Char) {path : List Char} (houter : NoOuterSlash path) :
    (RpcBackend.new endpoint).live.urlFor path =
        trimEndSlashes (endpointParts endpoint).1 ++ "/live/v1/".toList ++ path ++
          (endpointParts endpoint).2 ∧
      (RpcBackend.new endpoint).query.urlFor path =
        trimEndSlashes (endpointParts endpoint).1 ++ "/query/v1/".toList ++ path ++
          (endpointParts endpoint).2 := by
  constructor
  · have htwice := @appendEndpointPath_twice endpoint "live/v1".toList path
      (plain_of_all (by decide)) (by decide) ⟨by decide, by decide⟩ houter
    refine htwice.trans ?_
    simp
  · have htwice := @appendEndpointPath_twice endpoint "query/v1".toList path
      (plain_of_all (by decide)) (by decide) ⟨by decide, by decide⟩ houter
    refine htwice.trans ?_
    simp

/-- The query of the trimmed endpoint is the query of the normalized endpoint and of
every URL built from it, and the paths stand in front of it. -/
theorem endpoint_rewriting_keeps_query (backend : BackendKind) (endpoint : List Char) :
    (endpointParts (normalizeEndpoint backend endpoint)).2 = (endpointParts (trim endpoint)).2 ∧
      (∀ other, (endpointParts (trim other)).1 = (endpointParts (trim endpoint)).1 →
        (endpointParts (normalizeEndpoint backend other)).1 =
          (endpointParts (normalizeEndpoint backend endpoint)).1) ∧
      (∀ path, Plain path → NoOuterSlash path →
        let rpc := RpcBackend.new (normalizeEndpoint backend endpoint)
        let front := trimEndSlashes (endpointParts (normalizeEndpoint backend endpoint)).1
        let query := (endpointParts (trim endpoint)).2
        rpc.live.urlFor path = front ++ "/live/v1/".toList ++ path ++ query ∧
          (endpointParts (rpc.live.urlFor path)).2 = query ∧
          rpc.query.urlFor path = front ++ "/query/v1/".toList ++ path ++ query ∧
          (endpointParts (rpc.query.urlFor path)).2 = query) ∧
      bobEndpoint (normalizeEndpoint backend endpoint) =
        trimEndSlashes (endpointParts (normalizeEndpoint backend endpoint)).1 ++
          "/qubic".toList ++ (endpointParts (trim endpoint)).2 ∧
      (endpointParts (bobEndpoint (normalizeEndpoint backend endpoint))).2 =
        (endpointParts (trim endpoint)).2 := by
  have hparts := endpointParts_normalizeEndpoint backend endpoint
  have hquery : (endpointParts (normalizeEndpoint backend endpoint)).2 =
      (endpointParts (trim endpoint)).2 := by rw [hparts]
  refine ⟨hquery, ?_, ?_, ?_, ?_⟩
  · intro other hbase
    rw [endpointParts_normalizeEndpoint, hparts]
    exact congrArg (normalizeBase backend) hbase
  · intro path hplain houter
    have hurls := rpc_urlFor_eq (normalizeEndpoint backend endpoint) houter
    rw [hquery] at hurls
    refine ⟨hurls.1, ?_, hurls.2, ?_⟩
    · -- both appended paths are plain, so each cut finds the place of the one before
      show (endpointParts (appendEndpointPath _ path)).2 = _
      rw [endpointParts_appendEndpointPath _ hplain]
      show (endpointParts (appendEndpointPath _ "live/v1".toList)).2 = _
      rw [endpointParts_appendEndpointPath _ (plain_of_all (by decide))]
      exact hquery
    · show (endpointParts (appendEndpointPath _ path)).2 = _
      rw [endpointParts_appendEndpointPath _ hplain]
      show (endpointParts (appendEndpointPath _ "query/v1".toList)).2 = _
      rw [endpointParts_appendEndpointPath _ (plain_of_all (by decide))]
      exact hquery
  · rw [bobEndpoint_eq, hquery]
  · unfold bobEndpoint
    rw [endpointParts_appendEndpointPath _ (plain_of_all (by decide))]
    exact hquery

/-- A token that looks like a suffix is neither stripped nor moved. -/
theorem tick_info_url_keeps_token :
    (RpcBackend.new (normalizeEndpoint .rpc " host/v1/?token=/v1 ".toList)).live.urlFor
        "tick-info".toList =
      "http://host/live/v1/tick-info?token=/v1".toList := by
  have h := ((endpoint_rewriting_keeps_query .rpc " host/v1/?token=/v1 ".toList).2.2.1
    "tick-info".toList (plain_of_all (by decide)) ⟨by decide, by decide⟩).1
  refine h.trans ?_
  decide +kernel

end RandomClient
