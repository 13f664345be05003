import Piko.Cluster.Node

/-! # The proxy's request policy

`Proxy.Request` (proxy.go): per inbound request, extract the endpoint ID, try the local connections,
and on a miss forward once to a peer with `x-piko-forward: true` set.

* The dispatcher is written once, in any monad, against its two collaborators (`Proxy`), as the Go
  code calls `p.local.Request` and `p.remote.Request`.
* `http.Header` is a map from canonical header names to values; `Get` and `Set` are applied to the
  canonical form of the code's literal names (`X-Piko-Forward`, `X-Piko-Endpoint`).
* An `error` is the chain of sentinel errors it wraps; `errors.Is` is membership.
* Requests and responses keep only what the code reads or builds: headers and host; status code
  and body.
-/

namespace Piko.Server
set_option autoImplicit false

/-- `http.Header`: canonical header name to its values. -/
abbrev Header := String → List String

/-- `Header.Get`: the first value, or `""`. -/
def Header.get (h : Header) (key : String) : String := (h key).headD ""

/-- `Header.Set`: the key's values become `[value]`. -/
def Header.set (h : Header) (key value : String) : Header := Function.update h key [value]

@[simp] theorem Header.get_set_self (h : Header) (key value : String) :
    (h.set key value).get key = value := by
  simp [Header.get, Header.set]

structure Request where
  header : Header
  host : String

structure Response where
  statusCode : Nat
  body : String
  deriving DecidableEq, Repr

/-- The sentinel errors the code compares against. -/
inductive Sentinel
  | endpointNotFound
  | deadlineExceeded
  | other (n : Nat)
  deriving DecidableEq, Repr

/-- An `error` value, as the chain of errors it wraps, outermost first. -/
abbrev Error := List Sentinel

/-- `errors.Is(err, target)`. -/
def errorsIs (err : Error) (target : Sentinel) : Bool := target ∈ err

/-! ## Endpoint extraction -/

/-- `strings.Split(s, sep)` for a one-character separator: the first field and the others. -/
def split (sep : Char) : List Char → List Char × List (List Char)
  | [] => ([], [])
  | c :: cs =>
    let (w, ws) := split sep cs
    if c = sep then ([], w :: ws) else (c :: w, ws)

def endpointIDFromRequest (r : Request) : String :=
  let endpointID := r.header.get "X-Piko-Endpoint"
  if endpointID ≠ "" then endpointID else
  let host := r.host
  if host ≠ "" ∧ host.contains '.' then String.mk (split '.' host.data).1 else ""

/-! ## `Proxy.Request` -/

/-- `errorResponse(statusCode, message)`: the status and the JSON body `{"error": message}`. -/
def errorResponse (statusCode : Nat) (message : String) : Response :=
  { statusCode, body := "\x7b\"error\":\"" ++ message ++ "\"\x7d" }

def statusBadRequest : Nat := 400
def statusServiceUnavailable : Nat := 503
def statusGatewayTimeout : Nat := 504

/-- The response for a failed upstream attempt, or `none` when it failed with
`errEndpointNotFound`. -/
def upstreamError (err : Error) : Option Response :=
  if errorsIs err .endpointNotFound then none
  else if errorsIs err .deadlineExceeded then
    some (errorResponse statusGatewayTimeout "endpoint timeout")
  else some (errorResponse statusServiceUnavailable "endpoint unreachable")

/-- Whether the request was forwarded by another node. -/
def forwarded (r : Request) : Bool := r.header.get "X-Piko-Forward" = "true"

/-- `r.Header.Set("x-piko-forward", "true")`. -/
def forward (r : Request) : Request :=
  { r with header := r.header.set "X-Piko-Forward" "true" }

/-- The proxy's two collaborators: the local connections and the remote forwarder. -/
structure Proxy (m : Type → Type) where
  localProxy : String → Request → m (Except Error Response)
  remoteProxy : String → Request → m (Except Error Response)

def Proxy.request {m : Type → Type} [Monad m] (p : Proxy m) (r : Request) : m Response := do
  let endpointID := endpointIDFromRequest r
  if endpointID = "" then return errorResponse statusBadRequest "missing piko endpoint id"
  match ← p.localProxy endpointID r with
  | .ok resp => return resp
  | .error err =>
    if let some resp := upstreamError err then return resp
    if forwarded r then return errorResponse statusServiceUnavailable "endpoint not found"
    match ← p.remoteProxy endpointID (forward r) with
    | .ok resp => return resp
    | .error err =>
      return (upstreamError err).getD
        (errorResponse statusServiceUnavailable "endpoint not found")

/-! ## Spec lemmas -/

theorem endpointIDFromRequest_forward (r : Request) :
    endpointIDFromRequest (forward r) = endpointIDFromRequest r := by
  have h : ("X-Piko-Endpoint" : String) ≠ "X-Piko-Forward" := by decide
  simp [endpointIDFromRequest, forward, Header.get, Header.set, Function.update_noteq h]

@[simp] theorem forwarded_forward (r : Request) : forwarded (forward r) = true := by
  simp [forwarded, forward]

theorem split_fst (sep : Char) : ∀ l : List Char, (split sep l).1 = l.takeWhile (· ≠ sep)
  | [] => rfl
  | c :: cs => by
    by_cases h : c = sep
    · simp [split, h]
    · simp [split, h, split_fst sep cs]

/-- A non-empty `x-piko-endpoint` header is the ID, whatever the Host. -/
theorem endpointIDFromRequest_of_header {r : Request} (h : r.header.get "X-Piko-Endpoint" ≠ "") :
    endpointIDFromRequest r = r.header.get "X-Piko-Endpoint" :=
  if_pos h

/-- Without the header the ID is the Host up to its first dot, empty when the Host starts with
one, and `""` when the Host has no dot. -/
theorem endpointIDFromRequest_of_host {r : Request} (h : r.header.get "X-Piko-Endpoint" = "") :
    endpointIDFromRequest r =
      if '.' ∈ r.host.data then String.mk (r.host.data.takeWhile (· ≠ '.')) else "" := by
  have hdot : r.host ≠ "" ∧ r.host.contains '.' ↔ '.' ∈ r.host.data := by
    rw [String.contains_iff]
    exact ⟨And.right, fun hd => ⟨fun he => List.not_mem_nil _ (he ▸ hd), hd⟩⟩
  simp only [endpointIDFromRequest, h, ne_eq, not_true_eq_false, ↓reduceIte, split_fst]
  exact if_congr hdot rfl rfl

theorem takeWhile_label {e : List Char} (he : '.' ∉ e) (d : List Char) :
    (e ++ '.' :: d).takeWhile (· ≠ '.') = e := by
  rw [List.takeWhile_append_of_pos fun _ ha => decide_eq_true (ne_of_mem_of_not_mem ha he),
    List.takeWhile_cons_of_neg (by simp), List.append_nil]

/-- Without the header, a Host `e.d` whose first label `e` has no dot gives `e`. -/
theorem endpointIDFromRequest_label {r : Request} (h : r.header.get "X-Piko-Endpoint" = "")
    {e d : String} (he : '.' ∉ e.data) (hhost : r.host = e ++ "." ++ d) :
    endpointIDFromRequest r = e := by
  have hdata : r.host.data = e.data ++ '.' :: d.data := by
    rw [hhost, String.data_append, String.data_append, List.append_assoc]; rfl
  rw [endpointIDFromRequest_of_host h, hdata,
    if_pos (List.mem_append_right _ (List.mem_cons_self _ _)), takeWhile_label he]

theorem upstreamError_eq_none {err : Error} :
    upstreamError err = none ↔ errorsIs err .endpointNotFound := by
  unfold upstreamError; split_ifs <;> simp_all

/-- The responses `Proxy.Request` builds when no upstream answers: the endpoint is connected
nowhere, or the upstream is unreachable or timed out. -/
def IsUpstreamError (resp : Response) : Prop :=
  resp = errorResponse statusServiceUnavailable "endpoint not found" ∨
    resp = errorResponse statusServiceUnavailable "endpoint unreachable" ∨
    resp = errorResponse statusGatewayTimeout "endpoint timeout"

theorem upstreamError_isUpstreamError {err : Error} {resp : Response}
    (h : upstreamError err = some resp) : IsUpstreamError resp := by
  unfold upstreamError at h
  split_ifs at h <;> cases h
  · exact .inr (.inr rfl)
  · exact .inr (.inl rfl)

theorem isUpstreamError_getD (err : Error) :
    IsUpstreamError ((upstreamError err).getD
      (errorResponse statusServiceUnavailable "endpoint not found")) := by
  cases hu : upstreamError err with
  | none => exact .inl rfl
  | some resp => exact upstreamError_isUpstreamError hu

theorem IsUpstreamError.statusCode {resp : Response} (h : IsUpstreamError resp) :
    resp.statusCode = statusGatewayTimeout ∨ resp.statusCode = statusServiceUnavailable := by
  rcases h with rfl | rfl | rfl
  · exact .inr rfl
  · exact .inr rfl
  · exact .inl rfl

@[simp] theorem forward_forward (r : Request) : forward (forward r) = forward r := by
  simp [forward, Header.set]

theorem Proxy.request_of_forwarded {m : Type → Type} [Monad m] (p : Proxy m) {r : Request}
    (h : forwarded r = true) (remote : String → Request → m (Except Error Response)) :
    p.request r = { p with remoteProxy := remote }.request r := by
  simp only [Proxy.request, h, ↓reduceIte]

/-- A call `Proxy.Request` makes to one of its collaborators. -/
inductive Call
  | localRequest (endpointID : String) (r : Request)
  | remoteRequest (endpointID : String) (r : Request)

end Piko.Server
