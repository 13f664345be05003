import Piko.Proxy.Request

/-! # Forwarding across a cluster

Every node runs `Proxy.Request`; a node's remote proxy delivers the request it is given, headers
included, to `Proxy.Request` on another node. `forwarding_single_hop` shows that, whatever the
client sent, a request causes at most two invocations, on two distinct nodes, and gives the exact
calls each makes.

* `Cluster N`: what each node's local connections answer and where its remote proxy delivers,
  never to itself.
* `Cluster.serve fuel n r`: `Proxy.Request` at `n`, following deliveries at most `fuel` hops deep,
  logging every invocation and collaborator call.
* `Cluster.request_run_cases`: an answer comes from a local connection, from an error the proxy
  builds, or from the peer; `proxy_response_origin` follows a request through the cluster, and the
  only `400` the proxy builds itself is the missing-ID one.
-/

namespace Piko.Server
set_option autoImplicit false

variable {N : Type}

/-- A cluster of nodes running `Proxy.Request`. -/
structure Cluster (N : Type) where
  /-- What node `n`'s local connections answer. -/
  localRequest : N → String → Request → Except Error Response
  /-- Where node `n`'s remote proxy delivers a request, or the error it fails with. -/
  route : N → String → Request → Except Error N
  route_ne : ∀ n e r m, route n e r = .ok m → m ≠ n

/-- What happens in the cluster: an invocation of `Proxy.Request`, or a collaborator call. -/
inductive Event (N : Type)
  | serve (n : N) (r : Request)
  | call (n : N) (c : Call)

/-- The collaborators of node `n`; the remote one runs `next` at the node it delivers to. -/
def Cluster.proxyAt (c : Cluster N) (n : N)
    (next : N → Request → StateT (List (Event N)) Option Response) :
    Proxy (StateT (List (Event N)) Option) where
  localProxy e r := do
    modify (· ++ [.call n (.localRequest e r)])
    pure (c.localRequest n e r)
  remoteProxy e r := do
    modify (· ++ [.call n (.remoteRequest e r)])
    match c.route n e r with
    | .error err => pure (.error err)
    | .ok m => .ok <$> next m r

/-- `Proxy.Request` at node `n`, following deliveries at most `fuel` hops deep. -/
def Cluster.serve (c : Cluster N) : Nat → N → Request → StateT (List (Event N)) Option Response
  | 0, _, _ => failure
  | fuel + 1, n, r => do
    modify (· ++ [.serve n r])
    (c.proxyAt n (c.serve fuel)).request r

/-! ## One invocation, branch by branch

What `Proxy.Request` at a node returns and logs on each path through its body, with the log of its
collaborator calls. -/

section Request

variable (c : Cluster N) (n : N) (next : N → Request → StateT (List (Event N)) Option Response)
  (evs : List (Event N)) {r : Request} {resp : Response} {err : Error}

theorem Cluster.serve_succ_run (fuel : Nat) (r : Request) :
    (c.serve (fuel + 1) n r).run evs =
      ((c.proxyAt n (c.serve fuel)).request r).run (evs ++ [.serve n r]) := rfl

theorem Cluster.request_run_missing (he : endpointIDFromRequest r = "") :
    ((c.proxyAt n next).request r).run evs =
      some (errorResponse statusBadRequest "missing piko endpoint id", evs) := by
  simp only [Proxy.request, he, ↓reduceIte]; rfl

theorem Cluster.request_run_ok (he : endpointIDFromRequest r ≠ "")
    (hl : c.localRequest n (endpointIDFromRequest r) r = .ok resp) :
    ((c.proxyAt n next).request r).run evs =
      some (resp, evs ++ [.call n (.localRequest (endpointIDFromRequest r) r)]) := by
  simp only [Proxy.request, Cluster.proxyAt, he, hl, ↓reduceIte, bind_assoc, pure_bind]; rfl

theorem Cluster.request_run_upstream (he : endpointIDFromRequest r ≠ "")
    (hl : c.localRequest n (endpointIDFromRequest r) r = .error err)
    (hu : upstreamError err = some resp) :
    ((c.proxyAt n next).request r).run evs =
      some (resp, evs ++ [.call n (.localRequest (endpointIDFromRequest r) r)]) := by
  simp only [Proxy.request, Cluster.proxyAt, he, hl, hu, ↓reduceIte, bind_assoc, pure_bind]; rfl

theorem Cluster.request_run_forwarded (he : endpointIDFromRequest r ≠ "")
    (hl : c.localRequest n (endpointIDFromRequest r) r = .error err)
    (hu : upstreamError err = none) (hf : forwarded r = true) :
    ((c.proxyAt n next).request r).run evs =
      some (errorResponse statusServiceUnavailable "endpoint not found",
        evs ++ [.call n (.localRequest (endpointIDFromRequest r) r)]) := by
  simp only [Proxy.request, Cluster.proxyAt, he, hl, hu, hf, ↓reduceIte, bind_assoc, pure_bind]
  rfl

theorem Cluster.request_run_routeError (he : endpointIDFromRequest r ≠ "")
    (hl : c.localRequest n (endpointIDFromRequest r) r = .error err)
    (hu : upstreamError err = none) (hf : forwarded r = false) {err' : Error}
    (hroute : c.route n (endpointIDFromRequest r) (forward r) = .error err') :
    ((c.proxyAt n next).request r).run evs =
      some ((upstreamError err').getD (errorResponse statusServiceUnavailable "endpoint not found"),
        evs ++ [.call n (.localRequest (endpointIDFromRequest r) r)] ++
          [.call n (.remoteRequest (endpointIDFromRequest r) (forward r))]) := by
  simp only [Proxy.request, Cluster.proxyAt, he, hl, hu, hf, hroute, ↓reduceIte,
    Bool.false_eq_true, bind_assoc, pure_bind]
  rfl

theorem Cluster.request_run_route (he : endpointIDFromRequest r ≠ "")
    (hl : c.localRequest n (endpointIDFromRequest r) r = .error err)
    (hu : upstreamError err = none) (hf : forwarded r = false) {m : N}
    (hroute : c.route n (endpointIDFromRequest r) (forward r) = .ok m) :
    ((c.proxyAt n next).request r).run evs =
      (next m (forward r)).run (evs ++ [.call n (.localRequest (endpointIDFromRequest r) r)] ++
        [.call n (.remoteRequest (endpointIDFromRequest r) (forward r))]) := by
  simp only [Proxy.request, Cluster.proxyAt, he, hl, hu, hf, hroute, ↓reduceIte,
    Bool.false_eq_true, bind_assoc, pure_bind, StateT.run_bind, StateT.run_modify, StateT.run_map]
  cases (next m (forward r)).run _ <;> rfl

theorem Cluster.request_run_routeOk (he : endpointIDFromRequest r ≠ "")
    (hl : c.localRequest n (endpointIDFromRequest r) r = .error err)
    (hu : upstreamError err = none) (hf : forwarded r = false) {m : N}
    (hroute : c.route n (endpointIDFromRequest r) (forward r) = .ok m) {evs' : List (Event N)}
    (hm : (next m (forward r)).run (evs ++ [.call n (.localRequest (endpointIDFromRequest r) r)] ++
      [.call n (.remoteRequest (endpointIDFromRequest r) (forward r))]) = some (resp, evs')) :
    ((c.proxyAt n next).request r).run evs = some (resp, evs') :=
  (c.request_run_route n next evs he hl hu hf hroute).trans hm

/-- Where the answer to a request with an endpoint ID comes from: the local connections for that
ID, an error the proxy builds when no upstream answers, or the node the remote proxy delivered the
forwarded request to. -/
theorem Cluster.request_run_cases (he : endpointIDFromRequest r ≠ "") {evs' : List (Event N)}
    (h : ((c.proxyAt n next).request r).run evs = some (resp, evs')) :
    c.localRequest n (endpointIDFromRequest r) r = .ok resp ∨ IsUpstreamError resp ∨
      ∃ m evs₀, (next m (forward r)).run evs₀ = some (resp, evs') := by
  cases hl : c.localRequest n (endpointIDFromRequest r) r with
  | ok resp₀ =>
    rw [c.request_run_ok n next evs he hl] at h
    cases h
    exact .inl rfl
  | error err =>
  cases hu : upstreamError err with
  | some resp₀ =>
    rw [c.request_run_upstream n next evs he hl hu] at h
    cases h
    exact .inr (.inl (upstreamError_isUpstreamError hu))
  | none =>
  cases hf : forwarded r with
  | true =>
    rw [c.request_run_forwarded n next evs he hl hu hf] at h
    cases h
    exact .inr (.inl (.inl rfl))
  | false =>
  cases hroute : c.route n (endpointIDFromRequest r) (forward r) with
  | error err' =>
    rw [c.request_run_routeError n next evs he hl hu hf hroute] at h
    cases h
    exact .inr (.inl (isUpstreamError_getD err'))
  | ok m =>
    rw [c.request_run_route n next evs he hl hu hf hroute] at h
    exact .inr (.inr ⟨m, _, h⟩)

end Request

/-- Where the answer to a request comes from, at whichever node it enters and however far it is
forwarded: the missing-ID error when the endpoint ID is empty, otherwise some node's local answer
to the request or to its forwarded copy, or one of the proxy's errors for a missing or failed
upstream. -/
theorem Cluster.serve_origin (c : Cluster N) :
    ∀ (fuel : Nat) (n : N) (r : Request) {evs : List (Event N)} {resp : Response}
      {evs' : List (Event N)}, (c.serve fuel n r).run evs = some (resp, evs') →
      (endpointIDFromRequest r = "" ∧
        resp = errorResponse statusBadRequest "missing piko endpoint id") ∨
      (endpointIDFromRequest r ≠ "" ∧
        ((∃ m, c.localRequest m (endpointIDFromRequest r) r = .ok resp ∨
            c.localRequest m (endpointIDFromRequest r) (forward r) = .ok resp) ∨
          IsUpstreamError resp))
  | 0, _, _, _, _, _, h => nomatch h
  | fuel + 1, n, r, evs, resp, evs', h => by
    rw [c.serve_succ_run] at h
    by_cases he : endpointIDFromRequest r = ""
    · rw [c.request_run_missing n _ _ he] at h
      cases h
      exact .inl ⟨he, rfl⟩
    refine .inr ⟨he, ?_⟩
    rcases c.request_run_cases n _ _ he h with hl | hu | ⟨m, evs₀, hm⟩
    · exact .inl ⟨n, .inl hl⟩
    · exact .inr hu
    · rcases Cluster.serve_origin c fuel m (forward r) hm with ⟨he', -⟩ | ⟨-, ⟨m', hl⟩ | hu⟩
      · exact absurd ((endpointIDFromRequest_forward r).symm.trans he') he
      · rw [endpointIDFromRequest_forward, forward_forward, or_self] at hl
        exact .inl ⟨m', .inr hl⟩
      · exact .inr hu

/-- A forwarded request is served within one hop: more fuel changes nothing. -/
theorem Cluster.serve_of_forwarded (c : Cluster N) {r : Request} (h : forwarded r = true)
    (fuel : Nat) (n : N) : c.serve (fuel + 1) n r = c.serve 1 n r := by
  simp only [Cluster.serve]
  rw [Proxy.request_of_forwarded _ h (c.proxyAt n (c.serve 0)).remoteProxy]
  rfl

theorem Cluster.serve_one_forwarded (c : Cluster N) {r : Request} (h : forwarded r = true) (n : N)
    (evs : List (Event N)) : ∃ resp, (c.serve 1 n r).run evs = some (resp, evs ++ [.serve n r] ++
      if endpointIDFromRequest r = "" then [] else [.call n (.localRequest (endpointIDFromRequest r) r)]) := by
  rw [c.serve_succ_run n evs 0 r]
  by_cases he : endpointIDFromRequest r = ""
  · rw [c.request_run_missing n _ _ he, if_pos he, List.append_nil]
    exact ⟨_, rfl⟩
  rw [if_neg he]
  cases hl : c.localRequest n (endpointIDFromRequest r) r with
  | ok resp => exact ⟨resp, c.request_run_ok n _ _ he hl⟩
  | error err =>
    cases hu : upstreamError err with
    | some resp => exact ⟨resp, c.request_run_upstream n _ _ he hl hu⟩
    | none => exact ⟨_, c.request_run_forwarded n _ _ he hl hu h⟩

/-- Single-hop forwarding: whatever the client's `x-piko-forward` header, a request makes at most
two invocations of `Proxy.Request`, at two distinct nodes, found within two hops of fuel. Each makes
its local call at most once and its remote call at most once, the remote one only after a local
`errEndpointNotFound` on a request not already forwarded, and with `x-piko-forward: true` set. -/
theorem forwarding_single_hop (c : Cluster N) (n : N) (r : Request) :
    (forward r).header.get "X-Piko-Forward" = "true" ∧
    ∃ resp evs, (c.serve 2 n r).run [] = some (resp, evs) ∧
      (∀ fuel, (c.serve (fuel + 2) n r).run [] = some (resp, evs)) ∧
      (evs = [.serve n r] ∨
       evs = [.serve n r, .call n (.localRequest (endpointIDFromRequest r) r)] ∨
       ∃ err, c.localRequest n (endpointIDFromRequest r) r = .error err ∧
         errorsIs err .endpointNotFound ∧ forwarded r = false ∧
         (evs = [.serve n r, .call n (.localRequest (endpointIDFromRequest r) r),
            .call n (.remoteRequest (endpointIDFromRequest r) (forward r))] ∨
          ∃ m, m ≠ n ∧ evs = [.serve n r, .call n (.localRequest (endpointIDFromRequest r) r),
            .call n (.remoteRequest (endpointIDFromRequest r) (forward r)), .serve m (forward r),
            .call m (.localRequest (endpointIDFromRequest r) (forward r))])) := by
  refine ⟨Header.get_set_self _ _ _, ?_⟩
  suffices h : ∃ resp evs, (∀ fuel, (c.serve (fuel + 2) n r).run [] = some (resp, evs)) ∧ _ from
    let ⟨resp, evs, hrun, hevs⟩ := h
    ⟨resp, evs, hrun 0, hrun, hevs⟩
  have hop := fun fuel => c.serve_succ_run n [] (fuel + 1) r
  by_cases he : endpointIDFromRequest r = ""
  · exact ⟨_, _, fun fuel => (hop fuel).trans (c.request_run_missing n _ _ he), .inl rfl⟩
  cases hl : c.localRequest n (endpointIDFromRequest r) r with
  | ok resp =>
    exact ⟨resp, _, fun fuel => (hop fuel).trans (c.request_run_ok n _ _ he hl), .inr (.inl rfl)⟩
  | error err =>
  cases hu : upstreamError err with
  | some resp =>
    exact ⟨resp, _, fun fuel => (hop fuel).trans (c.request_run_upstream n _ _ he hl hu),
      .inr (.inl rfl)⟩
  | none =>
  cases hf : forwarded r with
  | true =>
    exact ⟨_, _, fun fuel => (hop fuel).trans (c.request_run_forwarded n _ _ he hl hu hf),
      .inr (.inl rfl)⟩
  | false =>
  have hnf := upstreamError_eq_none.mp hu
  cases hroute : c.route n (endpointIDFromRequest r) (forward r) with
  | error err' =>
    exact ⟨_, _, fun fuel => (hop fuel).trans (c.request_run_routeError n _ _ he hl hu hf hroute),
      .inr (.inr ⟨err, rfl, hnf, rfl, .inl rfl⟩)⟩
  | ok m =>
    -- the peer serves the forwarded request within one hop, whatever fuel is left
    obtain ⟨resp', hm⟩ := c.serve_one_forwarded (forwarded_forward r) m
      [.serve n r, .call n (.localRequest (endpointIDFromRequest r) r),
        .call n (.remoteRequest (endpointIDFromRequest r) (forward r))]
    rw [endpointIDFromRequest_forward, if_neg he] at hm
    refine ⟨resp', _, fun fuel => (hop fuel).trans (c.request_run_routeOk n _ _ he hl hu hf hroute
      (by rw [c.serve_of_forwarded (forwarded_forward r)]; exact hm)),
      .inr (.inr ⟨err, rfl, hnf, rfl, .inr ⟨m, c.route_ne _ _ _ _ hroute, rfl⟩⟩)⟩

/-- Endpoint extraction. A non-empty `x-piko-endpoint` header is the ID, whatever the Host.
Without it the ID is the Host up to its first dot (empty when the Host starts with one), or `""`
when the Host has no dot; so a Host `e.d` gives `e` for every first label `e` with no dot. In any
cluster, the proxy answers its own `400` when the ID is empty, and a `400` for a non-empty ID is a
node's local answer to the request or to its forwarded copy, passed on unchanged. -/
theorem endpoint_extraction (r : Request) :
    (r.header.get "X-Piko-Endpoint" ≠ "" →
      endpointIDFromRequest r = r.header.get "X-Piko-Endpoint") ∧
    (r.header.get "X-Piko-Endpoint" = "" →
      endpointIDFromRequest r =
        if '.' ∈ r.host.data then String.mk (r.host.data.takeWhile (· ≠ '.')) else "") ∧
    (r.header.get "X-Piko-Endpoint" = "" → ∀ e d : String, '.' ∉ e.data →
      r.host = e ++ "." ++ d → endpointIDFromRequest r = e) ∧
    (∀ {N : Type} (c : Cluster N) fuel n evs resp evs',
      (c.serve fuel n r).run evs = some (resp, evs') →
        (endpointIDFromRequest r = "" →
          resp = errorResponse statusBadRequest "missing piko endpoint id") ∧
        (endpointIDFromRequest r ≠ "" → resp.statusCode = statusBadRequest →
          ∃ m, c.localRequest m (endpointIDFromRequest r) r = .ok resp ∨
            c.localRequest m (endpointIDFromRequest r) (forward r) = .ok resp)) := by
  refine ⟨endpointIDFromRequest_of_header, endpointIDFromRequest_of_host,
    fun h _ _ he hhost => endpointIDFromRequest_label h he hhost, fun c fuel n _ _ _ h => ?_⟩
  rcases c.serve_origin fuel n r h with ⟨he, hresp⟩ | ⟨he, hl | hu⟩
  · exact ⟨fun _ => hresp, fun hne => absurd he hne⟩
  · exact ⟨fun h' => absurd h' he, fun _ _ => hl⟩
  · refine ⟨fun h' => absurd h' he, fun _ h400 => absurd h400 ?_⟩
    rcases hu.statusCode with hs | hs <;> rw [hs] <;> decide

/-- The spec's example: with no header, Host `xyz.piko.example.com` gives `xyz`. -/
theorem endpoint_extraction_spec_host :
    endpointIDFromRequest ⟨fun _ => [], "xyz.piko.example.com"⟩ = "xyz" :=
  (endpoint_extraction ⟨fun _ => [], "xyz.piko.example.com"⟩).2.2.1 rfl "xyz" "piko.example.com"
    (by decide) rfl

/-- A node whose local connection answers `400` to a request naming endpoint `e`: the proxy
answers `400` although the ID is not empty. -/
theorem upstream_badRequest_passes_through :
    ∃ (c : Cluster Unit) (r : Request) (resp : Response) (evs : List (Event Unit)),
      (c.serve 1 () r).run [] = some (resp, evs) ∧ resp.statusCode = statusBadRequest ∧
        endpointIDFromRequest r = "e" :=
  ⟨⟨fun _ _ _ => .ok ⟨400, ""⟩, fun _ _ _ => .error [], fun _ _ _ _ h => nomatch h⟩,
    ⟨fun _ => ["e"], ""⟩, _, _, rfl, rfl, rfl⟩

/-- What a request is answered with, at whichever node it enters and however far it is
forwarded: the `400` missing-ID error exactly when the endpoint ID is empty; otherwise the answer
some node's local connections gave for that endpoint ID to the request or to its forwarded copy, or
one of the proxy's own errors for a missing or failed upstream. The proxy builds no other
response. -/
theorem proxy_response_origin (c : Cluster N) :
    ∀ (fuel : Nat) (n : N) (r : Request) {evs : List (Event N)} {resp : Response}
      {evs' : List (Event N)}, (c.serve fuel n r).run evs = some (resp, evs') →
      (endpointIDFromRequest r = "" ∧
        resp = errorResponse statusBadRequest "missing piko endpoint id") ∨
      (endpointIDFromRequest r ≠ "" ∧
        ((∃ m, c.localRequest m (endpointIDFromRequest r) r = .ok resp ∨
            c.localRequest m (endpointIDFromRequest r) (forward r) = .ok resp) ∨
          IsUpstreamError resp)) :=
  c.serve_origin

/-- Node `false` has no connection for `e` and delivers to node `true`, whose connection answers:
the client gets that answer. -/
theorem proxy_response_origin_forwarded :
    ∃ (c : Cluster Bool) (resp : Response) (evs : List (Event Bool)),
      (c.serve 2 false ⟨fun k => if k = "X-Piko-Endpoint" then ["e"] else [], ""⟩).run [] =
        some (resp, evs) ∧ resp = ⟨200, "ok"⟩ ∧
      ((endpointIDFromRequest ⟨fun k => if k = "X-Piko-Endpoint" then ["e"] else [], ""⟩ = "" ∧
          resp = errorResponse statusBadRequest "missing piko endpoint id") ∨
        (endpointIDFromRequest ⟨fun k => if k = "X-Piko-Endpoint" then ["e"] else [], ""⟩ ≠ "" ∧
          ((∃ m, c.localRequest m "e" ⟨fun k => if k = "X-Piko-Endpoint" then ["e"] else [], ""⟩ =
                .ok resp ∨
              c.localRequest m "e"
                (forward ⟨fun k => if k = "X-Piko-Endpoint" then ["e"] else [], ""⟩) = .ok resp) ∨
            IsUpstreamError resp))) :=
  let c : Cluster Bool :=
    ⟨fun m _ _ => if m then .ok ⟨200, "ok"⟩ else .error [.endpointNotFound],
      fun m _ _ => if m then .error [.endpointNotFound] else .ok true,
      fun m _ _ _ h => by cases m <;> simp_all⟩
  ⟨c, _, _, rfl, rfl, @proxy_response_origin _ c 2 false _ [] _ _ rfl⟩

end Piko.Server
